import Mantissa.Store.RegisterConvergence
import Mantissa.Store.PruneFrontier
import Mantissa.Store.MutualPull
import Mantissa.Store.Recreate
import Mantissa.Store.FilteredExport
import Mantissa.Store.MixedChunks
import Mantissa.Store.RowCodec
import Mantissa.Volume.AdmissionCluster
import Mantissa.Volume.Unavailable
import Mantissa.Volume.ReplacementRotation
import Mantissa.Raft.BatchOrder
import Mantissa.Scheduler.Publication
import Mantissa.Workload.StartProtection
import Mantissa.Agents.LateGossip
import Mantissa.Jobs.Cancellation
import Mantissa.Raft.SnapshotInstall
import Mantissa.Service.Assignment
import Mantissa.Cluster.DependencyOrder
import Mantissa.Replicated.Attachments
import Mantissa.Replicated.SecretKeys
import Mantissa.Replicated.Workloads
import Mantissa.Replicated.TimestampOrder
import Mantissa.Secrets.Rotation
import Mantissa.Scheduler.SlotSpecs
import Mantissa.Gossip.Fanout
