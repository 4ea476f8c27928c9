import Mantissa.Scheduler.Snapshot

/-!
# Workload rows

A workload row has two parts. The status is what the node that runs the workload keeps publishing;
the definition is what a full specification adds to it. A status event carries the first part only,
so a row may have a status without its definition, and then is marked incomplete.

`WorkloadSpec`, `WorkloadStatus` and `WorkloadValue` of the source list all fields flat; here a
status is a part of the other two, so that what a merge copies is one field.
-/

namespace Mantissa.Workload

/-! ## Nested data -/

inductive ExecutionPlatform
  | oci
  | microVm
  deriving DecidableEq

inductive IsolationMode
  | standard
  | sandboxed
  deriving DecidableEq

/-- `WorkloadPhase`. -/
inductive WorkloadPhase
  | pending
  | pulling
  | creating
  | volumeUnavailable
  | running
  | paused
  | stopping
  | stopped
  | failed
  | exited (code : ℤ)
  | unknown
  deriving DecidableEq

/-- `WorkloadPhase::precedence_rank`: later ranks win between rows that are otherwise equally new.
-/
def WorkloadPhase.precedenceRank : WorkloadPhase → ℕ
  | .failed => 0
  | .exited _ => 0
  | .unknown => 0
  | .paused => 1
  | .stopped => 2
  | .stopping => 3
  | .pending => 4
  | .volumeUnavailable => 4
  | .pulling => 5
  | .creating => 5
  | .running => 6

inductive WorkloadAdmissionState
  | none
  | pendingGroup
  | groupCommitted
  deriving DecidableEq

structure WorkloadVolumeMount where
  volumeId : Uuid
  volumeName : String
  target : String
  readOnly : Bool
  deriving DecidableEq

/-- `WorkloadServiceMetadata`; a handoff is the task it comes from. -/
structure WorkloadServiceMetadata where
  serviceName : String
  template : String
  serviceEpoch : ℕ
  replica : ℕ
  handoff : Option Uuid
  deriving DecidableEq

inductive WorkloadOwner
  | serviceReplica (metadata : WorkloadServiceMetadata)
  | jobAttempt (jobId : Uuid) (jobName : String)
  | agentRun (sessionId : Uuid) (sessionName : String) (runId : Uuid)
  deriving DecidableEq

structure WorkloadSecretReference where
  name : String
  versionId : Option Uuid
  deriving DecidableEq

structure WorkloadEnvironmentVariable where
  name : String
  value : Option String
  secret : Option WorkloadSecretReference
  deriving DecidableEq

inductive FilesystemOwnership
  | daemon
  | user (uid gid : ℕ)
  | fsGroup (gid : ℕ)
  deriving DecidableEq

structure WorkloadSecretFile where
  path : String
  secret : WorkloadSecretReference
  mode : Option ℕ
  ownership : FilesystemOwnership
  pathEnvName : Option String
  deriving DecidableEq

inductive WorkloadPortProtocol
  | tcp
  | udp
  deriving DecidableEq

structure WorkloadPortBinding where
  name : String
  targetPort : ℕ
  hostPort : ℕ
  hostIp : String
  protocol : WorkloadPortProtocol
  deriving DecidableEq

inductive WorkloadLivenessProbeKind
  | exec
  | http
  | tcp
  deriving DecidableEq

structure WorkloadLivenessProbe where
  kind : WorkloadLivenessProbeKind
  command : List String
  port : ℕ
  path : Option String
  intervalMs : ℕ
  timeoutMs : ℕ
  failureThreshold : ℕ
  startPeriodMs : ℕ
  deriving DecidableEq

inductive WorkloadRestartPolicyKind
  | no
  | always
  | onFailure
  | unlessStopped
  deriving DecidableEq

structure WorkloadRestartPolicy where
  name : WorkloadRestartPolicyKind
  maxRetryCount : Option ℤ
  deriving DecidableEq

/-! ## Rows -/

/-- `WorkloadStatus`. -/
structure WorkloadStatus where
  id : Uuid
  name : String
  image : String
  executionPlatform : ExecutionPlatform
  isolationMode : IsolationMode
  isolationProfile : Option String
  state : WorkloadPhase
  phaseReason : Option String
  phaseProgress : Option String
  createdAt : String
  updatedAt : String
  nodeId : Uuid
  nodeName : String
  owner : Option WorkloadOwner
  taskEpoch : ℕ
  phaseVersion : ℕ
  launchAttempt : ℕ
  lastTerminalObservedLaunch : Option ℕ
  deriving DecidableEq

/-- What a specification has beyond a status. -/
structure WorkloadDefinition where
  command : List String
  tty : Bool
  slotIds : List Scheduler.SlotId
  slotId : Option Scheduler.SlotId
  cpuMillis : ℕ
  memoryBytes : ℕ
  gpuCount : ℕ
  gpuDeviceIds : List Scheduler.GpuDeviceId
  restartPolicy : Option WorkloadRestartPolicy
  terminationGracePeriodSecs : Option ℕ
  preStopCommand : Option (List String)
  liveness : Option WorkloadLivenessProbe
  env : List WorkloadEnvironmentVariable
  registryAuth : Option WorkloadSecretReference
  secretFiles : List WorkloadSecretFile
  volumes : List WorkloadVolumeMount
  networks : List Uuid
  ports : List WorkloadPortBinding
  leaseId : Option Uuid
  leaseCoordinatorNodeId : Option Uuid
  admissionGroupId : Option Uuid
  admissionState : WorkloadAdmissionState
  deriving DecidableEq

/-- `WorkloadSpec`. -/
structure WorkloadSpec where
  status : WorkloadStatus
  definition : WorkloadDefinition
  deriving DecidableEq

/-- `WorkloadValue`. -/
structure WorkloadValue where
  status : WorkloadStatus
  definition : WorkloadDefinition
  definitionComplete : Bool
  deriving DecidableEq

/-- The definition of a row that was made from a status. -/
def WorkloadDefinition.placeholder : WorkloadDefinition where
  command := []
  tty := false
  slotIds := []
  slotId := none
  cpuMillis := 0
  memoryBytes := 0
  gpuCount := 0
  gpuDeviceIds := []
  restartPolicy := none
  terminationGracePeriodSecs := none
  preStopCommand := none
  liveness := none
  env := []
  registryAuth := none
  secretFiles := []
  volumes := []
  networks := []
  ports := []
  leaseId := none
  leaseCoordinatorNodeId := none
  admissionGroupId := none
  admissionState := .none

/-- `spec_to_value`: a row's single slot is the first of its slots. -/
def specToValue (spec : WorkloadSpec) : WorkloadValue :=
  ⟨spec.status, { spec.definition with slotId := spec.definition.slotIds.head? }, true⟩

/-- `value_to_spec`: a row with a single slot only gets it as its slots. -/
def valueToSpec (value : WorkloadValue) : WorkloadSpec :=
  let slotIds :=
    if value.definition.slotIds.isEmpty then value.definition.slotId.toList
    else value.definition.slotIds
  ⟨value.status, { value.definition with slotIds, slotId := slotIds.head? }⟩

/-- `WorkloadAdmissionGroupPhase`. -/
inductive WorkloadAdmissionGroupPhase
  | preparing
  | commitDecided
  | completed
  | abortDecided
  deriving DecidableEq

/-- `allows_adoption`. -/
def WorkloadAdmissionGroupPhase.allowsAdoption : WorkloadAdmissionGroupPhase → Bool
  | .commitDecided => true
  | .completed => true
  | _ => false

end Mantissa.Workload
