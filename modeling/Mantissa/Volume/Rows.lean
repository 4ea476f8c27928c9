import Mantissa.Scheduler.Snapshot

/-!
# The replicated rows of a volume

The desired state of a volume (`VolumeSpecValue`) and what each node reports about it
(`VolumeNodeStateValue`), with the orders in which concurrent rows are preferred.

Time stamps are compared as instants if both parse and as texts otherwise, here and wherever the
source ranks by `ParsedOrRawTimestampRank`. The parser is a parameter. So is the order
`derive(Ord)` gives a row or a driver: it only breaks ties, and any linear order may stand for it.
An enumeration is ordered by the position of its variants.
-/

namespace Mantissa.Volumes

/-! ## Time stamps -/

variable (parseTimestamp : String → Option ℕ) (left right : String)

/-- `ParsedOrRawTimestampRank::cmp`. -/
def compareParsedOrRaw : Ordering :=
  match parseTimestamp left, parseTimestamp right with
  | some leftTs, some rightTs => compare leftTs rightTs
  | _, _ => compare left right

/-- `compare_volume_timestamps`. -/
def compareVolumeTimestamps : Ordering :=
  compareParsedOrRaw parseTimestamp left right

lemma compareParsedOrRaw_swap : compareParsedOrRaw parseTimestamp right left =
    (compareParsedOrRaw parseTimestamp left right).swap := by
  unfold compareParsedOrRaw
  cases parseTimestamp left <;> cases parseTimestamp right <;>
    simp only [← Std.OrientedCmp.eq_swap]

/-- Texts that parse are compared as instants. -/
lemma compareParsedOrRaw_of_isSome {left right : String} (hleft : (parseTimestamp left).isSome)
    (hright : (parseTimestamp right).isSome) : compareParsedOrRaw parseTimestamp left right =
      compare ((parseTimestamp left).getD 0) ((parseTimestamp right).getD 0) := by
  obtain ⟨leftTs, hl⟩ := Option.isSome_iff_exists.mp hleft
  obtain ⟨rightTs, hr⟩ := Option.isSome_iff_exists.mp hright
  simp only [compareParsedOrRaw, hl, hr, Option.getD_some]

/-! ## Desired state -/

/-- `FilesystemOwnership`. -/
inductive FilesystemOwnership
  | daemon
  | user (uid gid : ℕ)
  | fsGroup (gid : ℕ)
  deriving DecidableEq, Repr

/-- `LocalVolumeSpec`. -/
inductive LocalVolumeSpec
  | managed (ownership : FilesystemOwnership)
  | importedPath (path : String)
  deriving DecidableEq, Repr

/-- `ExternalVolumeSpec`. -/
structure ExternalVolumeSpec where
  driverName : String
  handle : String
  deriving DecidableEq, Repr

/-- `ReplicatedVolumeFilesystem`. -/
inductive ReplicatedVolumeFilesystem
  | ext4
  | xfs
  deriving DecidableEq, Repr

/-- `ReplicatedVolumeSpec`. -/
structure ReplicatedVolumeSpec where
  ownership : FilesystemOwnership
  filesystem : ReplicatedVolumeFilesystem
  deriving DecidableEq, Repr

/-- `VolumeDriver`. -/
inductive VolumeDriver
  | ofLocal (spec : LocalVolumeSpec)
  | external (spec : ExternalVolumeSpec)
  | replicated (spec : ReplicatedVolumeSpec)
  deriving DecidableEq, Repr

/-- `VolumeDriver::is_replicated`. -/
def VolumeDriver.isReplicated : VolumeDriver → Bool
  | .replicated _ => true
  | _ => false

/-- `VolumeAccessMode`. -/
inductive VolumeAccessMode
  | readWriteOnce
  deriving DecidableEq, Repr

/-- `VolumeBindingMode`. -/
inductive VolumeBindingMode
  | immediate
  | waitForFirstConsumer
  deriving DecidableEq, Repr

/-- `VolumeReclaimPolicy`. -/
inductive VolumeReclaimPolicy
  | retain
  | delete
  deriving DecidableEq, Repr

/-- `DesiredVolumeDisposition`. -/
inductive DesiredVolumeDisposition
  | live
  | retained
  | deleted
  deriving DecidableEq, Repr

/-- `VolumeDeletionRank`. -/
inductive VolumeDeletionRank
  | live
  | deleted
  deriving DecidableEq, Repr

/-- `VolumeLifecycleIntent`. -/
structure VolumeLifecycleIntent where
  revision : ℕ
  requestId : Uuid
  disposition : DesiredVolumeDisposition
  removeData : Bool
  deriving DecidableEq, Repr

/-- `VolumeLabel`. -/
structure VolumeLabel where
  key : String
  value : String
  deriving DecidableEq, Repr

/-- `VolumeSpecValue`: the desired state of a volume. -/
structure VolumeSpecValue where
  id : Uuid
  name : String
  driver : VolumeDriver
  accessMode : VolumeAccessMode
  bindingMode : VolumeBindingMode
  reclaimPolicy : VolumeReclaimPolicy
  initialCapacityBytes : Option ℕ
  labels : List VolumeLabel
  boundNodeId : Option Uuid
  boundNodeName : Option String
  bindingOperationId : Option Uuid
  bindingRevision : ℕ
  planCoordinatorNodeId : Option Uuid
  volumeEpoch : ℕ
  lifecycle : VolumeLifecycleIntent
  createdAt : String
  updatedAt : String
  deriving DecidableEq, Repr

/-! ## Node reports -/

/-- `VolumeNodeState`. -/
inductive VolumeNodeState
  | pending
  | provisioning
  | ready
  | published
  | retained
  | deleting
  | error
  deriving DecidableEq, Repr

/-- `VolumeNodeStateValue`: what a node reports about a volume. -/
structure VolumeNodeStateValue where
  id : Uuid
  volumeId : Uuid
  nodeId : Uuid
  nodeName : String
  localPath : Option String
  state : VolumeNodeState
  capacityBytes : Option ℕ
  reservedCapacityBytes : Option ℕ
  preparedCapacityBytes : Option ℕ
  servedCapacityBytes : Option ℕ
  deviceCapacityBytes : Option ℕ
  filesystemExpansionPending : Bool
  usedBytes : Option ℕ
  publishedTaskIds : List Uuid
  updatedAt : String
  lastError : Option String
  volumeEpoch : ℕ
  groupId : Option Uuid
  deriving DecidableEq, Repr

variable (left right : VolumeNodeStateValue)

/-- `compare_volume_node_states`. -/
def compareVolumeNodeStates : Ordering :=
  (compare left.volumeEpoch right.volumeEpoch).then <|
  (compareVolumeTimestamps parseTimestamp left.updatedAt right.updatedAt).then <|
  (compare left.state.ctorIdx right.state.ctorIdx).then <|
  (compare left.publishedTaskIds right.publishedTaskIds).then <|
  (compare left.capacityBytes right.capacityBytes).then <|
  (compare left.reservedCapacityBytes right.reservedCapacityBytes).then <|
  (compare left.preparedCapacityBytes right.preparedCapacityBytes).then <|
  (compare left.servedCapacityBytes right.servedCapacityBytes).then <|
  (compare left.deviceCapacityBytes right.deviceCapacityBytes).then <|
  (compare left.filesystemExpansionPending right.filesystemExpansionPending).then <|
  (compare left.usedBytes right.usedBytes).then <|
  (compare left.lastError right.lastError).then <|
  (compare left.localPath right.localPath).then <|
  compare left.groupId right.groupId

/-- Reports compare the same from both sides. -/
lemma compareVolumeNodeStates_swap : compareVolumeNodeStates parseTimestamp right left =
      (compareVolumeNodeStates parseTimestamp left right).swap := by
  simp only [compareVolumeNodeStates, compareVolumeTimestamps, Ordering.swap_then,
    compareParsedOrRaw_swap parseTimestamp left.updatedAt right.updatedAt,
    ← Std.OrientedCmp.eq_swap]

/-- `SavedVolumeDescriptor`, as far as reports are matched by it. -/
structure SavedVolumeDescriptor where
  volumeId : Uuid
  generation : ℕ
  deriving DecidableEq, Repr

/-- `ReplicatedVolumePlan`, as far as reports are matched by it. -/
structure ReplicatedVolumePlan where
  descriptor : SavedVolumeDescriptor
  deriving DecidableEq, Repr

end Mantissa.Volumes
