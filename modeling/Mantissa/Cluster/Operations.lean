import Mantissa.Core.Worklist
import Mantissa.Scheduler.Snapshot

/-!
# Split and merge operations

A cluster is restructured by operations that split a view into new ones or merge views into an
existing one. Their records are replicated; an operation counts once it is committed.
`projectedViewMembers` replays the committed operations in causal order and says which nodes a view
has.

Hash maps and sets of the replay are functions and finite sets: nothing depends on their iteration
order.
-/

namespace Mantissa.Cluster

/-- `ClusterViewId`. -/
structure ClusterViewId where
  clusterId : Uuid
  epoch : ℕ
  deriving DecidableEq

inductive ClusterOperationKind
  | merge
  | split
  deriving DecidableEq

inductive ClusterOperationStage
  | proposed
  | prepared
  | committed
  | finalized
  | aborted
  deriving DecidableEq

/-- `SplitNodeAssignment`. -/
structure SplitNodeAssignment where
  nodeId : Uuid
  targetIndex : ℕ
  deriving DecidableEq

/-- `ClusterOperationRecord`, without names and policies. -/
structure ClusterOperationRecord where
  id : Uuid
  submittedByNodeId : Uuid
  kind : ClusterOperationKind
  stage : ClusterOperationStage
  dryRun : Bool
  createdAtUnixMs : ℕ
  dependencyOperationIds : List Uuid
  sourceViews : List ClusterViewId
  targetViews : List ClusterViewId
  splitAssignments : List SplitNodeAssignment
  updatedAtUnixMs : ℕ
  details : String
  deriving DecidableEq

namespace ClusterOperationRecord

variable (operation : ClusterOperationRecord)

/-- `lineage_order_timestamp_unix_ms`. -/
def lineageOrderTimestampUnixMs : ℕ :=
  if operation.createdAtUnixMs = 0 then operation.updatedAtUnixMs else operation.createdAtUnixMs

/-- `lineage_order_key`. -/
def lineageOrderKey : ℕ ×ₗ Uuid ×ₗ Uuid :=
  toLex (operation.lineageOrderTimestampUnixMs,
    toLex (operation.submittedByNodeId, operation.id))

end ClusterOperationRecord

/-! ## The projection -/

/-- `HashMap<ClusterViewId, HashSet<Uuid>>`. -/
abbrev Views := ClusterViewId → Option (Finset Uuid)

/-- `operation_is_applied`. -/
def operationIsApplied (assumedAppliedOperationId : Option Uuid)
    (operation : ClusterOperationRecord) : Bool :=
  if operation.dryRun then false
  else
    let stageIsApplied := match operation.stage with
      | .committed | .finalized => true
      | _ => false
    stageIsApplied || decide (assumedAppliedOperationId = some operation.id)

variable (operation : ClusterOperationRecord)

/-- `has_unprojected_dependency`. -/
def hasUnprojectedDependency (appliedIds projectedIds : Finset Uuid) : Bool :=
  operation.dependencyOperationIds.any fun dependency =>
    decide (dependency ∈ appliedIds ∧ dependency ∉ projectedIds)

/-- The sets of nodes assigned to the targets; `none` if an index has no target. -/
def assignTargets (assignments : List SplitNodeAssignment) (targets : List (Finset Uuid)) :
    Option (List (Finset Uuid)) :=
  assignments.foldlM (fun targets assignment =>
    if assignment.targetIndex < targets.length then
      some (targets.modify assignment.targetIndex (insert assignment.nodeId))
    else none) targets

/-- `views.remove` for each of the given views. -/
def removeViews (sources : List ClusterViewId) (views : Views) : Views :=
  sources.foldl (fun views source => Function.update views source none) views

/-- `views.insert` for each of the given views. -/
def insertViews (targets : List (ClusterViewId × Finset Uuid)) (views : Views) : Views :=
  targets.foldl (fun views target => Function.update views target.1 (some target.2)) views

variable (views : Views)

/-- `apply_split`. -/
def applySplit : Option Views :=
  (assignTargets operation.splitAssignments
      (List.replicate operation.targetViews.length ∅)).map fun targets =>
    insertViews (operation.targetViews.zip targets) (removeViews operation.sourceViews views)

/-- One source of a merge is taken out of the map and into the merged members. -/
def mergeSource (targetView : ClusterViewId) (state : Views × Finset Uuid)
    (source : ClusterViewId) : Views × Finset Uuid :=
  if source = targetView then state
  else
    match state.1 source with
    | some sourceMembers => (Function.update state.1 source none, state.2 ∪ sourceMembers)
    | none => state

/-- `apply_merge`. -/
def applyMerge : Option Views :=
  match operation.targetViews.head? with
  | none => none
  | some targetView =>
    if operation.sourceViews.all fun source => (views source).isSome then
      match views targetView with
      | none => none
      | some members =>
        let merged := operation.sourceViews.foldl (mergeSource targetView)
          (Function.update views targetView none, members)
        some (Function.update merged.1 targetView (some merged.2))
    else none

/-- `apply_operation`. -/
def applyOperation : Option Views :=
  match operation.kind with
  | .split => applySplit operation views
  | .merge => applyMerge operation views

/-- The state of the replay. -/
structure Projection where
  views : Views
  projectedIds : Finset Uuid

/-- One operation's turn in the replay. -/
def projectOperation (appliedIds : Finset Uuid) (state : Projection)
    (operation : ClusterOperationRecord) : Option Projection :=
  if operation.id ∈ state.projectedIds ∨
      hasUnprojectedDependency operation appliedIds state.projectedIds = true then none
  else (applyOperation operation state.views).map fun views =>
    ⟨views, insert operation.id state.projectedIds⟩

variable (operations : List ClusterOperationRecord)

/-- The operations that are replayed, in lineage order. -/
def appliedOperations (assumedAppliedOperationId : Option Uuid) : List ClusterOperationRecord :=
  (operations.filter (operationIsApplied assumedAppliedOperationId)).insertionSort
    fun a b => a.lineageOrderKey ≤ b.lineageOrderKey

/-- The replay. Every pass but the last projects an operation, so that there is one pass more than
operations. -/
def projectOperations (applied : List ClusterOperationRecord) : Projection :=
  Worklist.loop (projectOperation (applied.map ClusterOperationRecord.id).toFinset) applied
    (applied.length + 1) ⟨fun _ => none, ∅⟩

/-- `projected_view_members`. -/
def projectedViewMembers (activeView : ClusterViewId)
    (assumedAppliedOperationId : Option Uuid) : Option (Finset Uuid) :=
  (projectOperations (appliedOperations operations assumedAppliedOperationId)).views activeView

end Mantissa.Cluster
