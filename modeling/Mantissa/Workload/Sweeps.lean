import Mantissa.Workload.Model
import Mantissa.Workload.Release

/-!
# Sweeps and starts

Two passes keep the scheduler in step with the workload rows. `cleanup_orphaned_slots` frees what
this node has reserved and no row of it mentions; `reconcile_local_slot_reservations` frees what is
reserved for another workload than the rows say, and reserves what they say. Both take a snapshot
first, then read rows, then ask for a change at the version of the snapshot.

A batch start reserves before it stores rows, and gives its reservations back when a later step
fails. This file has the node on which the passes, a start and the operations of other workloads
take their steps in any order.
-/

namespace Mantissa.Workload

open Scheduler

/-! ## What the passes compute -/

/-- `task_requires_slots`. -/
def taskRequiresSlots : WorkloadPhase → Bool
  | .pending => true
  | .pulling => true
  | .creating => true
  | .running => true
  | .paused => true
  | .stopping => true
  | _ => false

/-- `conflict_state_rank`. -/
def conflictStateRank : WorkloadPhase → ℕ
  | .running => 4
  | .paused => 4
  | .creating => 3
  | .pulling => 3
  | .volumeUnavailable => 2
  | .pending => 2
  | .stopping => 1
  | _ => 0

/-- The end of `pick_conflict_task_winner`, which looks at the rows. -/
def higherRanked (current candidate : Uuid) (tasks : BTreeMap Uuid WorkloadValue) : Uuid :=
  match tasks[current]?, tasks[candidate]? with
  | some currentValue, some candidateValue =>
    let currentRank := conflictStateRank currentValue.status.state
    let candidateRank := conflictStateRank candidateValue.status.state
    if currentRank < candidateRank then candidate
    else if candidateRank < currentRank then current
    else min current candidate
  | _, _ => min current candidate

/-- `pick_conflict_task_winner`. -/
def pickConflictTaskWinner (current candidate : Uuid) (tasks : BTreeMap Uuid WorkloadValue)
    (reservedOwner : Option Uuid) : Uuid :=
  match reservedOwner with
  | some owner => if owner = current ∨ owner = candidate then owner
      else higherRanked current candidate tasks
  | none => higherRanked current candidate tasks

section Entries

variable {I D : Type} [LinearOrder I] (node : Uuid) (resources : List (Resource I D))

/-- What this node has reserved. -/
def localReserved : List I :=
  resources.filterMap fun resource =>
    match resource.state with
    | .reserved reservation => if reservation.owner = node then some resource.id else none
    | _ => none

/-- The workload an entry is reserved for by this node. -/
def currentOwner (id : I) : Option Uuid :=
  match stateOf resources id with
  | some (.reserved reservation) => if reservation.owner = node then reservation.taskId else none
  | _ => none

variable (tasks : BTreeMap Uuid WorkloadValue) (reservedOwner : I → Option Uuid)

/-- One id that a row mentions: the workloads that ids should go to so far, and those that lost. -/
def claimId (taskId : Uuid)
    (claims : BTreeMap I Uuid × List Uuid) (id : I) : BTreeMap I Uuid × List Uuid :=
  match claims.1[id]? with
  | none => (claims.1.insert id taskId, claims.2)
  | some existing =>
    if existing = taskId then claims
    else
      let winner := pickConflictTaskWinner existing taskId tasks (reservedOwner id)
      let loser := if winner = existing then taskId else existing
      (claims.1.insert id winner, claims.2 ++ [loser])

/-- All ids of all rows, in the order of the workload ids. -/
def claimAll (ids : WorkloadValue → List I) : BTreeMap I Uuid × List Uuid :=
  tasks.toList.foldl (fun claims task =>
    (ids task.2).foldl (claimId tasks reservedOwner task.1) claims) (∅, [])

/-- What this node has reserved for another workload than it should go to. -/
def misplaced (desired : BTreeMap I Uuid) (resources : List (Resource I D)) : List I :=
  resources.filterMap fun resource =>
    match resource.state with
    | .reserved reservation =>
      if reservation.owner = node then
        if desired[resource.id]?.isSome ∧ reservation.taskId = desired[resource.id]? then none
        else some resource.id
      else none
    | _ => none

/-- Requests for what should be reserved and is free. -/
def missing (desired : BTreeMap I Uuid)
    (resources : List (Resource I D)) : List (ReservationRequest I) :=
  resources.filterMap fun resource =>
    match desired[resource.id]?, resource.state with
    | some taskId, .free =>
      some ⟨resource.id, node, some taskId,
        tasks[taskId]?.bind fun value => value.definition.admissionGroupId⟩
    | _, _ => none

end Entries

variable (node : Uuid) (rows : BTreeMap Uuid WorkloadValue)

/-- `collect_local_slot_ids`. -/
def collectLocalSlotIds : List SlotId :=
  rows.toList.flatMap fun row =>
    if row.2.status.nodeId = node then
      if row.2.definition.slotIds.isEmpty then row.2.definition.slotId.toList
      else row.2.definition.slotIds
    else []

/-- `collect_local_gpu_device_ids`. -/
def collectLocalGpuDeviceIds : List GpuDeviceId :=
  rows.toList.flatMap fun row =>
    if row.2.status.nodeId = node then row.2.definition.gpuDeviceIds else []

/-- The rows of this node that need their slots. -/
def localTasks (groups : BTreeMap Uuid WorkloadAdmissionGroupPhase) : BTreeMap Uuid WorkloadValue :=
  rows.filter fun _ value =>
    decide (value.status.nodeId = node) && taskRequiresSlots value.status.state &&
      (match value.definition.admissionGroupId with
        | none => true
        | some groupId => groups[groupId]?.any WorkloadAdmissionGroupPhase.allowsAdoption) &&
      !value.definition.slotIds.isEmpty

/-- What a round of the reconciliation wants. -/
structure ReconcilePlan where
  tasks : BTreeMap Uuid WorkloadValue
  slots : BTreeMap SlotId Uuid
  gpuDevices : BTreeMap GpuDeviceId Uuid
  losers : List Uuid

variable (snapshot : SchedulerSnapshot)

def reconcilePlan (rows : BTreeMap Uuid WorkloadValue)
    (groups : BTreeMap Uuid WorkloadAdmissionGroupPhase) : ReconcilePlan :=
  let tasks := localTasks node rows groups
  let slots := claimAll tasks (currentOwner node snapshot.slots) fun value =>
      value.definition.slotIds
  let gpuDevices := claimAll tasks (currentOwner node snapshot.gpuDevices) fun value =>
    value.definition.gpuDeviceIds
  ⟨tasks, slots.1, gpuDevices.1, slots.2 ++ gpuDevices.2⟩

/-- What `demote_conflicting_local_tasks` makes of a row, its time stamp apart. -/
def demote (value : WorkloadValue) : WorkloadValue :=
  let spec := valueToSpec value
  let stays := spec.status.state = .stopping ∨ spec.status.state = .stopped ∨
    spec.status.state = .failed
  specToValue
    ⟨if stays then spec.status
      else { spec.status with
        phaseVersion := saturatingAdd spec.status.phaseVersion 1
        state := .stopping
        phaseReason := some "superseded by local slot conflict resolution"
        phaseProgress := none },
      { spec.definition with slotIds := [], slotId := none, gpuDeviceIds := [] }⟩

/-- The rows after the losers have been demoted. -/
def demoteLosers (plan : ReconcilePlan) (rows : BTreeMap Uuid WorkloadValue) :
    BTreeMap Uuid WorkloadValue :=
  (sortedSet plan.losers).foldl (fun rows taskId =>
    match plan.tasks[taskId]? with
    | some value => rows.insert taskId (demote value)
    | none => rows) rows

/-! ## Passes under way -/

inductive SweepKind
  | orphans
  | reconcile
  deriving DecidableEq

inductive SweepPhase
  | reading
  | collecting (snapshot : SchedulerSnapshot)
  | collected (snapshot : SchedulerSnapshot) (activeSlots : List SlotId)
  | reconciling (snapshot : SchedulerSnapshot) (rows : BTreeMap Uuid WorkloadValue)
  | freeing (snapshot : SchedulerSnapshot) (slots : List SlotId) (gpuDeviceIds : List GpuDeviceId)
  | reserving (snapshot : SchedulerSnapshot) (slotRequests : List (ReservationRequest SlotId))
      (gpuRequests : List (ReservationRequest GpuDeviceId))
  | returned

structure Sweep where
  kind : SweepKind
  attempts : ℕ
  phase : SweepPhase

/-- `MAX_ATTEMPTS` of both passes. -/
def sweepAttempts : ℕ := 5

namespace Sweep

variable (sweep : Sweep)

/-- Start over, if there are rounds left. -/
def retry : Sweep :=
  if sweepAttempts ≤ sweep.attempts + 1 then { sweep with phase := .returned }
  else { sweep with attempts := sweep.attempts + 1, phase := .reading }

/-- After the snapshot was taken. The orphan pass has nothing to do when nothing is reserved. -/
def afterRead : Sweep :=
  match sweep.kind with
  | .orphans =>
    if (localReserved node snapshot.slots).isEmpty &&
        (localReserved node snapshot.gpuDevices).isEmpty then { sweep with phase := .returned }
    else { sweep with phase := .collecting snapshot }
  | .reconcile => { sweep with phase := .collecting snapshot }

/-- After the rows were read. -/
def afterRows (rows : BTreeMap Uuid WorkloadValue) (sweep : Sweep) : Sweep :=
  match sweep.kind with
  | .orphans => { sweep with phase := .collected snapshot (collectLocalSlotIds node rows) }
  | .reconcile => { sweep with phase := .reconciling snapshot rows }

/-- The orphan pass has read the rows once more, for the devices. -/
def afterDevices (activeSlots : List SlotId)
    (rows : BTreeMap Uuid WorkloadValue) (sweep : Sweep) : Sweep :=
  let slots := (localReserved node snapshot.slots).filter (· ∉ activeSlots)
  let gpuDeviceIds := (localReserved node snapshot.gpuDevices).filter
    (· ∉ collectLocalGpuDeviceIds node rows)
  if slots.isEmpty && gpuDeviceIds.isEmpty then { sweep with phase := .returned }
  else { sweep with phase := .freeing snapshot slots gpuDeviceIds }

/-- The reconciliation has a plan: first it frees, and only when there is nothing to free it
reserves. -/
def afterPlan (plan : ReconcilePlan) (sweep : Sweep) : Sweep :=
  let releaseSlots := misplaced node plan.slots snapshot.slots
  let releaseGpus := misplaced node plan.gpuDevices snapshot.gpuDevices
  let slotRequests := missing node plan.tasks plan.slots snapshot.slots
  let gpuRequests := missing node plan.tasks plan.gpuDevices snapshot.gpuDevices
  if !releaseSlots.isEmpty || !releaseGpus.isEmpty then
    { sweep with phase := .freeing snapshot releaseSlots releaseGpus }
  else if slotRequests.isEmpty && gpuRequests.isEmpty then { sweep with phase := .returned }
  else { sweep with phase := .reserving snapshot slotRequests gpuRequests }

/-- After `free_resources` has answered. -/
def afterFree : Attempt → Sweep
  | .ok _ =>
    match sweep.kind with
    | .orphans => { sweep with phase := .returned }
    | .reconcile => { sweep with attempts := 0, phase := .reading }
  | .error (.snapshotMismatch ..) => sweep.retry
  | .error (.slotsNotReserved ..) => sweep.retry
  | .error (.gpuDevicesNotReserved ..) => sweep.retry
  | .error (.unknownSlots ..) =>
    if sweep.kind = .reconcile then sweep.retry else { sweep with phase := .returned }
  | .error (.unknownGpuDevices ..) =>
    if sweep.kind = .reconcile then sweep.retry else { sweep with phase := .returned }
  | .error _ => { sweep with phase := .returned }

/-- After `reserve_resources` has answered. -/
def afterReserve : Attempt → Sweep
  | .error (.snapshotMismatch ..) => sweep.retry
  | .error (.slotsUnavailable ..) => sweep.retry
  | .error (.unknownSlots ..) => sweep.retry
  | .error (.gpuDevicesUnavailable ..) => sweep.retry
  | .error (.unknownGpuDevices ..) => sweep.retry
  | _ => { sweep with phase := .returned }

/-- The snapshot a pass works on. -/
def snapshot? : Option SchedulerSnapshot :=
  match sweep.phase with
  | .reading => none
  | .collecting snapshot => some snapshot
  | .collected snapshot _ => some snapshot
  | .reconciling snapshot _ => some snapshot
  | .freeing snapshot _ _ => some snapshot
  | .reserving snapshot _ _ => some snapshot
  | .returned => none

end Sweep

/-! ## A batch start -/

/-- What a start needs of a `BatchStartPlan`: the specification with its slots and devices, and
whether they are reserved already. -/
structure BatchPlan where
  spec : WorkloadSpec
  preassigned : Bool

inductive StartPhase
  | planned
  | reserved
  | failing (calls : List ReleaseCall)
  | stored
  | failed

structure BatchStart where
  plans : List BatchPlan
  expectedVersion : ℕ
  phase : StartPhase

namespace BatchStart

variable (start : BatchStart)

/-- The plans a start reserves for. -/
def reserving : List BatchPlan := start.plans.filter fun plan => !plan.preassigned

def slotRequests : List (ReservationRequest SlotId) :=
  start.reserving.flatMap fun plan => plan.spec.definition.slotIds.map fun slot =>
    ⟨slot, node, some plan.spec.status.id, none⟩

def gpuRequests : List (ReservationRequest GpuDeviceId) :=
  start.reserving.flatMap fun plan => plan.spec.definition.gpuDeviceIds.map fun device =>
    ⟨device, node, some plan.spec.status.id, none⟩

/-- The row that `persist_pending_batch_with_admission` stores for a plan. -/
def pendingRow (plan : BatchPlan) (epoch : ℕ) : WorkloadValue :=
  specToValue
    ⟨{ plan.spec.status with
        state := .pending
        phaseReason := none
        phaseProgress := none
        nodeId := node
        taskEpoch := epoch
        phaseVersion := 0
        launchAttempt := 1
        lastTerminalObservedLaunch := none },
      { plan.spec.definition with
        leaseId := none
        leaseCoordinatorNodeId := none
        admissionGroupId := none
        admissionState := .none }⟩

/-- The remote part failed: `release_local_resources`, for no workload in particular. -/
def releaseReserved : List ReleaseCall :=
  [releaseLocalResources 0 ((start.slotRequests node).map ReservationRequest.id)
    ((start.gpuRequests node).map ReservationRequest.id)]

/-- The rows could not be stored: `cleanup_batch`. -/
def cleanupBatch : List ReleaseCall :=
  start.plans.flatMap fun plan => plan.spec.definition.slotIds.map (releaseSlot plan.spec.status.id)

end BatchStart

/-! ## A node -/

structure StartingNode where
  scheduler : SequentialScheduler
  rows : BTreeMap Uuid WorkloadValue
  groups : BTreeMap Uuid WorkloadAdmissionGroupPhase
  start : Option BatchStart
  sweeps : List Sweep

inductive StartAction
  | operate (op : SchedulerOp) (now : ℕ)
  | setRow (task : Uuid) (row : Option WorkloadValue)
  | setGroup (group : Uuid) (phase : WorkloadAdmissionGroupPhase)
  | begin (plans : List BatchPlan) (expectedVersion : ℕ)
  | reserve (now : ℕ)
  | remoteFailed
  | storeRows (epochs : Uuid → ℕ)
  | storeFailed
  | releaseRead
  | releaseFree (now : ℕ)
  | sweep (kind : SweepKind)
  | sweepStep (sweep now : ℕ)

/-- Other workloads may do anything with the scheduler except free by id. -/
def freesById : SchedulerOp → Bool
  | .free .. => true
  | _ => false

namespace StartingNode

def initial (slots : List (SlotId × SlotCapacity)) (gpuDevices : List (GpuDeviceId × GpuDetails))
    (rows : BTreeMap Uuid WorkloadValue) (groups : BTreeMap Uuid WorkloadAdmissionGroupPhase) :
    StartingNode :=
  ⟨SequentialScheduler.initial slots gpuDevices, rows, groups, none, []⟩

variable (node : StartingNode)

/-- No start is between its first and its last step. -/
def idle : Bool :=
  match node.start with
  | none => true
  | some start =>
    match start.phase with
    | .stored => true
    | .failed => true
    | _ => false

/-- A start is between its reservation and its rows. -/
def inFlight : Bool :=
  match node.start with
  | none => false
  | some start =>
    match start.phase with
    | .reserved => true
    | _ => false

variable (settings : SchedulerSettings) (node : StartingNode)

/-- The scheduler takes a step. -/
def operate (op : SchedulerOp) (now : ℕ) : Option StartingNode :=
  (node.scheduler.step settings (op, now)).map fun scheduler => { node with scheduler }

variable (start : BatchStart)

def setStart (phase : StartPhase) : StartingNode :=
  { node with start := some { start with phase } }

def setSweep (i : ℕ) (sweep : Sweep) : StartingNode :=
  { node with sweeps := node.sweeps.set i sweep }

/-- `reserve_local_resources`. -/
def reserveStep (now : ℕ) : Option StartingNode :=
  let slotRequests := start.slotRequests settings.storeKey
  let gpuRequests := start.gpuRequests settings.storeKey
  match reserveResources now start.expectedVersion slotRequests gpuRequests
      node.scheduler.snapshot with
  | .error _ => some (node.setStart start .failed)
  | .ok _ => (node.operate settings (.reserve start.expectedVersion slotRequests gpuRequests)
      now).map fun node => node.setStart start .reserved

/-- One step of a failing start's first release. -/
def releaseStep
    (call : ReleaseCall) (calls : List ReleaseCall) (now : ℕ) : Option StartingNode :=
  match call.phase with
  | .freeing version =>
    let answer := freeResources now version call.slots call.gpuDeviceIds node.scheduler.snapshot
    (node.operate settings (.free version call.slots call.gpuDeviceIds) now).map fun node =>
      node.setStart start (.failing (call.answered answer :: calls))
  | _ => none

/-- One step of a sweep. -/
def sweepStep (i : ℕ) (sweep : Sweep) (now : ℕ) : Option StartingNode :=
  let snapshot := node.scheduler.snapshot
  let key := settings.storeKey
  match sweep.phase with
  | .reading => some (node.setSweep i (sweep.afterRead key snapshot))
  | .collecting seen => some (node.setSweep i (sweep.afterRows key seen node.rows))
  | .collected seen activeSlots =>
    some (node.setSweep i (sweep.afterDevices key seen activeSlots node.rows))
  | .reconciling seen rows =>
    let plan := reconcilePlan key seen rows node.groups
    some { node.setSweep i (sweep.afterPlan key seen plan) with
      rows := demoteLosers plan node.rows }
  | .freeing seen slots gpuDeviceIds =>
    (node.operate settings (.free seen.version slots gpuDeviceIds) now).map fun node =>
      node.setSweep i (sweep.afterFree (freeResources now seen.version slots gpuDeviceIds snapshot))
  | .reserving seen slotRequests gpuRequests =>
    (node.operate settings (.reserve seen.version slotRequests gpuRequests) now).map fun node =>
      node.setSweep i (sweep.afterReserve
        (reserveResources now seen.version slotRequests gpuRequests snapshot))
  | .returned => none

/-- One step of the node. -/
def step : StartAction → Option StartingNode
  | .operate op now => if freesById op then none else node.operate settings op now
  | .setRow task row => some { node with
      rows := match row with
        | some value => node.rows.insert task value
        | none => node.rows.erase task }
  | .setGroup group phase => some { node with groups := node.groups.insert group phase }
  | .begin plans expectedVersion =>
    if node.idle then some { node with start := some ⟨plans, expectedVersion, .planned⟩ } else none
  | .reserve now =>
    match node.start with
    | some ⟨plans, expectedVersion, .planned⟩ =>
      node.reserveStep settings ⟨plans, expectedVersion, .planned⟩ now
    | _ => none
  | .remoteFailed =>
    match node.start with
    | some ⟨plans, expectedVersion, .reserved⟩ =>
      let start : BatchStart := ⟨plans, expectedVersion, .reserved⟩
      some (node.setStart start (.failing (start.releaseReserved settings.storeKey)))
    | _ => none
  | .storeRows epochs =>
    match node.start with
    | some ⟨plans, expectedVersion, .reserved⟩ =>
      some { node.setStart ⟨plans, expectedVersion, .reserved⟩ .stored with
        rows := plans.foldl (fun rows plan => rows.insert plan.spec.status.id
          (BatchStart.pendingRow settings.storeKey plan (epochs plan.spec.status.id))) node.rows }
    | _ => none
  | .storeFailed =>
    match node.start with
    | some ⟨plans, expectedVersion, .reserved⟩ =>
      let start : BatchStart := ⟨plans, expectedVersion, .reserved⟩
      some (node.setStart start (.failing start.cleanupBatch))
    | _ => none
  | .releaseRead =>
    match node.start with
    | some ⟨plans, expectedVersion, .failing []⟩ =>
      some (node.setStart ⟨plans, expectedVersion, .failing []⟩ .failed)
    | some ⟨plans, expectedVersion, .failing (call :: calls)⟩ =>
      let start : BatchStart := ⟨plans, expectedVersion, .failing (call :: calls)⟩
      match call.phase with
      | .reading =>
        let reading := { call with phase := .freeing node.scheduler.snapshot.version }
        some (node.setStart start (.failing (reading :: calls)))
      | .returned _ => some (node.setStart start (.failing calls))
      | .freeing _ => none
    | _ => none
  | .releaseFree now =>
    match node.start with
    | some ⟨plans, expectedVersion, .failing (call :: calls)⟩ =>
      node.releaseStep settings ⟨plans, expectedVersion, .failing (call :: calls)⟩ call calls now
    | _ => none
  | .sweep kind => some { node with sweeps := node.sweeps ++ [⟨kind, 0, .reading⟩] }
  | .sweepStep i now =>
    match node.sweeps[i]? with
    | some sweep => node.sweepStep settings i sweep now
    | none => none

/-- A sweep takes a snapshot only while no start is between its reservation and its rows. -/
def readsOutside : StartAction → Bool
  | .sweepStep i _ =>
    match node.sweeps[i]? with
    | some ⟨_, _, .reading⟩ => !node.inFlight
    | _ => true
  | _ => true

end StartingNode

end Mantissa.Workload
