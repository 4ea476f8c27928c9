import Mantissa.Scheduler.Snapshot

/-!
# Scheduler operations

Every operation looks at one snapshot and either refuses, or has nothing to change, or builds the
next snapshot; what it does with the next snapshot (publish it, write it, take it back) is the same
for all of them and is not part of this file. `SchedulerOp.attempt` is one round of that loop. The
clock is an argument, and so are the lease ids an attempt draws: `leaseIds i` is drawn for the
`i`-th intent.

Operations that look for capacity first clear leases that have run out, whoever holds them.
-/

namespace Mantissa.Scheduler

/-- `SlotReservationRequest` and `GpuReservationRequest`. -/
structure ReservationRequest (I : Type) where
  id : I
  owner : Uuid
  taskId : Option Uuid
  groupId : Option Uuid
  deriving DecidableEq

/-- `TaskLeaseIntent`. -/
structure TaskLeaseIntent where
  taskId : Uuid
  cpuMillis : ℕ
  memoryBytes : ℕ
  gpuCount : ℕ

/-- `ExactTaskLeaseIntent`. -/
structure ExactTaskLeaseIntent where
  taskId : Uuid
  slotIds : List SlotId
  gpuDeviceIds : List GpuDeviceId

/-- `PreparedTaskLease`. -/
structure PreparedTaskLease where
  leaseId : Uuid
  taskId : Uuid
  expiresAtUnixMs : ℕ
  slotIds : List SlotId
  gpuDeviceIds : List GpuDeviceId
  deriving DecidableEq

/-- `AbortTaskLeaseIntent`. -/
structure AbortTaskLeaseIntent where
  leaseId : Uuid
  taskId : Uuid

/-- `SchedulerError`, of a scheduler that has been initialized. -/
inductive SchedulerError
  | store
  | snapshotMismatch (expectedVersion currentVersion : ℕ) (snapshot : SchedulerSnapshot)
  | duplicateSlots (duplicates : List SlotId) (snapshot : SchedulerSnapshot)
  | duplicateGpuDevices (duplicates : List GpuDeviceId) (snapshot : SchedulerSnapshot)
  | unknownSlots (unknown : List SlotId) (snapshot : SchedulerSnapshot)
  | unknownGpuDevices (unknown : List GpuDeviceId) (snapshot : SchedulerSnapshot)
  | slotsUnavailable (conflicts : List SlotId) (snapshot : SchedulerSnapshot)
  | gpuDevicesUnavailable (conflicts : List GpuDeviceId) (snapshot : SchedulerSnapshot)
  | insufficientResources (taskIds : List Uuid) (snapshot : SchedulerSnapshot)
  | unknownLeases (leaseIds : List Uuid) (snapshot : SchedulerSnapshot)
  | expiredLeases (leaseIds : List Uuid) (snapshot : SchedulerSnapshot)
  | leaseMismatch (leaseId : Uuid) (snapshot : SchedulerSnapshot)
  | unknownLeaseGroup (groupId : Uuid) (snapshot : SchedulerSnapshot)
  | leaseGroupMismatch (groupId : Uuid) (snapshot : SchedulerSnapshot)
  | slotsNotReserved (slots : List SlotId) (snapshot : SchedulerSnapshot)
  | gpuDevicesNotReserved (devices : List GpuDeviceId) (snapshot : SchedulerSnapshot)
  | snapshotVersionOverflow (snapshot : SchedulerSnapshot)
  deriving DecidableEq

/-- What an operation returns when it does not fail. -/
inductive SchedulerResponse
  | snapshot (snapshot : SchedulerSnapshot)
  | leases (leases : List PreparedTaskLease)
  | expired (leaseIds : List Uuid)
  deriving DecidableEq

/-- An operation returns at once, or has a snapshot to publish first. -/
inductive Decision
  | keep (response : SchedulerResponse)
  | publish (next : SchedulerSnapshot) (response : SchedulerResponse)
  deriving DecidableEq

abbrev Attempt := Except SchedulerError Decision

/-- A condition that has to hold, or else an error. -/
def require (condition : Prop) [Decidable condition] (error : SchedulerError) :
    Except SchedulerError Unit :=
  if condition then .ok () else .error error

@[simp] lemma require_eq_ok {condition : Prop} [Decidable condition] {error : SchedulerError}
    {result : Unit} : require condition error = .ok result ↔ condition := by
  simp only [require]
  split_ifs with h <;> simp [h]

lemma bind_eq_ok {α β : Type} {x : Except SchedulerError α} {f : α → Except SchedulerError β}
    {b : β} : (x >>= f) = .ok b ↔ ∃ a, x = .ok a ∧ f a = .ok b := by
  cases x <;> simp [bind, Except.bind]

/-- `next_snapshot_version`, and the snapshot with that version. -/
def nextSnapshot (snapshot : SchedulerSnapshot) : Except SchedulerError SchedulerSnapshot :=
  match checkedAdd snapshot.version 1 with
  | some version => .ok { snapshot with version }
  | none => .error (.snapshotVersionOverflow snapshot)

/-- Give out the next snapshot. -/
def publishNext (snapshot : SchedulerSnapshot)
    (response : SchedulerSnapshot → SchedulerResponse) : Attempt := do
  let next ← nextSnapshot snapshot
  pure (.publish next (response next))

/-- `clear_expired_leases`: what it leaves, and the leases it released. -/
def clearExpiredLeases (now : ℕ) (snapshot : SchedulerSnapshot) : SchedulerSnapshot × List Uuid :=
  ({ snapshot with
      slots := mapStates (ResourceState.clearExpired now) snapshot.slots
      gpuDevices := mapStates (ResourceState.clearExpired now) snapshot.gpuDevices },
    sortedSet (((leases snapshot).filter fun lease =>
      decide (lease.expiresAtUnixMs ≤ now)).map LeaseReservation.leaseId))

/-- `clear_prepared_lease_group`. -/
def clearPreparedLeaseGroup (groupId : Uuid) (snapshot : SchedulerSnapshot) : SchedulerSnapshot :=
  { snapshot with
    slots := mapStates (ResourceState.clearGroup groupId) snapshot.slots
    gpuDevices := mapStates (ResourceState.clearGroup groupId) snapshot.gpuDevices }

/-! ## Checks of named resources -/

section Checks

variable {I D : Type} [LinearOrder I]

def duplicates (ids : List I) : List I := sortedSet (ids.filter fun id => decide (2 ≤ ids.count id))

variable (resources : List (Resource I D))

def unknown (ids : List I) : List I :=
  sortedSet (ids.filter fun id => (buildIndex resources)[id]?.isNone)

/-- Ids whose entries are taken. -/
def unavailable (ids : List I) : List I :=
  sortedSet (ids.filter fun id => (stateOf resources id).any fun state => decide (state ≠ .free))

/-- Ids whose entries are free. -/
def notReserved (ids : List I) : List I :=
  sortedSet (ids.filter fun id => (stateOf resources id).any fun state => decide (state = .free))

end Checks

variable (cleared current : SchedulerSnapshot)

/-- The checks of `reserve_resources` and of `prepare_exact_task_lease_group`: every id once, known
and free, slots first. -/
def checkFree (slotIds : List SlotId)
    (gpuDeviceIds : List GpuDeviceId) : Except SchedulerError Unit := do
  require (duplicates slotIds = []) (.duplicateSlots (duplicates slotIds) current)
  require (unknown cleared.slots slotIds = [])
    (.unknownSlots (unknown cleared.slots slotIds) current)
  require (unavailable cleared.slots slotIds = [])
    (.slotsUnavailable (unavailable cleared.slots slotIds) current)
  require (duplicates gpuDeviceIds = []) (.duplicateGpuDevices (duplicates gpuDeviceIds) current)
  require (unknown cleared.gpuDevices gpuDeviceIds = [])
    (.unknownGpuDevices (unknown cleared.gpuDevices gpuDeviceIds) current)
  require (unavailable cleared.gpuDevices gpuDeviceIds = [])
    (.gpuDevicesUnavailable (unavailable cleared.gpuDevices gpuDeviceIds) current)

/-- The checks of `free_resources`: every id known and taken, slots first. -/
def checkTaken (slotIds : List SlotId)
    (gpuDeviceIds : List GpuDeviceId) : Except SchedulerError Unit := do
  require (unknown cleared.slots slotIds = [])
    (.unknownSlots (unknown cleared.slots slotIds) current)
  require (notReserved cleared.slots slotIds = [])
    (.slotsNotReserved (notReserved cleared.slots slotIds) current)
  require (unknown cleared.gpuDevices gpuDeviceIds = [])
    (.unknownGpuDevices (unknown cleared.gpuDevices gpuDeviceIds) current)
  require (notReserved cleared.gpuDevices gpuDeviceIds = [])
    (.gpuDevicesNotReserved (notReserved cleared.gpuDevices gpuDeviceIds) current)

/-- The caller's version has to be the current one. -/
def checkVersion (expectedVersion : ℕ) (current : SchedulerSnapshot) : Except SchedulerError Unit :=
  require (current.version = expectedVersion)
    (.snapshotMismatch expectedVersion current.version current)

/-! ## Reserving and freeing -/

variable {I D : Type}

/-- One entry for each request. -/
def reserveAll [LinearOrder I] (requests : List (ReservationRequest I))
    (resources : List (Resource I D)) : List (Resource I D) :=
  requests.foldl (fun resources request => setState resources request.id
    (.reserved ⟨request.owner, request.taskId, request.groupId⟩)) resources

/-- Free the entries under some ids. -/
def freeAll [LinearOrder I] (ids : List I) (resources : List (Resource I D)) :
    List (Resource I D) :=
  ids.foldl (fun resources id => setState resources id .free) resources

/-- `reserve_resources`. -/
def reserveResources (now expectedVersion : ℕ) (slotRequests : List (ReservationRequest SlotId))
    (gpuRequests : List (ReservationRequest GpuDeviceId)) (current : SchedulerSnapshot) : Attempt :=
  if slotRequests.isEmpty && gpuRequests.isEmpty then .ok (.keep (.snapshot current))
  else do
    checkVersion expectedVersion current
    let cleared := (clearExpiredLeases now current).1
    checkFree cleared current (slotRequests.map ReservationRequest.id)
      (gpuRequests.map ReservationRequest.id)
    publishNext { cleared with
      slots := reserveAll slotRequests cleared.slots
      gpuDevices := reserveAll gpuRequests cleared.gpuDevices } .snapshot

/-- `free_resources`. -/
def freeResources (now expectedVersion : ℕ) (slots : List SlotId)
    (gpuDeviceIds : List GpuDeviceId) (current : SchedulerSnapshot) : Attempt :=
  if slots.isEmpty && gpuDeviceIds.isEmpty then .ok (.keep (.snapshot current))
  else do
    checkVersion expectedVersion current
    let cleared := (clearExpiredLeases now current).1
    checkTaken cleared current slots gpuDeviceIds
    publishNext { cleared with
      slots := freeAll (sortedSet slots) cleared.slots
      gpuDevices := freeAll (sortedSet gpuDeviceIds) cleared.gpuDevices } .snapshot

/-! ## Preparing leases -/

variable (lease : LeaseReservation)

/-- Lease the entries under some ids. -/
def leaseAll [LinearOrder I] (ids : List I)
    (resources : List (Resource I D)) : List (Resource I D) :=
  ids.foldl (fun resources id => setState resources id (.leased lease)) resources

/-- The lease of an exact intent. -/
def exactLease (now coordinatorNodeId groupId ttlMs : ℕ) (leaseIds : ℕ → Uuid)
    (intent : ExactTaskLeaseIntent) (i : ℕ) : LeaseReservation :=
  ⟨leaseIds i, coordinatorNodeId, intent.taskId, saturatingAdd now ttlMs, some groupId⟩

/-- One round of the loop over exact intents. -/
def leaseExact (intent : ExactTaskLeaseIntent)
    (snapshot : SchedulerSnapshot) : SchedulerSnapshot :=
  { snapshot with
    slots := leaseAll lease (intent.slotIds.insertionSort (· ≤ ·)) snapshot.slots
    gpuDevices := leaseAll lease (intent.gpuDeviceIds.insertionSort (· ≤ ·)) snapshot.gpuDevices }

variable (now : ℕ)

/-- `prepare_exact_task_lease_group`. -/
def prepareExactTaskLeaseGroup (leaseIds : ℕ → Uuid)
    (expectedVersion coordinatorNodeId groupId ttlMs : ℕ) (intents : List ExactTaskLeaseIntent)
    (current : SchedulerSnapshot) : Attempt :=
  if intents.isEmpty then .ok (.keep (.leases []))
  else do
    checkVersion expectedVersion current
    let cleared := clearPreparedLeaseGroup groupId (clearExpiredLeases now current).1
    checkFree cleared current (intents.flatMap ExactTaskLeaseIntent.slotIds)
      (intents.flatMap ExactTaskLeaseIntent.gpuDeviceIds)
    let lease := exactLease now coordinatorNodeId groupId ttlMs leaseIds
    publishNext (intents.zipIdx.foldl (fun snapshot entry =>
        leaseExact (lease entry.1 entry.2) entry.1 snapshot) cleared) fun _ =>
      .leases (intents.zipIdx.map fun entry =>
        ⟨leaseIds entry.2, entry.1.taskId, saturatingAdd now ttlMs,
          entry.1.slotIds.insertionSort (· ≤ ·), entry.1.gpuDeviceIds.insertionSort (· ≤ ·)⟩)

/-- `free_slot_indices` and `free_gpu_indices`. -/
def freeIndices (resources : List (Resource I D)) : List ℕ :=
  (resources.zipIdx.filter fun entry => decide (entry.1.state = .free)).map Prod.snd

/-- What a slot contributes to a request; CPU first. -/
def slotScore (capacity : SlotCapacity) (cpuMillis memoryBytes : ℕ) : ℕ :=
  min capacity.cpuMillis cpuMillis * 2 ^ 64 + min capacity.memoryBytes memoryBytes

variable (slots : List (Resource SlotId SlotCapacity))

/-- The first candidate with the best positive score: its place among the candidates and its index.
-/
def bestCandidate (candidates : List ℕ)
    (cpuMillis memoryBytes : ℕ) : Option (ℕ × ℕ) :=
  (candidates.zipIdx.foldl (fun best entry =>
    match slots[entry.1]? with
    | none => best
    | some slot =>
      let score := slotScore slot.details cpuMillis memoryBytes
      if best.2 < score then (some (entry.2, entry.1), score) else best)
    ((none, 0) : Option (ℕ × ℕ) × ℕ)).1

/-- The loop of `select_slot_indices`. Every round uses up a candidate, so there is one round more
than candidates. -/
def selectSlots (slots : List (Resource SlotId SlotCapacity)) : ℕ → List ℕ → ℕ → ℕ → Option (List ℕ)
  | 0, _, _, _ => none
  | rounds + 1, candidates, cpuMillis, memoryBytes =>
    if cpuMillis = 0 ∧ memoryBytes = 0 then some []
    else
      match bestCandidate slots candidates cpuMillis memoryBytes with
      | none => none
      | some (place, index) =>
        match slots[index]? with
        | none => none
        | some slot => (selectSlots slots rounds (candidates.eraseIdx place)
            (cpuMillis - slot.details.cpuMillis)
            (memoryBytes - slot.details.memoryBytes)).map (index :: ·)

/-- `select_slot_indices`. -/
def selectSlotIndices (available : List ℕ)
    (cpuMillis memoryBytes : ℕ) : Option (List ℕ) :=
  if available.isEmpty then none
  else if cpuMillis = 0 ∨ memoryBytes = 0 then none
  else selectSlots slots (available.length + 1) available cpuMillis memoryBytes

/-- `select_gpu_indices`. -/
def selectGpuIndices (available : List ℕ) (gpuCount : ℕ) : Option (List ℕ) :=
  if gpuCount = 0 then some []
  else if available.length < gpuCount then none
  else some (available.take gpuCount)

/-- Lease the entries at some positions. -/
def leaseAt (positions : List ℕ)
    (resources : List (Resource I D)) : List (Resource I D) :=
  positions.foldl (fun resources position => setAt resources position (.leased lease)) resources

/-- The ids at some positions, sorted. -/
def idsAt [LinearOrder I] (positions : List ℕ) (resources : List (Resource I D)) : List I :=
  (positions.filterMap fun position => resources[position]?.map Resource.id).insertionSort (· ≤ ·)

/-- Where the loop over intents stands. -/
structure Preparing where
  snapshot : SchedulerSnapshot
  freeSlots : List ℕ
  freeGpus : List ℕ
  leases : List PreparedTaskLease

/-- One round of the loop over intents. `remove_selected_indices` walks two sorted lists. -/
def prepareIntent (intent : TaskLeaseIntent) (preparing : Preparing) :
    Option Preparing :=
  match selectSlotIndices preparing.snapshot.slots preparing.freeSlots intent.cpuMillis
      intent.memoryBytes, selectGpuIndices preparing.freeGpus intent.gpuCount with
  | some slotIndices, some gpuIndices => some
      { snapshot := { preparing.snapshot with
          slots := leaseAt lease slotIndices preparing.snapshot.slots
          gpuDevices := leaseAt lease gpuIndices preparing.snapshot.gpuDevices }
        freeSlots := preparing.freeSlots.filter (· ∉ slotIndices)
        freeGpus := preparing.freeGpus.filter (· ∉ gpuIndices)
        leases := preparing.leases ++ [⟨lease.leaseId, intent.taskId, lease.expiresAtUnixMs,
          idsAt slotIndices preparing.snapshot.slots,
          idsAt gpuIndices preparing.snapshot.gpuDevices⟩] }
  | _, _ => none

/-- The lease of an intent. -/
def intentLease (now coordinatorNodeId : ℕ) (groupId : Option Uuid) (ttlMs : ℕ)
    (leaseIds : ℕ → Uuid) (intent : TaskLeaseIntent) (i : ℕ) : LeaseReservation :=
  ⟨leaseIds i, coordinatorNodeId, intent.taskId, saturatingAdd now ttlMs, groupId⟩

/-- The loop over intents, which stops at the first that does not fit. -/
def prepareIntents (lease : TaskLeaseIntent → ℕ → LeaseReservation) (current : SchedulerSnapshot) :
    List (TaskLeaseIntent × ℕ) → Preparing → Except SchedulerError Preparing
  | [], preparing => .ok preparing
  | (intent, i) :: intents, preparing =>
    match prepareIntent (lease intent i) intent preparing with
    | none => .error (.insufficientResources [intent.taskId] current)
    | some preparing => prepareIntents lease current intents preparing

/-- What a prepare starts from. -/
def clearedFor (groupId : Option Uuid) (current : SchedulerSnapshot) :
    SchedulerSnapshot :=
  match groupId with
  | some groupId => clearPreparedLeaseGroup groupId (clearExpiredLeases now current).1
  | none => (clearExpiredLeases now current).1

/-- `prepare_task_leases_with_group`. -/
def prepareTaskLeases (leaseIds : ℕ → Uuid) (coordinatorNodeId : Uuid)
    (groupId : Option Uuid) (ttlMs : ℕ) (intents : List TaskLeaseIntent)
    (current : SchedulerSnapshot) : Attempt :=
  if intents.isEmpty then .ok (.keep (.leases []))
  else do
    let cleared := clearedFor now groupId current
    let prepared ← prepareIntents (intentLease now coordinatorNodeId groupId ttlMs leaseIds) current
      intents.zipIdx ⟨cleared, freeIndices cleared.slots, freeIndices cleared.gpuDevices, []⟩
    publishNext prepared.snapshot fun _ => .leases prepared.leases

/-! ## Committing -/

/-- Turn the entries under some ids into a reservation. -/
def commitAll {I D : Type} [LinearOrder I] (reservation : Reservation) (ids : List I)
    (resources : List (Resource I D)) : List (Resource I D) :=
  ids.foldl (fun resources id => setState resources id (.reserved reservation)) resources

/-- Turn a lease into a reservation of this node. -/
def commitAllocation (storeKey : Uuid) (groupId : Option Uuid) (allocation : LeaseAllocation)
    (snapshot : SchedulerSnapshot) : SchedulerSnapshot :=
  let reservation : Reservation := ⟨storeKey, some allocation.taskId, groupId⟩
  { snapshot with
    slots := commitAll reservation allocation.slotIds snapshot.slots
    gpuDevices := commitAll reservation allocation.gpuDeviceIds snapshot.gpuDevices }

/-- `commit_task_lease`. -/
def commitTaskLease (storeKey now leaseId coordinatorNodeId taskId : ℕ)
    (expectedSlotIds : List SlotId) (expectedGpuDeviceIds : List GpuDeviceId)
    (current : SchedulerSnapshot) : Attempt :=
  match leaseIndex current leaseId with
  | none => .error (.unknownLeases [leaseId] current)
  | some allocation => do
      require (now < allocation.expiresAtUnixMs) (.expiredLeases [leaseId] current)
      match allocation.groupId with
      | some groupId => .error (.leaseGroupMismatch groupId current)
      | none => do
          require (allocation.coordinatorNodeId = coordinatorNodeId ∧ allocation.taskId = taskId ∧
              allocation.slotIds = expectedSlotIds.insertionSort (· ≤ ·) ∧
              allocation.gpuDeviceIds = expectedGpuDeviceIds.insertionSort (· ≤ ·))
            (.leaseMismatch leaseId current)
          publishNext (commitAllocation storeKey none allocation current) .snapshot

variable (current : SchedulerSnapshot)

/-- The leases of a group, by id. -/
def groupLeaseIds (groupId : Uuid) : List Uuid :=
  (leaseIds current).filter fun leaseId =>
    (leaseIndex current leaseId).any fun allocation => decide (allocation.groupId = some groupId)

/-- The allocations of some leases. -/
def allocationsOf (leaseIds : List Uuid) :
    List (Uuid × LeaseAllocation) :=
  leaseIds.filterMap fun leaseId =>
    (leaseIndex current leaseId).map fun allocation => (leaseId, allocation)

/-- A stored lease is the one that was prepared. -/
def matchesPrepared (prepared : List PreparedTaskLease) (entry : Uuid × LeaseAllocation) : Bool :=
  (prepared.find? fun lease => decide (lease.leaseId = entry.1)).any fun expected =>
    decide (entry.2.taskId = expected.taskId ∧
      entry.2.slotIds = expected.slotIds.insertionSort (· ≤ ·) ∧
      entry.2.gpuDeviceIds = expected.gpuDeviceIds.insertionSort (· ≤ ·))

/-- `commit_task_lease_group`. -/
def commitTaskLeaseGroup (storeKey now groupId coordinatorNodeId : ℕ)
    (prepared : List PreparedTaskLease) (current : SchedulerSnapshot) : Attempt := do
  let mismatch := SchedulerError.leaseGroupMismatch groupId current
  require (prepared.map PreparedTaskLease.leaseId).Nodup mismatch
  let actual := groupLeaseIds current groupId
  require (actual ≠ []) (.unknownLeaseGroup groupId current)
  require (actual = sortedSet (prepared.map PreparedTaskLease.leaseId)) mismatch
  let allocations := allocationsOf current actual
  require (∀ entry ∈ allocations, entry.2.coordinatorNodeId = coordinatorNodeId) mismatch
  let expired := (allocations.filter fun entry =>
      decide (entry.2.expiresAtUnixMs ≤ now)).map Prod.fst
  require (expired = []) (.expiredLeases expired current)
  match allocations.find? fun entry => !matchesPrepared prepared entry with
  | some entry => .error (.leaseMismatch entry.1 current)
  | none => publishNext (allocations.foldl (fun snapshot entry =>
    commitAllocation storeKey (some groupId) entry.2 snapshot) current) .snapshot

/-! ## Aborting -/

/-- Free the entries under some ids that are still leased under a lease id. -/
def releaseAll {I D : Type} [LinearOrder I] (leaseId : Uuid) (ids : List I)
    (resources : List (Resource I D)) : List (Resource I D) :=
  ids.foldl (fun resources id =>
    if (stateOf resources id).any fun state =>
        state.lease?.any fun lease => decide (lease.leaseId = leaseId) then
      setState resources id .free
    else resources) resources

/-- Free what an allocation holds. -/
def releaseAllocation (leaseId : Uuid) (allocation : LeaseAllocation)
    (snapshot : SchedulerSnapshot) : SchedulerSnapshot :=
  { snapshot with
    slots := releaseAll leaseId allocation.slotIds snapshot.slots
    gpuDevices := releaseAll leaseId allocation.gpuDeviceIds snapshot.gpuDevices }

/-- Publish what an abort left, if that is a change: it only ever frees entries. -/
def publishChanged (current released : SchedulerSnapshot) : Attempt :=
  if released = current then .ok (.keep (.snapshot current)) else publishNext released .snapshot

/-- One round of the loop over abort intents, which looks leases up in the current snapshot. -/
def abortIntent (coordinatorNodeId : Uuid) (current snapshot : SchedulerSnapshot)
    (intent : AbortTaskLeaseIntent) : SchedulerSnapshot :=
  match leaseIndex current intent.leaseId with
  | none => snapshot
  | some allocation =>
    if allocation.coordinatorNodeId = coordinatorNodeId ∧ allocation.taskId = intent.taskId then
      releaseAllocation intent.leaseId allocation snapshot
    else snapshot

/-- `abort_task_leases`. -/
def abortTaskLeases (coordinatorNodeId : Uuid) (intents : List AbortTaskLeaseIntent)
    (current : SchedulerSnapshot) : Attempt :=
  if intents.isEmpty then .ok (.keep (.snapshot current))
  else publishChanged current (intents.foldl (abortIntent coordinatorNodeId current) current)

/-- Free a reservation of this node for a group. -/
def ResourceState.clearReservedGroup (owner groupId : Uuid) : ResourceState → ResourceState
  | .reserved reservation =>
    if reservation.owner = owner ∧ reservation.groupId = some groupId then .free
    else .reserved reservation
  | state => state

/-- `abort_task_lease_group`. -/
def abortTaskLeaseGroup (storeKey coordinatorNodeId groupId : Uuid) (current : SchedulerSnapshot) :
    Attempt :=
  let aborted := (allocationsOf current (leaseIds current)).filter fun entry =>
    decide (entry.2.groupId = some groupId ∧ entry.2.coordinatorNodeId = coordinatorNodeId)
  let released := aborted.foldl (fun snapshot entry =>
    releaseAllocation entry.1 entry.2 snapshot) current
  publishChanged current { released with
    slots := mapStates (ResourceState.clearReservedGroup storeKey groupId) released.slots
    gpuDevices := mapStates (ResourceState.clearReservedGroup storeKey groupId)
      released.gpuDevices }

/-- `reap_expired_leases`. -/
def reapExpiredLeases : Attempt :=
  let cleared := clearExpiredLeases now current
  if cleared.2.isEmpty then .ok (.keep (.expired []))
  else publishNext cleared.1 fun _ => .expired cleared.2

/-! ## All operations -/

/-- The operations on an initialized scheduler. -/
inductive SchedulerOp
  | reserve (expectedVersion : ℕ) (slotRequests : List (ReservationRequest SlotId))
      (gpuRequests : List (ReservationRequest GpuDeviceId))
  | free (expectedVersion : ℕ) (slots : List SlotId) (gpuDeviceIds : List GpuDeviceId)
  | prepareExact (expectedVersion : ℕ) (coordinatorNodeId groupId : Uuid) (ttlMs : ℕ)
      (intents : List ExactTaskLeaseIntent)
  | prepare (coordinatorNodeId : Uuid) (groupId : Option Uuid) (ttlMs : ℕ)
      (intents : List TaskLeaseIntent)
  | commit (leaseId coordinatorNodeId taskId : Uuid) (expectedSlotIds : List SlotId)
      (expectedGpuDeviceIds : List GpuDeviceId)
  | commitGroup (groupId coordinatorNodeId : Uuid) (prepared : List PreparedTaskLease)
  | abort (coordinatorNodeId : Uuid) (intents : List AbortTaskLeaseIntent)
  | abortGroup (coordinatorNodeId groupId : Uuid)
  | reap

/-- One round of an operation's loop, on the snapshot it has loaded. -/
def SchedulerOp.attempt (storeKey now : ℕ) (leaseIds : ℕ → Uuid) (current : SchedulerSnapshot) :
    SchedulerOp → Attempt
  | .reserve expectedVersion slotRequests gpuRequests =>
    reserveResources now expectedVersion slotRequests gpuRequests current
  | .free expectedVersion slots gpuDeviceIds =>
    freeResources now expectedVersion slots gpuDeviceIds current
  | .prepareExact expectedVersion coordinatorNodeId groupId ttlMs intents =>
    prepareExactTaskLeaseGroup now leaseIds expectedVersion coordinatorNodeId groupId ttlMs intents
      current
  | .prepare coordinatorNodeId groupId ttlMs intents =>
    prepareTaskLeases now leaseIds coordinatorNodeId groupId ttlMs intents current
  | .commit leaseId coordinatorNodeId taskId expectedSlotIds expectedGpuDeviceIds =>
    commitTaskLease storeKey now leaseId coordinatorNodeId taskId expectedSlotIds
      expectedGpuDeviceIds current
  | .commitGroup groupId coordinatorNodeId prepared =>
    commitTaskLeaseGroup storeKey now groupId coordinatorNodeId prepared current
  | .abort coordinatorNodeId intents => abortTaskLeases coordinatorNodeId intents current
  | .abortGroup coordinatorNodeId groupId =>
    abortTaskLeaseGroup storeKey coordinatorNodeId groupId current
  | .reap => reapExpiredLeases now current

/-! ## Initialization -/

/-- Entries in id order, the first of each id, all free. -/
def materialize {I D : Type} [LinearOrder I] (specs : List (I × D)) : List (Resource I D) :=
  ((specs.insertionSort fun a b => a.1 ≤ b.1).destutter fun a b => a.1 ≠ b.1).map fun spec =>
    ⟨spec.1, spec.2, .free⟩

/-- `init_resources`. -/
def initResources (slots : List (SlotId × SlotCapacity))
    (gpuDevices : List (GpuDeviceId × GpuDetails)) : SchedulerSnapshot :=
  ⟨0, materialize slots, materialize gpuDevices⟩

end Mantissa.Scheduler
