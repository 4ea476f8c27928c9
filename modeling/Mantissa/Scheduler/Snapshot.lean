import Mantissa.Core.Machine
import Mantissa.Core.OrderedMap

/-!
# Scheduler snapshots

A node's scheduler keeps one snapshot: a vector of slots and a vector of GPU devices, each entry
free, leased for a while, or reserved. Slots and devices differ in their ids and in what describes
them, and are handled alike, so both are a `Resource`.

Entries are looked up by an index from ids to positions, and everything here is stated per entry:
`Moved` relates two vectors entry by entry, and says of each what became of its state.
-/

namespace Mantissa

open List

/-- A UUID, as its 128-bit number. -/
abbrev Uuid := ℕ

namespace Scheduler

abbrev SlotId := ℕ
abbrev GpuDeviceId := String

/-- `LeaseReservation`. -/
structure LeaseReservation where
  leaseId : Uuid
  coordinatorNodeId : Uuid
  taskId : Uuid
  expiresAtUnixMs : ℕ
  groupId : Option Uuid
  deriving DecidableEq

/-- `SlotReservation` and `GpuDeviceReservation`. -/
structure Reservation where
  owner : Uuid
  taskId : Option Uuid
  groupId : Option Uuid
  deriving DecidableEq

/-- `SlotState` and `GpuDeviceState`. -/
inductive ResourceState
  | free
  | leased (lease : LeaseReservation)
  | reserved (reservation : Reservation)
  deriving DecidableEq

/-- `SlotCapacity`. -/
structure SlotCapacity where
  cpuMillis : ℕ
  memoryBytes : ℕ
  gpuCount : ℕ
  deriving DecidableEq

/-- What describes a `GpuDevice`. -/
structure GpuDetails where
  index : ℕ
  uuid : Option String
  pciBusId : Option String
  name : String
  memoryTotalBytes : ℕ
  deriving DecidableEq

/-- `ResourceSlot` and `GpuDevice`: an id, what describes it, and its state. -/
structure Resource (I D : Type) where
  id : I
  details : D
  state : ResourceState
  deriving DecidableEq

/-- `SchedulerSnapshot`. -/
structure SchedulerSnapshot where
  version : ℕ
  slots : List (Resource SlotId SlotCapacity)
  gpuDevices : List (Resource GpuDeviceId GpuDetails)
  deriving DecidableEq

/-! ## Vectors of resources -/

section Vectors

variable {I D : Type} [LinearOrder I] (resources : List (Resource I D))

/-- `build_slot_index` and `build_gpu_index`. -/
def buildIndex : BTreeMap I ℕ :=
  BTreeMap.upsertAll ∅ (resources.zipIdx.map fun entry => (entry.1.id, entry.2))

def setAt (position : ℕ) (state : ResourceState) : List (Resource I D) :=
  resources.modify position fun resource => { resource with state }

/-- The state of the entry that the index finds under an id. -/
def stateOf (id : I) : Option ResourceState :=
  (buildIndex resources)[id]?.bind fun position =>
    resources[position]?.map Resource.state

/-- Put a state into the entry that the index finds under an id. -/
def setState (id : I) (state : ResourceState) : List (Resource I D) :=
  match (buildIndex resources)[id]? with
  | some position => setAt resources position state
  | none => resources

def mapStates (f : ResourceState → ResourceState) (resources : List (Resource I D)) :
    List (Resource I D) :=
  resources.map fun resource => { resource with state := f resource.state }

/-- A `BTreeSet` of some ids, as it is iterated. -/
def sortedSet (ids : List I) : List I := ids.dedup.insertionSort (· ≤ ·)

@[simp] lemma mem_sortedSet {ids : List I} {id : I} : id ∈ sortedSet ids ↔ id ∈ ids := by
  simp [sortedSet]

lemma sortedSet_eq_nil {ids : List I} : sortedSet ids = [] ↔ ids = [] := by
  simp only [eq_nil_iff_forall_not_mem, mem_sortedSet]

end Vectors

/-! ## What becomes of each entry -/

section Moved

variable {I D : Type}

/-- The same entries in the same order, each with a state that its old one may become. -/
def Moved (move : I → ResourceState → ResourceState → Prop) :
    List (Resource I D) → List (Resource I D) → Prop :=
  List.Forall₂ fun before after =>
    after.id = before.id ∧ after.details = before.details ∧ move before.id before.state after.state

variable {move move' : I → ResourceState → ResourceState → Prop}
variable {resources resources' resources'' : List (Resource I D)}

lemma Moved.refl (h : ∀ id state, move id state state) : Moved move resources resources := by
  refine forall₂_same.mpr ?_
  intro resource _
  exact ⟨rfl, rfl, h _ _⟩

lemma Moved.mono (h : Moved move resources resources')
    (himp : ∀ id state state', move id state state' → move' id state state') :
    Moved move' resources resources' := by
  refine List.Forall₂.imp ?_ h
  rintro before after ⟨hid, hdetails, hmove⟩
  exact ⟨hid, hdetails, himp _ _ _ hmove⟩

/-- One change after another. -/
lemma Moved.trans {move'' : I → ResourceState → ResourceState → Prop}
    (h : Moved move resources resources') (h' : Moved move' resources' resources'')
    (hcomp : ∀ id s t u, move id s t → move' id t u → move'' id s u) :
    Moved move'' resources resources'' := by
  induction h generalizing resources'' with
  | nil =>
    cases h'
    exact .nil
  | cons hhead _ ih =>
    cases h' with
    | cons hhead' htail' =>
      obtain ⟨hid, hdetails, hmove⟩ := hhead
      obtain ⟨hid', hdetails', hmove'⟩ := hhead'
      rw [hid] at hmove'
      exact .cons ⟨hid'.trans hid, hdetails'.trans hdetails, hcomp _ _ _ _ hmove hmove'⟩ (ih htail')

lemma moved_mapStates (f : ResourceState → ResourceState) :
    Moved (fun _ state state' => state' = f state) resources (mapStates f resources) := by
  refine forall₂_map_right_iff.mpr (forall₂_same.mpr ?_)
  intro resource _
  exact ⟨rfl, rfl, rfl⟩

variable (h : Moved move resources resources')

include h

/-- Ids and descriptions stay, in order. -/
lemma Moved.frame : resources'.map (fun resource => (resource.id, resource.details)) =
      resources.map fun resource => (resource.id, resource.details) := by
  induction h with
  | nil => rfl
  | cons hhead _ ih => simp only [map_cons, hhead.1, hhead.2.1, ih]

lemma Moved.ids : resources'.map Resource.id = resources.map Resource.id := by
  have := congrArg (map Prod.fst) h.frame
  simpa only [map_map, Function.comp_def] using this

/-- The entry that an entry comes from. -/
lemma Moved.exists_before {after : Resource I D} (hmem : after ∈ resources') :
    ∃ before ∈ resources, after.id = before.id ∧ move before.id before.state after.state := by
  induction h with
  | nil => simp at hmem
  | @cons before first _ _ hhead _ ih =>
    rcases mem_cons.mp hmem with rfl | hmem
    · exact ⟨before, mem_cons_self, hhead.1, hhead.2.2⟩
    · obtain ⟨found, hfound, hmove⟩ := ih hmem
      exact ⟨found, mem_cons_of_mem _ hfound, hmove⟩

/-- What an entry becomes. -/
lemma Moved.exists_after {before : Resource I D} (hmem : before ∈ resources) :
    ∃ after ∈ resources', after.id = before.id ∧ move before.id before.state after.state := by
  induction h with
  | nil => simp at hmem
  | @cons first after _ _ hhead _ ih =>
    rcases mem_cons.mp hmem with rfl | hmem
    · exact ⟨after, mem_cons_self, hhead.1, hhead.2.2⟩
    · obtain ⟨found, hfound, hmove⟩ := ih hmem
      exact ⟨found, mem_cons_of_mem _ hfound, hmove⟩

omit h

lemma moved_iff_getElem : Moved move resources resources' ↔
    resources.length = resources'.length ∧ ∀ (i : ℕ) (before after : Resource I D),
      resources[i]? = some before → resources'[i]? = some after →
        after.id = before.id ∧ after.details = before.details ∧
          move before.id before.state after.state := by
  rw [Moved, forall₂_iff_get]
  refine and_congr_right fun hlength => ?_
  constructor
  · intro h i before after hbefore hafter
    obtain ⟨hi, rfl⟩ := List.getElem?_eq_some_iff.mp hbefore
    obtain ⟨hi', rfl⟩ := List.getElem?_eq_some_iff.mp hafter
    exact h i hi hi'
  · intro h i hi hi'
    exact h i _ _ (getElem?_eq_getElem hi) (getElem?_eq_getElem hi')

/-- A state put into the entries at some positions. -/
lemma moved_setAt (resources : List (Resource I D)) (position : ℕ) (state : ResourceState) :
    Moved (fun id before after => after = before ∨
      after = state ∧ ∃ resource, resources[position]? = some resource ∧ resource.id = id ∧
        resource.state = before) resources (setAt resources position state) := by
  refine moved_iff_getElem.mpr ⟨by simp [setAt], ?_⟩
  intro i before after hbefore hafter
  rw [setAt, getElem?_modify, hbefore] at hafter
  simp only [Option.map_eq_map, Option.map_some, Option.some.injEq] at hafter
  subst hafter
  split_ifs with hposition
  · subst hposition
    exact ⟨rfl, rfl, .inr ⟨rfl, before, hbefore, rfl, rfl⟩⟩
  · exact ⟨rfl, rfl, .inl rfl⟩

end Moved

/-! ## Looking up unique ids -/

section Lookup

variable {I D : Type} [LinearOrder I] {resources : List (Resource I D)}

variable (hnodup : (resources.map Resource.id).Nodup)

include hnodup

/-- With unique ids the index finds exactly the position of an id. -/
lemma getElem?_buildIndex {id : I} {position : ℕ} : (buildIndex resources)[id]? = some position ↔
      ∃ resource, resources[position]? = some resource ∧ resource.id = id := by
  rw [buildIndex, BTreeMap.getElem?_upsertAll_eq_some (by
    rwa [map_map, show Prod.fst ∘ _ = Resource.id ∘ Prod.fst from rfl, ← map_map, zipIdx_map_fst])]
  simp only [Std.ExtTreeMap.getElem?_empty, reduceCtorEq, and_false, or_false, mem_map,
    Prod.mk.injEq, Prod.exists, mem_zipIdx_iff_getElem?]
  constructor
  · rintro ⟨resource, _, hat, rfl, rfl⟩
    exact ⟨resource, hat, rfl⟩
  · rintro ⟨resource, hat, rfl⟩
    exact ⟨resource, position, hat, rfl, rfl⟩

lemma getElem?_buildIndex_none {id : I} :
    (buildIndex resources)[id]? = none ↔ ∀ resource ∈ resources, resource.id ≠ id := by
  rw [Option.eq_none_iff_forall_ne_some]
  constructor
  · rintro h resource hmem rfl
    obtain ⟨position, hat⟩ := mem_iff_getElem?.mp hmem
    exact h position ((getElem?_buildIndex hnodup).mpr ⟨resource, hat, rfl⟩)
  · intro h position hfound
    obtain ⟨resource, hat, hid⟩ := (getElem?_buildIndex hnodup).mp hfound
    exact h resource (mem_of_getElem? hat) hid

lemma stateOf_eq_some {id : I} {state : ResourceState} :
    stateOf resources id = some state ↔ ∃ resource ∈ resources, resource.id = id ∧
      resource.state = state := by
  simp only [stateOf, Option.bind_eq_some_iff, getElem?_buildIndex hnodup, Option.map_eq_some_iff]
  constructor
  · rintro ⟨position, ⟨resource, hat, hid⟩, other, hat', hstate⟩
    obtain rfl := Option.some.inj (hat.symm.trans hat')
    exact ⟨resource, mem_of_getElem? hat, hid, hstate⟩
  · rintro ⟨resource, hmem, hid, hstate⟩
    obtain ⟨position, hat⟩ := mem_iff_getElem?.mp hmem
    exact ⟨position, ⟨resource, hat, hid⟩, resource, hat, hstate⟩

/-- **With unique ids, putting a state under an id changes the entries with that id.** -/
lemma setState_eq (id : I) (state : ResourceState) :
    setState resources id state = resources.map fun resource =>
      if resource.id = id then { resource with state } else resource := by
  rw [setState]
  split
  · next position hposition =>
      obtain ⟨resource, hat, rfl⟩ := (getElem?_buildIndex hnodup).mp hposition
      refine ext_getElem? fun i => ?_
      rw [setAt, getElem?_modify, getElem?_map]
      cases hi : resources[i]? with
      | none => rfl
      | some other =>
        simp only [Option.map_eq_map, Option.map_some, Option.some.injEq]
        have hiff : position = i ↔ other.id = resource.id := by
          constructor
          · rintro rfl
            rw [Option.some.inj (hat.symm.trans hi)]
          · intro hid
            have hlt := (List.getElem?_eq_some_iff.mp hat).1
            refine (getElem?_inj (by simpa using hlt) hnodup).mp ?_
            rw [getElem?_map, getElem?_map, hat, hi, Option.map_some, Option.map_some, hid]
        simp only [hiff]
  · next hnone =>
      have habsent := (getElem?_buildIndex_none hnodup).mp hnone
      conv_lhs => rw [← map_id resources]
      refine map_congr_left ?_
      intro resource hmem
      rw [if_neg (habsent resource hmem), id_eq]

end Lookup

/-! ## Leases -/

namespace ResourceState

/-- The lease of a leased entry. -/
def lease? : ResourceState → Option LeaseReservation
  | .leased lease => some lease
  | _ => none

@[simp] lemma lease?_eq_some {state : ResourceState} {lease : LeaseReservation} :
    state.lease? = some lease ↔ state = .leased lease := by
  cases state <;> simp [lease?]

/-- `clear_expired_leases`, for one entry. -/
def clearExpired (now : ℕ) : ResourceState → ResourceState
  | .leased lease => if lease.expiresAtUnixMs ≤ now then .free else .leased lease
  | state => state

/-- `clear_prepared_lease_group`, for one entry. -/
def clearGroup (groupId : Uuid) : ResourceState → ResourceState
  | .leased lease => if lease.groupId = some groupId then .free else .leased lease
  | state => state

end ResourceState

variable (snapshot : SchedulerSnapshot)

/-- All leases, slots first. -/
def leases : List LeaseReservation :=
  snapshot.slots.filterMap (fun slot => slot.state.lease?) ++
    snapshot.gpuDevices.filterMap fun device => device.state.lease?

lemma mem_leases {snapshot : SchedulerSnapshot} {lease : LeaseReservation} :
    lease ∈ leases snapshot ↔ (∃ slot ∈ snapshot.slots, slot.state = .leased lease) ∨
      ∃ device ∈ snapshot.gpuDevices, device.state = .leased lease := by
  simp [leases]

/-- The ids leased under a lease id, sorted. -/
def leasedIds {I D : Type} [LinearOrder I] (resources : List (Resource I D)) (leaseId : Uuid) :
    List I :=
  ((resources.filter fun resource =>
    resource.state.lease?.any fun lease => decide (lease.leaseId = leaseId)).map
      Resource.id).insertionSort (· ≤ ·)

lemma mem_leasedIds {I D : Type} [LinearOrder I] {resources : List (Resource I D)}
    {leaseId : Uuid} {id : I} : id ∈ leasedIds resources leaseId ↔
      ∃ resource ∈ resources, resource.id = id ∧
        ∃ lease, resource.state = .leased lease ∧ lease.leaseId = leaseId := by
  simp only [leasedIds, mem_insertionSort, mem_map, mem_filter, Option.any_eq_true,
    ResourceState.lease?_eq_some, decide_eq_true_eq]
  constructor
  · rintro ⟨resource, ⟨hmem, hlease⟩, hid⟩
    exact ⟨resource, hmem, hid, hlease⟩
  · rintro ⟨resource, hmem, hid, hlease⟩
    exact ⟨resource, ⟨hmem, hlease⟩, hid⟩

/-- `LeaseAllocation`. -/
structure LeaseAllocation where
  coordinatorNodeId : Uuid
  taskId : Uuid
  expiresAtUnixMs : ℕ
  groupId : Option Uuid
  slotIds : List SlotId
  gpuDeviceIds : List GpuDeviceId
  deriving DecidableEq

/-- `lease_index`: the metadata of the first entry under a lease id, and the ids of all of them. -/
def leaseIndex (leaseId : Uuid) : Option LeaseAllocation :=
  ((leases snapshot).find? fun lease => decide (lease.leaseId = leaseId)).map fun lease =>
    ⟨lease.coordinatorNodeId, lease.taskId, lease.expiresAtUnixMs, lease.groupId,
      leasedIds snapshot.slots leaseId, leasedIds snapshot.gpuDevices leaseId⟩

/-- The keys of `lease_index`. -/
def leaseIds : List Uuid :=
  sortedSet ((leases snapshot).map LeaseReservation.leaseId)

end Scheduler

end Mantissa
