import Mantissa.Core.Run
import Mantissa.Scheduler.Operations

/-!
# Who holds a slot

`Move` lists what one operation may do to one slot or device: clear a lease that has run out, free
what it names, turn a lease into a reservation, and so on. `attempt_moves` shows that every
snapshot an operation builds comes from the one it looked at by such moves, entry by entry; all
facts about ownership are read off from there.

Two facts about the snapshot itself go along with it and hold in every state reached: ids are unique
(`UniqueIds`), and what is leased under one lease id is leased by the same lease (`Consistent`).
-/

namespace Mantissa.Scheduler

open List

/-- No two slots and no two devices have the same id. -/
structure UniqueIds (snapshot : SchedulerSnapshot) : Prop where
  slots : (snapshot.slots.map Resource.id).Nodup
  gpuDevices : (snapshot.gpuDevices.map Resource.id).Nodup

/-- What is leased under one lease id has the same metadata. -/
def Consistent (snapshot : SchedulerSnapshot) : Prop :=
  ∀ lease ∈ leases snapshot, ∀ lease' ∈ leases snapshot,
    lease.leaseId = lease'.leaseId → lease = lease'

/-! ## Moves of one entry -/

namespace SchedulerOp

/-- The operation clears this lease before it looks for capacity: it has run out, or its group is
prepared anew. -/
def Reclaims (now : ℕ) (lease : LeaseReservation) : SchedulerOp → Prop
  | .reserve .. => lease.expiresAtUnixMs ≤ now
  | .free .. => lease.expiresAtUnixMs ≤ now
  | .prepareExact _ _ groupId _ _ => lease.expiresAtUnixMs ≤ now ∨ lease.groupId = some groupId
  | .prepare _ groupId _ _ =>
    lease.expiresAtUnixMs ≤ now ∨ lease.groupId.isSome ∧ lease.groupId = groupId
  | .reap => lease.expiresAtUnixMs ≤ now
  | _ => False

/-- Nobody holds the entry, or the operation clears the lease that does. -/
def Available (op : SchedulerOp) (now : ℕ) (state : ResourceState) : Prop :=
  state = .free ∨ ∃ lease, state = .leased lease ∧ op.Reclaims now lease

/-- The operation aborts this lease. -/
def Aborts (lease : LeaseReservation) : SchedulerOp → Prop
  | .abort coordinatorNodeId intents => lease.coordinatorNodeId = coordinatorNodeId ∧
      ∃ intent ∈ intents, intent.leaseId = lease.leaseId ∧ intent.taskId = lease.taskId
  | .abortGroup coordinatorNodeId groupId =>
    lease.groupId = some groupId ∧ lease.coordinatorNodeId = coordinatorNodeId
  | _ => False

/-- The operation aborts the group of this reservation. -/
def Dissolves (storeKey : Uuid) (reservation : Reservation) : SchedulerOp → Prop
  | .abortGroup _ groupId => reservation.owner = storeKey ∧ reservation.groupId = some groupId
  | _ => False

/-- The operation commits exactly this lease, which has not run out, into a reservation. -/
def Commits (storeKey now : ℕ) (lease : LeaseReservation) (reservation : Reservation) :
    SchedulerOp → Prop
  | .commit leaseId coordinatorNodeId taskId _ _ => lease.leaseId = leaseId ∧
      lease.coordinatorNodeId = coordinatorNodeId ∧ lease.taskId = taskId ∧
      now < lease.expiresAtUnixMs ∧ lease.groupId = none ∧
        reservation = ⟨storeKey, some taskId, none⟩
  | .commitGroup groupId coordinatorNodeId prepared =>
    lease.leaseId ∈ prepared.map PreparedTaskLease.leaseId ∧
    lease.coordinatorNodeId = coordinatorNodeId ∧ lease.groupId = some groupId ∧
    now < lease.expiresAtUnixMs ∧
    reservation = ⟨storeKey, some lease.taskId, some groupId⟩
  | _ => False

/-- The lease that an operation draws for its `i`-th intent. -/
def lease (now : ℕ) (leaseIds : ℕ → Uuid) (i : ℕ) : SchedulerOp → Option LeaseReservation
  | .prepareExact _ coordinatorNodeId groupId ttlMs intents => intents[i]?.map fun intent =>
    exactLease now coordinatorNodeId groupId ttlMs leaseIds intent i
  | .prepare coordinatorNodeId groupId ttlMs intents => intents[i]?.map fun intent =>
    intentLease now coordinatorNodeId groupId ttlMs leaseIds intent i
  | _ => none

end SchedulerOp

/-- What an operation says about one entry by its id. -/
structure Names where
  reserves : Reservation → Prop
  frees : Prop
  leases : ℕ → Prop

/-- What an operation says about a slot. A prepare that is not exact may choose any. -/
def SchedulerOp.slotNames (op : SchedulerOp) (id : SlotId) : Names :=
  match op with
  | .reserve _ requests _ => ⟨fun reservation => ∃ request ∈ requests, request.id = id ∧
      reservation = ⟨request.owner, request.taskId, request.groupId⟩, False, fun _ => False⟩
  | .free _ slots _ => ⟨fun _ => False, id ∈ slots, fun _ => False⟩
  | .prepareExact _ _ _ _ intents => ⟨fun _ => False, False, fun i =>
    ∃ intent, intents[i]? = some intent ∧ id ∈ intent.slotIds⟩
  | .prepare _ _ _ _ => ⟨fun _ => False, False, fun _ => True⟩
  | _ => ⟨fun _ => False, False, fun _ => False⟩

/-- What an operation says about a GPU device. -/
def SchedulerOp.gpuNames (op : SchedulerOp) (id : GpuDeviceId) : Names :=
  match op with
  | .reserve _ _ requests => ⟨fun reservation => ∃ request ∈ requests, request.id = id ∧
      reservation = ⟨request.owner, request.taskId, request.groupId⟩, False, fun _ => False⟩
  | .free _ _ gpuDeviceIds => ⟨fun _ => False, id ∈ gpuDeviceIds, fun _ => False⟩
  | .prepareExact _ _ _ _ intents => ⟨fun _ => False, False, fun i =>
    ∃ intent, intents[i]? = some intent ∧ id ∈ intent.gpuDeviceIds⟩
  | .prepare _ _ _ _ => ⟨fun _ => False, False, fun _ => True⟩
  | _ => ⟨fun _ => False, False, fun _ => False⟩

/-- **What one operation may do to one entry.** -/
inductive Move (storeKey now : ℕ) (leaseIds : ℕ → Uuid) (op : SchedulerOp) (names : Names) :
    ResourceState → ResourceState → Prop
  | same (state : ResourceState) : Move storeKey now leaseIds op names state state
  | reclaimed (lease : LeaseReservation) (h : op.Reclaims now lease) :
      Move storeKey now leaseIds op names (.leased lease) .free
  | freed (state : ResourceState) (h : names.frees) :
      Move storeKey now leaseIds op names state .free
  | aborted (lease : LeaseReservation) (h : op.Aborts lease) :
      Move storeKey now leaseIds op names (.leased lease) .free
  | dissolved (reservation : Reservation) (h : op.Dissolves storeKey reservation) :
      Move storeKey now leaseIds op names (.reserved reservation) .free
  | committed (lease : LeaseReservation) (reservation : Reservation)
      (h : op.Commits storeKey now lease reservation) :
      Move storeKey now leaseIds op names (.leased lease) (.reserved reservation)
  | reserved (state : ResourceState) (reservation : Reservation) (h : op.Available now state)
      (hnames : names.reserves reservation) :
      Move storeKey now leaseIds op names state (.reserved reservation)
  | leased (state : ResourceState) (lease : LeaseReservation) (i : ℕ) (h : op.Available now state)
      (hnames : names.leases i) (hlease : op.lease now leaseIds i = some lease) :
      Move storeKey now leaseIds op names state (.leased lease)

/-! ## Loops over entries -/

section Loops

variable {I D α : Type} [LinearOrder I] {move : I → ResourceState → ResourceState → Prop}

omit [LinearOrder I] in
/-- The states that are related are those of entries. -/
lemma Moved.with_mem {resources resources' : List (Resource I D)}
    (h : Moved move resources resources') : Moved (fun id state state' => move id state state' ∧
      ∃ resource ∈ resources, resource.id = id ∧ resource.state = state) resources resources' := by
  refine moved_iff_getElem.mpr ⟨(moved_iff_getElem.mp h).1, ?_⟩
  intro i before after hbefore hafter
  obtain ⟨hid, hdetails, hmove⟩ := (moved_iff_getElem.mp h).2 i before after hbefore hafter
  exact ⟨hid, hdetails, hmove, before, mem_of_getElem? hbefore, rfl, rfl⟩

variable {step : List (Resource I D) → α → List (Resource I D)}

omit [LinearOrder I] in
/-- A loop moves entries as its rounds do, when the moves compose. -/
lemma moved_foldl (hrefl : ∀ id s, move id s s)
    (htrans : ∀ id s t u, move id s t → move id t u → move id s u) : ∀ (items : List α)
    (resources : List (Resource I D)), (resources.map Resource.id).Nodup →
    (∀ item ∈ items, ∀ resources : List (Resource I D), (resources.map Resource.id).Nodup →
      Moved move resources (step resources item)) →
    Moved move resources (items.foldl step resources)
  | [], resources, _, _ => Moved.refl hrefl
  | item :: items, resources, hnodup, hstep => by
    have hfirst := hstep item mem_cons_self resources hnodup
    have hrest := moved_foldl hrefl htrans items (step resources item) (hfirst.ids ▸ hnodup)
      fun item hmem => hstep item (mem_cons_of_mem _ hmem)
    exact hfirst.trans hrest htrans

/-- **What a loop leaves** that puts a state under the key of each item: that state, if items with
one key agree on it, and everything else as it was. -/
lemma moved_assignAll (key : α → I) (state : α → ResourceState) : ∀ (items : List α)
    (resources : List (Resource I D)), (resources.map Resource.id).Nodup →
    (∀ a ∈ items, ∀ b ∈ items, key a = key b → state a = state b) →
    Moved (fun id before after => (∀ item ∈ items, key item = id → after = state item) ∧
      ((∀ item ∈ items, key item ≠ id) → after = before)) resources
      (items.foldl (fun resources item => setState resources (key item) (state item)) resources)
  | [], _, _, _ => Moved.refl fun _ _ => ⟨nofun, fun _ => rfl⟩
  | item :: items, resources, hnodup, hsame => by
    have hfirst : Moved (fun id before after => (key item = id → after = state item) ∧
        (key item ≠ id → after = before)) resources
        (setState resources (key item) (state item)) := by
      rw [setState_eq hnodup]
      refine forall₂_map_right_iff.mpr (forall₂_same.mpr ?_)
      intro resource _
      split_ifs with hid
      · exact ⟨rfl, rfl, fun _ => rfl, fun h => absurd hid.symm h⟩
      · exact ⟨rfl, rfl, fun h => absurd h.symm hid, fun _ => rfl⟩
    have hrest := moved_assignAll key state items (setState resources (key item) (state item))
      (hfirst.ids ▸ hnodup)
      fun a ha b hb => hsame a (mem_cons_of_mem _ ha) b (mem_cons_of_mem _ hb)
    refine hfirst.trans hrest ?_
    rintro id s t u ⟨hset, hkeep⟩ ⟨hset', hkeep'⟩
    refine ⟨?_, fun hne => ?_⟩
    · intro named hmem hid
      by_cases hlater : ∃ later ∈ items, key later = id
      · obtain ⟨later, hlater, rfl⟩ := hlater
        rw [hset' later hlater rfl]
        exact hsame later (mem_cons_of_mem _ hlater) named hmem hid.symm
      · rw [hkeep' fun later hmem heq => hlater ⟨later, hmem, heq⟩]
        rcases mem_cons.mp hmem with rfl | hmem
        · exact hset hid
        · exact absurd ⟨named, hmem, hid⟩ hlater
    · rw [hkeep' fun later hmem => hne later (mem_cons_of_mem _ hmem)]
      exact hkeep (hne item mem_cons_self)

/-- An entry keeps its state or gets one that is meant for its id. -/
def Assigned (becomes : I → ResourceState → Prop) (id : I) (state state' : ResourceState) : Prop :=
  state' = state ∨ becomes id state'

variable {becomes : I → ResourceState → Prop} {resources : List (Resource I D)}
variable {ids : List I} {state : ResourceState}

omit [LinearOrder I] in
lemma Assigned.trans (id : I) (s t u : ResourceState) (h : Assigned becomes id s t)
    (h' : Assigned becomes id t u) : Assigned becomes id s u := by
  rcases h' with rfl | hu
  · exact h
  · exact .inr hu

omit [LinearOrder I] in
lemma moved_assigned_foldl (items : List α)
    (resources : List (Resource I D)) (hnodup : (resources.map Resource.id).Nodup)
    (hstep : ∀ item ∈ items, ∀ resources : List (Resource I D), (resources.map Resource.id).Nodup →
        Moved (Assigned becomes) resources (step resources item)) :
    Moved (Assigned becomes) resources (items.foldl step resources) :=
  moved_foldl (fun _ _ => .inl rfl) Assigned.trans items resources hnodup hstep

lemma moved_setState (hnodup : (resources.map Resource.id).Nodup) {id : I}
    (h : becomes id state) : Moved (Assigned becomes) resources (setState resources id state) := by
  rw [setState_eq hnodup]
  refine forall₂_map_right_iff.mpr (forall₂_same.mpr ?_)
  intro resource _
  split_ifs with hid
  · exact ⟨rfl, rfl, .inr (hid ▸ h)⟩
  · exact ⟨rfl, rfl, .inl rfl⟩

lemma moved_reserveAll {requests : List (ReservationRequest I)}
    (hnodup : (resources.map Resource.id).Nodup) :
    Moved (Assigned fun id state => ∃ request ∈ requests, request.id = id ∧
      state = .reserved ⟨request.owner, request.taskId, request.groupId⟩) resources
      (reserveAll requests resources) :=
  moved_assigned_foldl requests resources hnodup fun request hmem _ hnodup =>
    moved_setState hnodup ⟨request, hmem, rfl, rfl⟩

/-- A loop that puts one state under some ids. -/
lemma moved_setAll (hnodup : (resources.map Resource.id).Nodup) :
    Moved (Assigned fun id state' => id ∈ ids ∧ state' = state) resources
      (ids.foldl (fun resources id => setState resources id state) resources) :=
  moved_assigned_foldl ids resources hnodup fun _ hmem _ hnodup => moved_setState hnodup ⟨hmem, rfl⟩

/-- An entry keeps its state, or a lease with the given property is cleared from it. -/
def Freed (clears : LeaseReservation → Prop) (state state' : ResourceState) : Prop :=
  state' = state ∨ ∃ lease, state = .leased lease ∧ clears lease ∧ state' = .free

omit [LinearOrder I] in
lemma Freed.trans {clears : LeaseReservation → Prop} (_ : I) (s t u : ResourceState)
    (h : Freed clears s t) (h' : Freed clears t u) : Freed clears s u := by
  rcases h with rfl | ⟨lease, rfl, hlease, rfl⟩
  · exact h'
  · rcases h' with rfl | ⟨lease', hs, -, -⟩
    · exact .inr ⟨lease, rfl, hlease, rfl⟩
    · cases hs

lemma moved_releaseAll {leaseId : Uuid} (hnodup : (resources.map Resource.id).Nodup) :
    Moved (fun _ => Freed (·.leaseId = leaseId)) resources (releaseAll leaseId ids resources) := by
  refine moved_foldl (fun _ _ => .inl rfl) Freed.trans ids resources hnodup ?_
  intro id _ resources hnodup
  split_ifs with hleased
  · obtain ⟨state, hstate, hlease⟩ := (Option.any_eq_true _ _).mp hleased
    obtain ⟨lease, hlease', hid⟩ := (Option.any_eq_true _ _).mp hlease
    obtain ⟨resource, hmem, rfl, rfl⟩ := (stateOf_eq_some hnodup).mp hstate
    rw [setState_eq hnodup]
    refine forall₂_map_right_iff.mpr (forall₂_same.mpr ?_)
    intro other hother
    split_ifs with heq
    · obtain rfl := inj_on_of_nodup_map hnodup hother hmem heq
      exact ⟨rfl, rfl, .inr ⟨lease, ResourceState.lease?_eq_some.mp hlease',
        of_decide_eq_true hid, rfl⟩⟩
    · exact ⟨rfl, rfl, .inl rfl⟩
  · exact Moved.refl fun _ _ => .inl rfl

end Loops

/-! ## Snapshots -/

/-- Slots and devices move alike. -/
structure Change (slotMove : SlotId → ResourceState → ResourceState → Prop)
    (gpuMove : GpuDeviceId → ResourceState → ResourceState → Prop)
    (current next : SchedulerSnapshot) : Prop where
  slots : Moved slotMove current.slots next.slots
  gpuDevices : Moved gpuMove current.gpuDevices next.gpuDevices

section Change

variable {slotMove slotMove' slotMove'' : SlotId → ResourceState → ResourceState → Prop}
variable {gpuMove gpuMove' gpuMove'' : GpuDeviceId → ResourceState → ResourceState → Prop}
variable {current middle next : SchedulerSnapshot}

variable (h : Change slotMove gpuMove current next)

include h

lemma Change.uniqueIds (hunique : UniqueIds current) : UniqueIds next :=
  ⟨h.slots.ids ▸ hunique.slots, h.gpuDevices.ids ▸ hunique.gpuDevices⟩

omit h in
lemma Change.trans (h : Change slotMove gpuMove current middle)
    (h' : Change slotMove' gpuMove' middle next)
    (hslots : ∀ id s t u, slotMove id s t → slotMove' id t u → slotMove'' id s u)
    (hgpus : ∀ id s t u, gpuMove id s t → gpuMove' id t u → gpuMove'' id s u) :
    Change slotMove'' gpuMove'' current next :=
  ⟨h.slots.trans h'.slots hslots, h.gpuDevices.trans h'.gpuDevices hgpus⟩

lemma Change.mono (hslots : ∀ id s t, slotMove id s t → slotMove' id s t)
    (hgpus : ∀ id s t, gpuMove id s t → gpuMove' id s t) : Change slotMove' gpuMove' current next :=
  ⟨h.slots.mono hslots, h.gpuDevices.mono hgpus⟩

lemma Change.with_mem :
    Change (fun id s t => slotMove id s t ∧ ∃ slot ∈ current.slots, slot.id = id ∧ slot.state = s)
      (fun id s t => gpuMove id s t ∧ ∃ device ∈ current.gpuDevices, device.id = id ∧
        device.state = s)
      current next :=
  ⟨h.slots.with_mem, h.gpuDevices.with_mem⟩

omit h

/-- A loop over snapshots. -/
lemma change_foldl {α : Type} {step : SchedulerSnapshot → α → SchedulerSnapshot}
    (hrefl : (∀ id s, slotMove id s s) ∧ ∀ id s, gpuMove id s s)
    (htrans : (∀ id s t u, slotMove id s t → slotMove id t u → slotMove id s u) ∧
      ∀ id s t u, gpuMove id s t → gpuMove id t u → gpuMove id s u) : ∀ (items : List α)
    (current : SchedulerSnapshot), UniqueIds current →
    (∀ item ∈ items, ∀ current, UniqueIds current →
      Change slotMove gpuMove current (step current item)) →
    Change slotMove gpuMove current (items.foldl step current)
  | [], _, _, _ => ⟨Moved.refl hrefl.1, Moved.refl hrefl.2⟩
  | item :: items, current, hunique, hstep => by
    have hfirst := hstep item mem_cons_self current hunique
    have hrest := change_foldl hrefl htrans items (step current item) (hfirst.uniqueIds hunique)
      fun item hmem => hstep item (mem_cons_of_mem _ hmem)
    exact hfirst.trans hrest htrans.1 htrans.2

/-- A published snapshot has the entries it was built with, and the next version. -/
lemma publishNext_eq_ok {snapshot next : SchedulerSnapshot}
    {response : SchedulerSnapshot → SchedulerResponse} {answer : SchedulerResponse}
    (h : publishNext snapshot response = .ok (.publish next answer)) :
    next.slots = snapshot.slots ∧ next.gpuDevices = snapshot.gpuDevices ∧
      next.version = snapshot.version + 1 := by
  obtain ⟨next', hnext, hpure⟩ := bind_eq_ok.mp h
  obtain ⟨rfl, -⟩ := hpure
  rw [nextSnapshot] at hnext
  split at hnext
  · next version hversion =>
      cases hnext
      obtain ⟨-, rfl⟩ := checkedAdd_eq_some.mp hversion
      exact ⟨rfl, rfl, rfl⟩
  · cases hnext

/-- What is published has the entries it was built with. -/
lemma Change.published {snapshot : SchedulerSnapshot} (h : Change slotMove gpuMove current snapshot)
    (hnext : next.slots = snapshot.slots ∧ next.gpuDevices = snapshot.gpuDevices ∧
      next.version = snapshot.version + 1) : Change slotMove gpuMove current next :=
  ⟨hnext.1 ▸ h.slots, hnext.2.1 ▸ h.gpuDevices⟩

end Change

/-! ## Clearing -/

/-- Slots and devices lose leases that an operation clears. -/
abbrev ClearedBy (op : SchedulerOp) (now : ℕ) : SchedulerSnapshot → SchedulerSnapshot → Prop :=
  Change (fun _ => Freed (op.Reclaims now)) fun _ => Freed (op.Reclaims now)

section Clearing

variable {op : SchedulerOp} {now : ℕ} {state state' : ResourceState}

/-- What is free after clearing was available. -/
lemma Freed.available (h : Freed (op.Reclaims now) state .free) : op.Available now state := by
  rcases h with rfl | ⟨lease, rfl, hlease, -⟩
  · exact .inl rfl
  · exact .inr ⟨lease, rfl, hlease⟩

lemma Freed.move {storeKey : ℕ} {leaseIds : ℕ → Uuid} {names : Names}
    (h : Freed (op.Reclaims now) state state') :
    Move storeKey now leaseIds op names state state' := by
  rcases h with rfl | ⟨lease, rfl, hlease, rfl⟩
  · exact .same _
  · exact .reclaimed lease hlease

/-- A step that frees the leases with some property. -/
lemma freed_clear (clears : LeaseReservation → Prop) [DecidablePred clears] {f : ResourceState →
    ResourceState} (hf : ∀ state, f state = match state with
      | .leased lease => if clears lease then .free else .leased lease
      | state => state)
    (h : ∀ lease, clears lease → op.Reclaims now lease) (current : SchedulerSnapshot) :
    ClearedBy op now current { current with
      slots := mapStates f current.slots, gpuDevices := mapStates f current.gpuDevices } := by
  refine ⟨(moved_mapStates _).mono ?_, (moved_mapStates _).mono ?_⟩ <;>
  · rintro _ state _ rfl
    rw [hf]
    cases state with
    | free => exact .inl rfl
    | reserved reservation => exact .inl rfl
    | leased lease =>
      dsimp only
      split_ifs with hclears
      · exact .inr ⟨lease, rfl, h lease hclears, rfl⟩
      · exact .inl rfl

variable (op now)

lemma change_clearExpired
    (h : ∀ lease : LeaseReservation, lease.expiresAtUnixMs ≤ now → op.Reclaims now lease)
    (current : SchedulerSnapshot) : ClearedBy op now current (clearExpiredLeases now current).1 :=
  freed_clear (·.expiresAtUnixMs ≤ now) (by rintro (_ | _ | _) <;> rfl) h current

lemma change_clearGroup (groupId : ℕ)
    (h : ∀ lease : LeaseReservation, lease.groupId = some groupId → op.Reclaims now lease)
    (current : SchedulerSnapshot) :
    ClearedBy op now current (clearPreparedLeaseGroup groupId current) :=
  freed_clear (·.groupId = some groupId) (by rintro (_ | _ | _) <;> rfl) h current

end Clearing

variable {op : SchedulerOp}

/-! ## Reserving, freeing and exact leases -/

section Take

variable {I D : Type} [LinearOrder I] {op : SchedulerOp} {storeKey now : ℕ} {leaseIds : ℕ → Uuid}
variable {becomes : I → ResourceState → Prop} {names : I → Names}
variable {resources cleared next : List (Resource I D)}

/-- Entries that are cleared first and then given out, where only free ones are given out. -/
lemma moved_take (hclear : Moved (fun _ => Freed (op.Reclaims now)) resources cleared)
    (hassign : Moved (Assigned becomes) cleared next) (hnodup : (cleared.map Resource.id).Nodup)
    {ids : List I} (hfree : unavailable cleared ids = [])
    (hmove : ∀ id state', becomes id state' → id ∈ ids ∧ ∀ state, op.Available now state →
      Move storeKey now leaseIds op (names id) state state') :
    Moved (fun id => Move storeKey now leaseIds op (names id)) resources next := by
  refine hclear.trans hassign.with_mem ?_
  rintro id s t u hcleared ⟨rfl | hbecomes, resource, hmem, rfl, rfl⟩
  · exact hcleared.move
  · obtain ⟨hid, hmove⟩ := hmove _ _ hbecomes
    rw [unavailable, sortedSet_eq_nil, filter_eq_nil_iff] at hfree
    have hstate := hfree resource.id hid
    rw [(stateOf_eq_some hnodup).mpr ⟨resource, hmem, rfl, rfl⟩] at hstate
    rw [show resource.state = .free by simpa using hstate] at hcleared
    exact hmove _ hcleared.available

end Take

section Attempts

variable {current next : SchedulerSnapshot} {answer : SchedulerResponse}
variable {storeKey now : ℕ} {drawn : ℕ → Uuid}

/-- What an operation may do to a snapshot. -/
abbrev MovesBy (storeKey now : ℕ) (drawn : ℕ → Uuid) (op : SchedulerOp)
    (current next : SchedulerSnapshot) : Prop :=
  Change (fun id => Move storeKey now drawn op (op.slotNames id))
    (fun id => Move storeKey now drawn op (op.gpuNames id)) current next

lemma checkFree_eq_ok {cleared : SchedulerSnapshot} {slotIds : List SlotId}
    {gpuDeviceIds : List GpuDeviceId} {result : Unit}
    (h : checkFree cleared current slotIds gpuDeviceIds = .ok result) :
    unavailable cleared.slots slotIds = [] ∧ unavailable cleared.gpuDevices gpuDeviceIds = [] := by
  simp only [checkFree, bind_eq_ok, require_eq_ok] at h
  obtain ⟨-, -, -, -, -, hslots, -, -, -, -, hgpus⟩ := h
  exact ⟨hslots, hgpus⟩

variable (hunique : UniqueIds current)

include hunique

lemma reserve_moves {expectedVersion : ℕ} {slotRequests : List (ReservationRequest SlotId)}
    {gpuRequests : List (ReservationRequest GpuDeviceId)}
    (h : reserveResources now expectedVersion slotRequests gpuRequests current =
      .ok (.publish next answer)) :
    MovesBy storeKey now drawn (.reserve expectedVersion slotRequests gpuRequests)
      current next := by
  rw [reserveResources] at h
  split_ifs at h
  · cases h
  obtain ⟨_, -, h⟩ := bind_eq_ok.mp h
  obtain ⟨_, hcheck, h⟩ := bind_eq_ok.mp h
  obtain ⟨hslotsFree, hgpusFree⟩ := checkFree_eq_ok hcheck
  have hclear := change_clearExpired (.reserve expectedVersion slotRequests gpuRequests) now
    (fun _ h => h) current
  have hcleared := hclear.uniqueIds hunique
  refine Change.published
    ⟨moved_take hclear.slots (moved_reserveAll hcleared.slots) hcleared.slots hslotsFree ?_,
      moved_take hclear.gpuDevices (moved_reserveAll hcleared.gpuDevices) hcleared.gpuDevices
        hgpusFree ?_⟩ (publishNext_eq_ok h) <;>
  · rintro _ _ ⟨request, hrequest, rfl, rfl⟩
    exact ⟨mem_map_of_mem hrequest, fun state havailable =>
      .reserved state _ havailable ⟨request, hrequest, rfl, rfl⟩⟩

lemma free_moves {expectedVersion : ℕ} {slots : List SlotId} {gpuDeviceIds : List GpuDeviceId}
    (h : freeResources now expectedVersion slots gpuDeviceIds current =
      .ok (.publish next answer)) :
    MovesBy storeKey now drawn (.free expectedVersion slots gpuDeviceIds) current next := by
  rw [freeResources] at h
  split_ifs at h
  · cases h
  obtain ⟨_, -, h⟩ := bind_eq_ok.mp h
  obtain ⟨_, -, h⟩ := bind_eq_ok.mp h
  have hclear := change_clearExpired (.free expectedVersion slots gpuDeviceIds) now
    (fun _ h => h) current
  have hcleared := hclear.uniqueIds hunique
  refine Change.published ⟨hclear.slots.trans (moved_setAll hcleared.slots) ?_,
    hclear.gpuDevices.trans (moved_setAll hcleared.gpuDevices) ?_⟩ (publishNext_eq_ok h) <;>
  · rintro id s t u hst (rfl | ⟨hmem, rfl⟩)
    · exact hst.move
    · exact .freed s (mem_sortedSet.mp hmem)

lemma prepareExact_moves {expectedVersion coordinatorNodeId groupId ttlMs : ℕ}
    {intents : List ExactTaskLeaseIntent}
    (h : prepareExactTaskLeaseGroup now drawn expectedVersion coordinatorNodeId
      groupId ttlMs intents current = .ok (.publish next answer)) :
    MovesBy storeKey now drawn (.prepareExact expectedVersion coordinatorNodeId groupId
      ttlMs intents) current next := by
  rw [prepareExactTaskLeaseGroup] at h
  split_ifs at h
  · cases h
  obtain ⟨_, -, h⟩ := bind_eq_ok.mp h
  obtain ⟨_, hcheck, h⟩ := bind_eq_ok.mp h
  obtain ⟨hslotsFree, hgpusFree⟩ := checkFree_eq_ok hcheck
  have hclear := (change_clearExpired
    (.prepareExact expectedVersion coordinatorNodeId groupId ttlMs intents) now
      (fun _ h => .inl h) current).trans
    (change_clearGroup (.prepareExact expectedVersion coordinatorNodeId groupId ttlMs intents) now
      groupId (fun _ h => .inr h) _) Freed.trans Freed.trans
  have hcleared := hclear.uniqueIds hunique
  -- Every entry that changes gets the lease of an intent that names it.
  have hassign : Change
      (Assigned fun id state => ∃ i intent, intents[i]? = some intent ∧ id ∈ intent.slotIds ∧
        state = .leased (exactLease now coordinatorNodeId groupId ttlMs drawn intent i))
      (Assigned fun id state => ∃ i intent, intents[i]? = some intent ∧ id ∈ intent.gpuDeviceIds ∧
        state = .leased (exactLease now coordinatorNodeId groupId ttlMs drawn intent i))
      (clearPreparedLeaseGroup groupId (clearExpiredLeases now current).1)
      (intents.zipIdx.foldl (fun snapshot entry =>
        leaseExact (exactLease now coordinatorNodeId groupId ttlMs drawn entry.1 entry.2) entry.1
          snapshot) (clearPreparedLeaseGroup groupId (clearExpiredLeases now current).1)) := by
    refine change_foldl ⟨fun _ _ => .inl rfl, fun _ _ => .inl rfl⟩
      ⟨Assigned.trans, Assigned.trans⟩ _ _ hcleared ?_
    intro entry hentry snapshot hsnapshot
    have hat := mem_zipIdx_iff_getElem?.mp hentry
    refine ⟨(moved_setAll hsnapshot.slots).mono ?_, (moved_setAll hsnapshot.gpuDevices).mono ?_⟩ <;>
    · rintro id s t (rfl | ⟨hmem, rfl⟩)
      · exact .inl rfl
      · exact .inr ⟨entry.2, entry.1, hat, (mem_insertionSort _).mp hmem, rfl⟩
  refine Change.published ⟨moved_take hclear.slots hassign.slots hcleared.slots hslotsFree ?_,
      moved_take hclear.gpuDevices hassign.gpuDevices hcleared.gpuDevices hgpusFree ?_⟩
      (publishNext_eq_ok h) <;>
  · rintro id _ ⟨i, intent, hat, hid, rfl⟩
    refine ⟨mem_flatMap.mpr ⟨intent, mem_of_getElem? hat, hid⟩, ?_⟩
    intro state havailable
    exact .leased state _ i havailable ⟨intent, hat, hid⟩ (by simp [SchedulerOp.lease, hat])

end Attempts

/-! ## Leases on chosen entries -/

section Prepare

variable {I D : Type} {resources : List (Resource I D)}

/-- A position with a free entry. -/
def FreeAt (resources : List (Resource I D)) (position : ℕ) : Prop :=
  ∃ resource, resources[position]? = some resource ∧ resource.state = .free

lemma freeAt_of_mem_freeIndices {position : ℕ}
    (h : position ∈ freeIndices resources) : FreeAt resources position := by
  simp only [freeIndices, mem_map, mem_filter, Prod.exists,
    mem_zipIdx_iff_getElem?, decide_eq_true_eq] at h
  obtain ⟨resource, _, ⟨hat, hfree⟩, rfl⟩ := h
  exact ⟨resource, hat, hfree⟩

/-- Free entries that are leased under some leases. -/
def LeasedBy (leaseOf : LeaseReservation → Prop) (state state' : ResourceState) : Prop :=
  state' = state ∨ state = .free ∧ ∃ lease, leaseOf lease ∧ state' = .leased lease

variable {lease : LeaseReservation} {leaseOf : LeaseReservation → Prop}

lemma LeasedBy.trans {I : Type} (_ : I) (s t u : ResourceState) (h : LeasedBy leaseOf s t)
    (h' : LeasedBy leaseOf t u) : LeasedBy leaseOf s u := by
  rcases h with rfl | ⟨rfl, lease, hlease, rfl⟩
  · exact h'
  · rcases h' with rfl | ⟨hfree, -⟩
    · exact .inr ⟨rfl, lease, hlease, rfl⟩
    · cases hfree

lemma moved_leaseAt (hlease : leaseOf lease) : ∀ (positions : List ℕ)
    (resources : List (Resource I D)),
    (∀ position ∈ positions, ∃ resource, resources[position]? = some resource ∧
      (resource.state = .free ∨ resource.state = .leased lease)) →
    Moved (fun _ => LeasedBy leaseOf) resources (leaseAt lease positions resources)
  | [], _, _ => Moved.refl fun _ _ => .inl rfl
  | position :: positions, resources, h => by
    have hfirst : Moved (fun _ => LeasedBy leaseOf) resources
        (setAt resources position (.leased lease)) := by
      refine (moved_setAt resources position (.leased lease)).mono ?_
      rintro id s t (rfl | ⟨rfl, resource, hat, -, rfl⟩)
      · exact .inl rfl
      · obtain ⟨found, hat', hstate⟩ := h position mem_cons_self
        obtain rfl := Option.some.inj (hat.symm.trans hat')
        rcases hstate with hfree | hleased
        · exact .inr ⟨hfree, lease, hlease, rfl⟩
        · exact .inl hleased.symm
    refine hfirst.trans (moved_leaseAt hlease positions _ ?_) LeasedBy.trans
    intro other hother
    obtain ⟨resource, hat, hstate⟩ := h other (mem_cons_of_mem _ hother)
    by_cases heq : position = other
    · simp [setAt, hat, heq]
    · refine ⟨resource, ?_, hstate⟩
      simp [setAt, hat, heq]

lemma getElem?_leaseAt_of_not_mem (lease : LeaseReservation) {position : ℕ} :
    ∀ (positions : List ℕ) (resources : List (Resource I D)), position ∉ positions →
      (leaseAt lease positions resources)[position]? = resources[position]?
  | [], _, _ => rfl
  | first :: positions, resources, h => by
    obtain ⟨hne, hrest⟩ := not_or.mp (mem_cons.not.mp h)
    have := getElem?_leaseAt_of_not_mem lease positions (setAt resources first (.leased lease))
        hrest
    rw [leaseAt, foldl_cons]
    rw [leaseAt] at this
    rw [this, setAt, getElem?_modify]
    simp [Ne.symm hne]

variable {slots : List (Resource SlotId SlotCapacity)}

lemma bestCandidate_mem {candidates : List ℕ} {cpuMillis memoryBytes place index : ℕ}
    (h : bestCandidate slots candidates cpuMillis memoryBytes = some (place, index)) :
    index ∈ candidates := by
  -- The best candidate so far is one of those the loop has seen.
  refine foldlRecOn candidates.zipIdx _ (motive := fun best : Option (ℕ × ℕ) × ℕ =>
      ∀ place index, best.1 = some (place, index) → index ∈ candidates)
    (fun _ _ hsome => by cases hsome) ?_ place index h
  rintro best hbest ⟨candidate, i⟩ hmem place index hsome
  dsimp only at hsome
  split at hsome
  · exact hbest place index hsome
  · split_ifs at hsome
    · simp only [Option.some.injEq, Prod.mk.injEq] at hsome
      rw [← hsome.2]
      exact mem_of_getElem? (mem_zipIdx_iff_getElem?.mp hmem)
    · exact hbest place index hsome

lemma selectSlots_subset :
    ∀ (rounds : ℕ) (candidates : List ℕ) (cpuMillis memoryBytes : ℕ) (selected : List ℕ),
      selectSlots slots rounds candidates cpuMillis memoryBytes = some selected →
        selected ⊆ candidates := by
  intro rounds
  induction rounds with
  | zero => intro _ _ _ _ h; cases h
  | succ rounds ih =>
    intro candidates cpuMillis memoryBytes selected h
    rw [selectSlots] at h
    split_ifs at h
    · cases h
      exact nil_subset _
    · split at h
      · cases h
      · next place index hbest =>
          split at h
          · cases h
          · obtain ⟨rest, hrest, rfl⟩ := Option.map_eq_some_iff.mp h
            refine cons_subset.mpr ⟨bestCandidate_mem hbest, ?_⟩
            exact List.Subset.trans (ih _ _ _ _ hrest) (eraseIdx_subset ..)

lemma selectGpuIndices_subset {available : List ℕ} {gpuCount : ℕ} {selected : List ℕ}
    (h : selectGpuIndices available gpuCount = some selected) : selected ⊆ available := by
  rw [selectGpuIndices] at h
  split_ifs at h <;> cases h
  · exact nil_subset _
  · exact take_subset _ _

variable {cleared current : SchedulerSnapshot}

/-- The loop over intents has leased free entries, and its free positions are free. -/
structure Prepares (leaseOf : LeaseReservation → Prop) (cleared : SchedulerSnapshot)
    (preparing : Preparing) : Prop where
  change : Change (fun _ => LeasedBy leaseOf) (fun _ => LeasedBy leaseOf) cleared preparing.snapshot
  freeSlots : ∀ position ∈ preparing.freeSlots, FreeAt preparing.snapshot.slots position
  freeGpus : ∀ position ∈ preparing.freeGpus, FreeAt preparing.snapshot.gpuDevices position

lemma freeAt_leaseAt {free selected : List ℕ} (h : ∀ position ∈ free, FreeAt resources position) :
    ∀ position ∈ free.filter (· ∉ selected), FreeAt (leaseAt lease selected resources)
      position := by
  intro position hmem
  simp only [mem_filter, decide_eq_true_eq] at hmem
  obtain ⟨resource, hat, hfree⟩ := h position hmem.1
  exact ⟨resource, (getElem?_leaseAt_of_not_mem lease selected resources hmem.2).trans hat, hfree⟩

lemma Prepares.intent {preparing preparing' : Preparing}
    {intent : TaskLeaseIntent} (h : Prepares leaseOf cleared preparing) (hlease : leaseOf lease)
    (hstep : prepareIntent lease intent preparing = some preparing') :
    Prepares leaseOf cleared preparing' := by
  rw [prepareIntent] at hstep
  split at hstep
  · next slotIndices gpuIndices hslots hgpus =>
      cases hstep
      rw [selectSlotIndices] at hslots
      split_ifs at hslots
      have hslotsFree := selectSlots_subset _ _ _ _ _ hslots
      have hgpusFree := selectGpuIndices_subset hgpus
      refine ⟨⟨h.change.slots.trans (moved_leaseAt hlease slotIndices _ ?_) LeasedBy.trans,
        h.change.gpuDevices.trans (moved_leaseAt hlease gpuIndices _ ?_) LeasedBy.trans⟩,
        freeAt_leaseAt h.freeSlots, freeAt_leaseAt h.freeGpus⟩
      · intro position hmem
        obtain ⟨resource, hat, hfree⟩ := h.freeSlots position (hslotsFree hmem)
        exact ⟨resource, hat, .inl hfree⟩
      · intro position hmem
        obtain ⟨resource, hat, hfree⟩ := h.freeGpus position (hgpusFree hmem)
        exact ⟨resource, hat, .inl hfree⟩
  · cases hstep

lemma Prepares.intents {leaseFor : TaskLeaseIntent → ℕ → LeaseReservation} :
    ∀ (intents : List (TaskLeaseIntent × ℕ)) {preparing preparing' : Preparing},
      Prepares leaseOf cleared preparing → (∀ entry ∈ intents, leaseOf (leaseFor entry.1 entry.2)) →
      prepareIntents leaseFor current intents preparing = .ok preparing' →
        Prepares leaseOf cleared preparing'
  | [], _, _, h, _, hloop => by
    cases hloop
    exact h
  | entry :: intents, _, _, h, hleases, hloop => by
    rw [prepareIntents] at hloop
    split at hloop
    · cases hloop
    · next preparing hstep =>
        exact (h.intent (hleases entry mem_cons_self) hstep).intents intents
          (fun entry hmem => hleases entry (mem_cons_of_mem _ hmem)) hloop

end Prepare

section Attempts

variable {current next : SchedulerSnapshot} {answer : SchedulerResponse}
variable {storeKey now : ℕ} {drawn : ℕ → Uuid} {coordinatorNodeId : ℕ} {groupId : Option Uuid}

lemma prepare_moves {ttlMs : ℕ} {intents : List TaskLeaseIntent}
    (h : prepareTaskLeases now drawn coordinatorNodeId groupId ttlMs intents current =
      .ok (.publish next answer)) :
    MovesBy storeKey now drawn (.prepare coordinatorNodeId groupId ttlMs intents) current next := by
  rw [prepareTaskLeases] at h
  split_ifs at h
  · cases h
  obtain ⟨prepared, hloop, h⟩ := bind_eq_ok.mp h
  have hexpired := change_clearExpired (.prepare coordinatorNodeId groupId ttlMs intents) now
    (fun _ h => .inl h) current
  have hclear : ClearedBy (.prepare coordinatorNodeId groupId ttlMs intents) now current
      (clearedFor now groupId current) := by
    cases groupId with
    | none => exact hexpired
    | some groupId =>
      refine hexpired.trans (change_clearGroup
        (.prepare coordinatorNodeId (some groupId) ttlMs intents) now groupId
          (fun lease h => .inr ⟨by rw [h]; rfl, h⟩) _) Freed.trans Freed.trans
  have hprepared : Prepares (fun lease => ∃ i, SchedulerOp.lease now drawn i
      (.prepare coordinatorNodeId groupId ttlMs intents) = some lease)
      (clearedFor now groupId current) prepared := by
    refine Prepares.intents _ ⟨⟨Moved.refl fun _ _ => .inl rfl, Moved.refl fun _ _ => .inl rfl⟩,
      fun _ => freeAt_of_mem_freeIndices, fun _ => freeAt_of_mem_freeIndices⟩ ?_ hloop
    intro entry hmem
    exact ⟨entry.2, by simp [SchedulerOp.lease, mem_zipIdx_iff_getElem?.mp hmem]⟩
  refine Change.published (hclear.trans hprepared.change ?_ ?_) (publishNext_eq_ok h) <;>
  · rintro id s t u hst (rfl | ⟨rfl, lease, ⟨i, hlease⟩, rfl⟩)
    · exact hst.move
    · exact .leased s lease i hst.available trivial hlease

/-! ## Commits and aborts -/

/-- The index of leases, in a snapshot where leases are consistent. -/
lemma leaseIndex_eq_some (hconsistent : Consistent current) {leaseId : Uuid}
    {allocation : LeaseAllocation} (h : leaseIndex current leaseId = some allocation) :
    ∃ lease ∈ leases current, lease.leaseId = leaseId ∧
      allocation = ⟨lease.coordinatorNodeId, lease.taskId, lease.expiresAtUnixMs, lease.groupId,
        leasedIds current.slots leaseId, leasedIds current.gpuDevices leaseId⟩ ∧
      ∀ lease' ∈ leases current, lease'.leaseId = leaseId → lease' = lease := by
  obtain ⟨lease, hfind, rfl⟩ := Option.map_eq_some_iff.mp h
  have hmem := mem_of_find?_eq_some hfind
  have hid : lease.leaseId = leaseId := by simpa using find?_some hfind
  exact ⟨lease, hmem, hid, rfl, fun lease' hmem' hid' =>
    hconsistent lease' hmem' lease hmem (hid'.trans hid.symm)⟩

/-- An entry whose id is among the leased ones is leased. -/
lemma leased_of_mem_leasedIds {I D : Type} [LinearOrder I] {resources : List (Resource I D)}
    (hnodup : (resources.map Resource.id).Nodup) {resource : Resource I D} {leaseId : Uuid}
    (hmem : resource ∈ resources) (h : resource.id ∈ leasedIds resources leaseId) :
    ∃ lease, resource.state = .leased lease ∧ lease.leaseId = leaseId := by
  obtain ⟨other, hother, hid, hlease⟩ := mem_leasedIds.mp h
  obtain rfl := inj_on_of_nodup_map hnodup hother hmem hid
  exact hlease

lemma mem_leases_of_slot {slot : Resource SlotId SlotCapacity} {lease : LeaseReservation}
    (hmem : slot ∈ current.slots) (h : slot.state = .leased lease) : lease ∈ leases current :=
  mem_leases.mpr (.inl ⟨slot, hmem, h⟩)

lemma mem_leases_of_gpu {device : Resource GpuDeviceId GpuDetails} {lease : LeaseReservation}
    (hmem : device ∈ current.gpuDevices) (h : device.state = .leased lease) :
    lease ∈ leases current :=
  mem_leases.mpr (.inr ⟨device, hmem, h⟩)

/-- Entries under the ids of some allocations become reservations of their tasks. -/
def CommittedTo {I : Type} (storeKey : Uuid) (groupId : Option Uuid)
    (ids : LeaseAllocation → List I) (allocations : List (Uuid × LeaseAllocation)) (id : I)
    (state : ResourceState) : Prop :=
  ∃ entry ∈ allocations, id ∈ ids entry.2 ∧
    state = .reserved ⟨storeKey, some entry.2.taskId, groupId⟩

variable {allocations : List (Uuid × LeaseAllocation)}

lemma change_commitAllocations (hunique : UniqueIds current) :
    Change (Assigned (CommittedTo storeKey groupId LeaseAllocation.slotIds allocations))
      (Assigned (CommittedTo storeKey groupId LeaseAllocation.gpuDeviceIds allocations)) current
      (allocations.foldl (fun snapshot entry => commitAllocation storeKey groupId entry.2 snapshot)
        current) := by
  refine change_foldl ⟨fun _ _ => .inl rfl, fun _ _ => .inl rfl⟩
    ⟨Assigned.trans, Assigned.trans⟩ _ _ hunique ?_
  intro entry hentry snapshot hsnapshot
  refine ⟨(moved_setAll hsnapshot.slots).mono ?_, (moved_setAll hsnapshot.gpuDevices).mono ?_⟩ <;>
  · rintro id s t (rfl | ⟨hmem, rfl⟩)
    · exact .inl rfl
    · exact .inr ⟨entry, hentry, hmem, rfl⟩

/-- Committed allocations of the current snapshot are committed leases. -/
lemma committed_moves (allocations : List (Uuid × LeaseAllocation)) (hunique : UniqueIds current)
    (hconsistent : Consistent current)
    (hindex : ∀ entry ∈ allocations, leaseIndex current entry.1 = some entry.2)
    (hcommits : ∀ entry ∈ allocations, ∀ lease ∈ leases current, lease.leaseId = entry.1 →
      entry.2 = ⟨lease.coordinatorNodeId, lease.taskId, lease.expiresAtUnixMs, lease.groupId,
        leasedIds current.slots entry.1, leasedIds current.gpuDevices entry.1⟩ →
      op.Commits storeKey now lease ⟨storeKey, some lease.taskId, groupId⟩) :
    MovesBy storeKey now drawn op current
      (allocations.foldl (fun snapshot entry => commitAllocation storeKey groupId entry.2 snapshot)
        current) := by
  refine (change_commitAllocations hunique).with_mem.mono ?_ ?_
  · rintro id s t ⟨rfl | ⟨entry, hentry, hid, rfl⟩, slot, hslot, rfl, rfl⟩
    · exact .same _
    · obtain ⟨lease, hlease, -, hallocation, honly⟩ :=
        leaseIndex_eq_some hconsistent (hindex entry hentry)
      rw [hallocation] at hid
      obtain ⟨lease', hstate, hid'⟩ := leased_of_mem_leasedIds hunique.slots hslot hid
      obtain rfl := honly lease' (mem_leases_of_slot hslot hstate) hid'
      rw [hstate, hallocation]
      exact .committed lease' _ (hcommits entry hentry lease' hlease hid' hallocation)
  · rintro id s t ⟨rfl | ⟨entry, hentry, hid, rfl⟩, device, hdevice, rfl, rfl⟩
    · exact .same _
    · obtain ⟨lease, hlease, -, hallocation, honly⟩ :=
        leaseIndex_eq_some hconsistent (hindex entry hentry)
      rw [hallocation] at hid
      obtain ⟨lease', hstate, hid'⟩ := leased_of_mem_leasedIds hunique.gpuDevices hdevice hid
      obtain rfl := honly lease' (mem_leases_of_gpu hdevice hstate) hid'
      rw [hstate, hallocation]
      exact .committed lease' _ (hcommits entry hentry lease' hlease hid' hallocation)

lemma commit_moves {leaseId taskId : ℕ} {expectedSlotIds : List SlotId}
    {expectedGpuDeviceIds : List GpuDeviceId} (hunique : UniqueIds current)
    (hconsistent : Consistent current)
    (h : commitTaskLease storeKey now leaseId coordinatorNodeId taskId expectedSlotIds
      expectedGpuDeviceIds current = .ok (.publish next answer)) : MovesBy storeKey now drawn
      (.commit leaseId coordinatorNodeId taskId expectedSlotIds expectedGpuDeviceIds)
        current next := by
  rw [commitTaskLease] at h
  split at h
  · cases h
  next allocation hindex =>
    obtain ⟨_, hexpiry, h⟩ := bind_eq_ok.mp h
    rw [require_eq_ok] at hexpiry
    split at h
    · cases h
    next hgroup =>
      obtain ⟨_, hmatch, h⟩ := bind_eq_ok.mp h
      obtain ⟨hcoordinator, htask, -⟩ := require_eq_ok.mp hmatch
      refine (committed_moves [(leaseId, allocation)] hunique hconsistent
        (by simpa using hindex) ?_).published (publishNext_eq_ok h)
      simp only [mem_singleton, forall_eq]
      rintro lease - hid rfl
      exact ⟨hid, hcoordinator, htask, hexpiry, hgroup, by rw [← htask]⟩

lemma mem_allocationsOf {ids : List Uuid} {entry : Uuid × LeaseAllocation} :
    entry ∈ allocationsOf current ids ↔ entry.1 ∈ ids ∧ leaseIndex current entry.1 =
      some entry.2 := by
  simp only [allocationsOf, mem_filterMap, Option.map_eq_some_iff]
  constructor
  · rintro ⟨leaseId, hmem, allocation, hindex, rfl⟩
    exact ⟨hmem, hindex⟩
  · rintro ⟨hmem, hindex⟩
    exact ⟨entry.1, hmem, entry.2, hindex, rfl⟩

variable {prepared : List PreparedTaskLease}

/-- What the checks of a group commit say. -/
lemma commitGroup_eq_ok {groupId : ℕ}
    (h : commitTaskLeaseGroup storeKey now groupId coordinatorNodeId prepared current =
      .ok (.publish next answer)) :
    groupLeaseIds current groupId = sortedSet (prepared.map PreparedTaskLease.leaseId) ∧
    (∀ entry ∈ allocationsOf current (groupLeaseIds current groupId),
      entry.2.coordinatorNodeId = coordinatorNodeId ∧ now < entry.2.expiresAtUnixMs) ∧
    let committed := (allocationsOf current (groupLeaseIds current groupId)).foldl
      (fun snapshot entry => commitAllocation storeKey (some groupId) entry.2 snapshot) current
    next.slots = committed.slots ∧ next.gpuDevices = committed.gpuDevices ∧
      next.version = committed.version + 1 := by
  simp only [commitTaskLeaseGroup, bind_eq_ok, require_eq_ok] at h
  obtain ⟨-, -, -, -, -, hactual, -, hcoordinator, -, hexpired, h⟩ := h
  split at h
  · cases h
  · refine ⟨hactual, fun entry hmem => ⟨hcoordinator entry hmem, ?_⟩, publishNext_eq_ok h⟩
    rw [map_eq_nil_iff, filter_eq_nil_iff] at hexpired
    simpa using hexpired entry hmem

/-- The leases of a group. -/
lemma mem_groupLeaseIds {groupId leaseId : Uuid} : leaseId ∈ groupLeaseIds current groupId ↔
    ∃ allocation, leaseIndex current leaseId = some allocation ∧ allocation.groupId =
      some groupId := by
  simp only [groupLeaseIds, mem_filter, leaseIds, mem_sortedSet, Option.any_eq_true,
    decide_eq_true_eq]
  refine ⟨And.right, fun h => ⟨?_, h⟩⟩
  obtain ⟨allocation, hindex, -⟩ := h
  obtain ⟨lease, hfind, -⟩ := Option.map_eq_some_iff.mp hindex
  exact mem_map.mpr ⟨lease, mem_of_find?_eq_some hfind, by simpa using find?_some hfind⟩

variable (hunique : UniqueIds current)

include hunique

lemma commitGroup_moves {groupId : ℕ} (hconsistent : Consistent current)
    (h : commitTaskLeaseGroup storeKey now groupId coordinatorNodeId prepared current =
      .ok (.publish next answer)) :
    MovesBy storeKey now drawn (.commitGroup groupId coordinatorNodeId prepared) current next := by
  obtain ⟨hactual, hchecked, hnext⟩ := commitGroup_eq_ok h
  refine (committed_moves _ hunique hconsistent
    (fun entry hmem => (mem_allocationsOf.mp hmem).2) ?_).published hnext
  intro entry hmem lease _ hid hallocation
  obtain ⟨hcoordinator, hexpiry⟩ := hchecked _ hmem
  obtain ⟨hgroup, hindex⟩ := mem_allocationsOf.mp hmem
  obtain ⟨allocation, hindex', hgroupId⟩ := mem_groupLeaseIds.mp hgroup
  obtain rfl := Option.some.inj (hindex.symm.trans hindex')
  rw [hactual, mem_sortedSet, ← hid] at hgroup
  rw [hallocation] at hcoordinator hexpiry hgroupId
  exact ⟨hgroup, hcoordinator, hgroupId, hexpiry, rfl⟩

/-- A lease that some entries of the index hold. -/
def HeldBy (allocations : List (Uuid × LeaseAllocation)) (lease : LeaseReservation) : Prop :=
  ∃ entry ∈ allocations, entry.1 = lease.leaseId

lemma change_releaseAllocations :
    Change (fun _ => Freed (HeldBy allocations)) (fun _ => Freed (HeldBy allocations)) current
      (allocations.foldl (fun snapshot entry => releaseAllocation entry.1 entry.2 snapshot)
        current) := by
  refine change_foldl ⟨fun _ _ => .inl rfl, fun _ _ => .inl rfl⟩ ⟨Freed.trans, Freed.trans⟩ _ _
    hunique ?_
  intro entry hentry snapshot hsnapshot
  refine ⟨(moved_releaseAll hsnapshot.slots).mono ?_,
    (moved_releaseAll hsnapshot.gpuDevices).mono ?_⟩ <;>
  · rintro id s t (rfl | ⟨lease, rfl, hid, rfl⟩)
    · exact .inl rfl
    · exact .inr ⟨lease, rfl, ⟨entry, hentry, hid.symm⟩, rfl⟩

/-- Released allocations of the current snapshot are aborted leases. -/
lemma released_moves
    (haborts : ∀ entry ∈ allocations, ∀ lease ∈ leases current, lease.leaseId = entry.1 →
      op.Aborts lease) : MovesBy storeKey now drawn op current
      (allocations.foldl (fun snapshot entry => releaseAllocation entry.1 entry.2 snapshot)
        current) := by
  refine (change_releaseAllocations hunique).with_mem.mono ?_ ?_
  · rintro id s t ⟨rfl | ⟨lease, hs, ⟨entry, hentry, hid⟩, rfl⟩, slot, hslot, rfl, rfl⟩
    · exact .same _
    · rw [hs]
      exact .aborted lease (haborts entry hentry lease (mem_leases_of_slot hslot hs) hid.symm)
  · rintro id s t ⟨rfl | ⟨lease, hs, ⟨entry, hentry, hid⟩, rfl⟩, device, hdevice, rfl, rfl⟩
    · exact .same _
    · rw [hs]
      exact .aborted lease (haborts entry hentry lease (mem_leases_of_gpu hdevice hs) hid.symm)

omit hunique in
lemma publishChanged_eq_ok {released : SchedulerSnapshot}
    (h : publishChanged current released = .ok (.publish next answer)) :
    next.slots = released.slots ∧ next.gpuDevices = released.gpuDevices ∧
      next.version = released.version + 1 := by
  rw [publishChanged] at h
  split_ifs at h
  · cases h
  · exact publishNext_eq_ok h

/-- The allocations that an abort releases. -/
def abortedAllocations (coordinatorNodeId : Uuid) (intents : List AbortTaskLeaseIntent)
    (current : SchedulerSnapshot) : List (Uuid × LeaseAllocation) :=
  intents.filterMap fun intent => (leaseIndex current intent.leaseId).bind fun allocation =>
    if allocation.coordinatorNodeId = coordinatorNodeId ∧ allocation.taskId = intent.taskId then
      some (intent.leaseId, allocation)
    else none

omit hunique in
lemma foldl_abort_eq (coordinatorNodeId : Uuid) (intents : List AbortTaskLeaseIntent)
    (snapshot : SchedulerSnapshot) :
    intents.foldl (abortIntent coordinatorNodeId current) snapshot =
      (abortedAllocations coordinatorNodeId intents current).foldl (fun snapshot entry =>
        releaseAllocation entry.1 entry.2 snapshot) snapshot := by
  induction intents generalizing snapshot with
  | nil => rfl
  | cons intent intents ih =>
    rw [foldl_cons, ih]
    conv_rhs => rw [abortedAllocations, filterMap_cons]
    rw [abortIntent]
    cases leaseIndex current intent.leaseId with
    | none => rfl
    | some allocation =>
      simp only [Option.bind_some]
      split_ifs <;> rfl

lemma abort_moves {intents : List AbortTaskLeaseIntent} (hconsistent : Consistent current)
    (h : abortTaskLeases coordinatorNodeId intents current = .ok (.publish next answer)) :
    MovesBy storeKey now drawn (.abort coordinatorNodeId intents) current next := by
  rw [abortTaskLeases] at h
  split_ifs at h
  · cases h
  rw [foldl_abort_eq] at h
  refine (released_moves hunique ?_).published (publishChanged_eq_ok h)
  intro entry hentry lease hlease hid
  simp only [abortedAllocations, mem_filterMap, Option.bind_eq_some_iff,
    Option.ite_none_right_eq_some, Option.some.injEq] at hentry
  obtain ⟨intent, hintent, allocation, hindex, ⟨hcoordinator, htask⟩, rfl⟩ := hentry
  obtain ⟨found, -, -, rfl, honly⟩ := leaseIndex_eq_some hconsistent hindex
  obtain rfl := honly lease hlease hid
  exact ⟨hcoordinator, intent, hintent, hid.symm, htask.symm⟩

lemma abortGroup_moves {groupId : ℕ} (hconsistent : Consistent current)
    (h : abortTaskLeaseGroup storeKey coordinatorNodeId groupId current =
      .ok (.publish next answer)) :
    MovesBy storeKey now drawn (.abortGroup coordinatorNodeId groupId) current next := by
  have hreleased : MovesBy storeKey now drawn (.abortGroup coordinatorNodeId groupId) current
      (((allocationsOf current (leaseIds current)).filter fun entry =>
        decide (entry.2.groupId = some groupId ∧
          entry.2.coordinatorNodeId = coordinatorNodeId)).foldl (fun snapshot entry =>
            releaseAllocation entry.1 entry.2 snapshot) current) := by
    refine released_moves hunique ?_
    intro entry hentry lease hlease hid
    simp only [mem_filter, decide_eq_true_eq, mem_allocationsOf] at hentry
    obtain ⟨⟨-, hindex⟩, hgroup, hcoordinator⟩ := hentry
    obtain ⟨found, -, -, hallocation, honly⟩ := leaseIndex_eq_some hconsistent hindex
    obtain rfl := honly lease hlease hid
    rw [hallocation] at hgroup hcoordinator
    exact ⟨hgroup, hcoordinator⟩
  -- A reservation has not been touched so far, and what was freed stays free.
  have hdissolve : ∀ (names : Names) (s t : ResourceState),
      Move storeKey now drawn (.abortGroup coordinatorNodeId groupId) names s t →
      Move storeKey now drawn (.abortGroup coordinatorNodeId groupId) names s
        (t.clearReservedGroup storeKey groupId) := by
    intro names s t hmove
    cases t with
    | free => exact hmove
    | leased lease => exact hmove
    | reserved reservation =>
      simp only [ResourceState.clearReservedGroup]
      split_ifs with hgroup
      · cases hmove with
        | same => exact .dissolved reservation hgroup
        | committed lease _ hcommits => exact hcommits.elim
        | reserved _ _ havailable _ =>
          rcases havailable with rfl | ⟨lease, rfl, hlease⟩
          · exact .same _
          · exact hlease.elim
      · exact hmove
  refine Change.published ⟨hreleased.slots.trans (moved_mapStates _) ?_,
    hreleased.gpuDevices.trans (moved_mapStates _) ?_⟩ (publishChanged_eq_ok h) <;>
  · rintro id s t u hst rfl
    exact hdissolve _ s t hst

omit hunique in
lemma reap_moves (h : reapExpiredLeases now current = .ok (.publish next answer)) :
    MovesBy storeKey now drawn .reap current next := by
  rw [reapExpiredLeases] at h
  split_ifs at h
  · cases h
  refine Change.published ?_ (publishNext_eq_ok h)
  exact (change_clearExpired .reap now (fun _ h => h) current).mono
    (fun _ _ _ => Freed.move) fun _ _ _ => Freed.move

/-- **What an operation publishes comes from what it looked at by the moves it may make.** -/
theorem attempt_moves (hconsistent : Consistent current)
    (h : op.attempt storeKey now drawn current = .ok (.publish next answer)) :
    MovesBy storeKey now drawn op current next := by
  cases op with
  | reserve _ _ _ => exact reserve_moves hunique h
  | free _ _ _ => exact free_moves hunique h
  | prepareExact _ _ _ _ _ => exact prepareExact_moves hunique h
  | prepare _ _ _ _ => exact prepare_moves h
  | commit _ _ _ _ _ => exact commit_moves hunique hconsistent h
  | commitGroup _ _ _ => exact commitGroup_moves hunique hconsistent h
  | abort _ _ => exact abort_moves hunique hconsistent h
  | abortGroup _ _ => exact abortGroup_moves hunique hconsistent h
  | reap => exact reap_moves h

end Attempts

end Mantissa.Scheduler
