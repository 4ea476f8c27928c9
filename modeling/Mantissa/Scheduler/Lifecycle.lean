import Mantissa.Scheduler.Ownership

/-!
# One operation after another

A scheduler that runs its operations one at a time, with a clock that may show anything. Lease ids
are drawn: the `n`-th attempt draws `leaseIds n 0`, `leaseIds n 1`, …, and what is assumed of them
is that no id is drawn twice.

Whether a reservation came from a commit and whether a lease ended by itself is decided by the moves
of `Ownership`; what is added here are the invariants they need, that a group commit leaves no lease
of its group behind, and that every published snapshot has the next version.
-/

namespace Mantissa.Scheduler

open SchedulerOp List

/-- The node a scheduler belongs to, and the lease ids that are drawn. -/
structure SchedulerSettings where
  storeKey : Uuid
  leaseIds : ℕ → ℕ → Uuid

/-- A scheduler between two operations. -/
structure SequentialScheduler where
  snapshot : SchedulerSnapshot
  attempts : ℕ

namespace SequentialScheduler

/-- After `init_resources`. -/
def initial (slots : List (SlotId × SlotCapacity)) (gpuDevices : List (GpuDeviceId × GpuDetails)) :
    SequentialScheduler :=
  ⟨initResources slots gpuDevices, 0⟩

/-- An operation, at a time. -/
def step (settings : SchedulerSettings) (scheduler : SequentialScheduler) :
    SchedulerOp × ℕ → Option SequentialScheduler
  | (op, now) =>
    match op.attempt settings.storeKey now (settings.leaseIds scheduler.attempts)
        scheduler.snapshot with
    | .ok (.publish next _) => some ⟨next, scheduler.attempts + 1⟩
    | _ => some ⟨scheduler.snapshot, scheduler.attempts + 1⟩

end SequentialScheduler

/-! ## Unique ids at the start -/

/-- A sorted list whose neighbours have different keys is strictly sorted. -/
lemma pairwise_of_isChain_ne {α I : Type} [LinearOrder I] (key : α → I) {l : List α}
    (hchain : l.IsChain fun a b => key a ≠ key b)
    (hsorted : l.Pairwise fun a b => key a ≤ key b) : l.Pairwise fun a b => key a < key b := by
  refine isChain_iff_pairwise.mp (isChain_iff_getElem.mpr ?_)
  intro i hi
  exact lt_of_le_of_ne (isChain_iff_getElem.mp hsorted.isChain i hi)
    (isChain_iff_getElem.mp hchain i hi)

lemma nodup_materialize {I D : Type} [LinearOrder I] (specs : List (I × D)) :
    ((materialize specs).map Resource.id).Nodup := by
  have hsorted : (specs.insertionSort fun a b => a.1 ≤ b.1).Pairwise fun a b => a.1 ≤ b.1 := by
    exact pairwise_insertionSort _ _
  have hkept := hsorted.sublist (destutter_sublist (fun a b : I × D => a.1 ≠ b.1) _)
  have hstrict := pairwise_of_isChain_ne Prod.fst
    (isChain_destutter (fun a b : I × D => a.1 ≠ b.1) _) hkept
  rw [materialize, map_map, nodup_iff_pairwise_ne, pairwise_map]
  exact hstrict.imp ne_of_lt

lemma leases_initResources (slots : List (SlotId × SlotCapacity))
    (gpuDevices : List (GpuDeviceId × GpuDetails)) :
    leases (initResources slots gpuDevices) = [] := by
  simp [leases, initResources, materialize, ResourceState.lease?]

/-! ## New leases -/

section Moves

variable {storeKey now : ℕ} {drawn : ℕ → Uuid} {op : SchedulerOp} {names : Names}
variable {current next : SchedulerSnapshot} {lease : LeaseReservation}

/-- A leased entry was leased before, or has the lease of an intent. -/
lemma Move.leased_cases {state : ResourceState}
    (h : Move storeKey now drawn op names state (.leased lease)) :
    state = .leased lease ∨ ∃ i, op.lease now drawn i = some lease := by
  cases h with
  | same => exact .inl rfl
  | leased _ _ i _ _ hlease => exact .inr ⟨i, hlease⟩

lemma lease_of_moves (h : MovesBy storeKey now drawn op current next)
    (hlease : lease ∈ leases next) :
    lease ∈ leases current ∨ ∃ i, op.lease now drawn i = some lease := by
  rcases mem_leases.mp hlease with ⟨slot, hslot, hstate⟩ | ⟨device, hdevice, hstate⟩
  · obtain ⟨before, hbefore, -, hmove⟩ := h.slots.exists_before hslot
    rw [hstate] at hmove
    exact hmove.leased_cases.imp_left (mem_leases_of_slot hbefore)
  · obtain ⟨before, hbefore, -, hmove⟩ := h.gpuDevices.exists_before hdevice
    rw [hstate] at hmove
    exact hmove.leased_cases.imp_left (mem_leases_of_gpu hbefore)

lemma leaseId_of_lease {i : ℕ} (h : op.lease now drawn i = some lease) :
    lease.leaseId = drawn i := by
  cases op with
  | prepareExact | prepare =>
    obtain ⟨intent, -, rfl⟩ := Option.map_eq_some_iff.mp h
    rfl
  | _ => cases h

/-- Leases stay consistent when the ids an operation draws are new and distinct. -/
lemma Consistent.moves (hconsistent : Consistent current)
    (hdrawn : Function.Injective drawn) (hnew : ∀ lease ∈ leases current, ∀ i, lease.leaseId ≠
      drawn i)
    (h : MovesBy storeKey now drawn op current next) : Consistent next := by
  intro lease hlease lease' hlease' hid
  rcases lease_of_moves h hlease with hold | ⟨i, hi⟩
  · rcases lease_of_moves h hlease' with hold' | ⟨j, hj⟩
    · exact hconsistent lease hold lease' hold' hid
    · exact absurd (hid.trans (leaseId_of_lease hj)) (hnew lease hold j)
  · rcases lease_of_moves h hlease' with hold' | ⟨j, hj⟩
    · exact absurd (hid.symm.trans (leaseId_of_lease hi)) (hnew lease' hold' i)
    · have hij : i = j := hdrawn
        ((leaseId_of_lease hi).symm.trans (hid.trans (leaseId_of_lease hj)))
      subst hij
      exact Option.some.inj (hi.symm.trans hj)

end Moves

/-! ## Invariants -/

/-- What holds of a scheduler that was initialized with some entries. -/
structure SequentialScheduler.Invariant (settings : SchedulerSettings) (start : SchedulerSnapshot)
    (scheduler : SequentialScheduler) : Prop where
  slots : scheduler.snapshot.slots.map (fun slot => (slot.id, slot.details)) =
    start.slots.map fun slot => (slot.id, slot.details)
  gpuDevices : scheduler.snapshot.gpuDevices.map (fun device => (device.id, device.details)) =
    start.gpuDevices.map fun device => (device.id, device.details)
  uniqueIds : UniqueIds scheduler.snapshot
  consistent : Consistent scheduler.snapshot
  drawn : ∀ lease ∈ leases scheduler.snapshot, ∃ n < scheduler.attempts, ∃ i,
    lease.leaseId = settings.leaseIds n i

namespace SequentialScheduler

variable {settings : SchedulerSettings} {start : SchedulerSnapshot}
variable {scheduler scheduler' : SequentialScheduler} {op : SchedulerOp} {now : ℕ}

/-- A step keeps the snapshot or publishes one. -/
lemma step_cases (h : scheduler.step settings (op, now) = some scheduler') :
    scheduler' = ⟨scheduler.snapshot, scheduler.attempts + 1⟩ ∨
      ∃ answer, op.attempt settings.storeKey now (settings.leaseIds scheduler.attempts)
        scheduler.snapshot = .ok (.publish scheduler'.snapshot answer) ∧
          scheduler'.attempts = scheduler.attempts + 1 := by
  simp only [step] at h
  split at h <;> cases h
  · next answer hattempt => exact .inr ⟨answer, hattempt, rfl⟩
  · exact .inl rfl

lemma Invariant.moves (hinv : Invariant settings start scheduler)
    (h : scheduler.step settings (op, now) = some scheduler') :
    MovesBy settings.storeKey now (settings.leaseIds scheduler.attempts) op scheduler.snapshot
      scheduler'.snapshot := by
  rcases step_cases h with rfl | ⟨answer, hattempt, -⟩
  · exact ⟨Moved.refl fun _ state => .same state, Moved.refl fun _ state => .same state⟩
  · exact attempt_moves hinv.uniqueIds hinv.consistent hattempt

lemma Invariant.step (hids : Function.Injective2 settings.leaseIds)
    (hinv : Invariant settings start scheduler)
    (h : scheduler.step settings (op, now) = some scheduler') :
    Invariant settings start scheduler' := by
  have hmoves := hinv.moves h
  have hattempts : scheduler'.attempts = scheduler.attempts + 1 := by
    rcases step_cases h with rfl | ⟨_, -, hattempts⟩
    · rfl
    · exact hattempts
  refine ⟨hmoves.slots.frame.trans hinv.slots, hmoves.gpuDevices.frame.trans hinv.gpuDevices,
    hmoves.uniqueIds hinv.uniqueIds, ?_, ?_⟩
  · refine hinv.consistent.moves (fun i j hij => (hids hij).2) ?_ hmoves
    intro lease hlease i heq
    obtain ⟨n, hn, j, hj⟩ := hinv.drawn lease hlease
    exact absurd (hids (hj.symm.trans heq)).1 (Nat.ne_of_lt hn)
  · intro lease hlease
    rcases lease_of_moves hmoves hlease with hold | ⟨i, hi⟩
    · obtain ⟨n, hn, hi⟩ := hinv.drawn lease hold
      exact ⟨n, by omega, hi⟩
    · exact ⟨scheduler.attempts, by omega, i, leaseId_of_lease hi⟩

lemma invariant_of_reaches (hids : Function.Injective2 settings.leaseIds)
    {slots : List (SlotId × SlotCapacity)} {gpuDevices : List (GpuDeviceId × GpuDetails)}
    (h : Reaches (SequentialScheduler.step settings) anyStep (initial slots gpuDevices) scheduler) :
    Invariant settings (initResources slots gpuDevices) scheduler := by
  refine h.invariant (P := Invariant settings (initResources slots gpuDevices)) ?_ ?_
  · refine ⟨rfl, rfl, ⟨nodup_materialize slots, nodup_materialize gpuDevices⟩, ?_, ?_⟩
    · intro lease hlease
      rw [initial, leases_initResources] at hlease
      cases hlease
    · intro lease hlease
      rw [initial, leases_initResources] at hlease
      cases hlease
  · rintro scheduler scheduler' ⟨op, now⟩ hinv - hstep
    exact hinv.step hids hstep

end SequentialScheduler

/-! ## Group commits -/

section CommitGroup

variable {I D α : Type} [LinearOrder I]

/-- An entry may become reserved, and does if it is touched. -/
def ReservedIf (touched : Prop) (state state' : ResourceState) : Prop :=
  (state' = state ∨ ∃ reservation, state' = .reserved reservation) ∧
    (touched → ∃ reservation, state' = .reserved reservation)

lemma ReservedIf.trans {touched touched' : Prop} {s t u : ResourceState}
    (h : ReservedIf touched s t)
    (h' : ReservedIf touched' t u) : ReservedIf (touched ∨ touched') s u := by
  obtain ⟨hkeep, htouched⟩ := h
  obtain ⟨hkeep', htouched'⟩ := h'
  rcases hkeep' with rfl | hreserved
  · exact ⟨hkeep, fun h => h.elim htouched htouched'⟩
  · exact ⟨.inr hreserved, fun _ => hreserved⟩

omit [LinearOrder I] in
lemma moved_reservedIf_foldl (touched : α → I → Prop)
    {step : List (Resource I D) → α → List (Resource I D)}
    (hstep : ∀ (item : α) (resources : List (Resource I D)), (resources.map Resource.id).Nodup →
      Moved (fun id => ReservedIf (touched item id)) resources (step resources item)) :
    ∀ (items : List α) (resources : List (Resource I D)), (resources.map Resource.id).Nodup →
      Moved (fun id => ReservedIf (∃ item ∈ items, touched item id)) resources
        (items.foldl step resources)
  | [], _, _ => Moved.refl fun _ _ => ⟨.inl rfl, fun ⟨_, hmem, _⟩ => absurd hmem not_mem_nil⟩
  | item :: items, resources, hnodup => by
    have hfirst := hstep item resources hnodup
    have hrest := moved_reservedIf_foldl touched hstep items _ (hfirst.ids ▸ hnodup)
    refine hfirst.trans hrest ?_
    intro id s t u hst htu
    refine ⟨(hst.trans htu).1, ?_⟩
    rintro ⟨touching, hmem, htouched⟩
    refine (hst.trans htu).2 ?_
    rcases mem_cons.mp hmem with rfl | hmem
    · exact .inl htouched
    · exact .inr ⟨touching, hmem, htouched⟩

lemma moved_commitAll {reservation : Reservation} {ids : List I} {resources : List (Resource I D)}
    (hnodup : (resources.map Resource.id).Nodup) :
    Moved (fun id => ReservedIf (id ∈ ids)) resources (commitAll reservation ids resources) := by
  refine (moved_assignAll id (fun _ => .reserved reservation) ids resources hnodup
    fun _ _ _ _ _ => rfl).mono ?_
  rintro id s t ⟨hset, hkeep⟩
  by_cases hmem : id ∈ ids
  · exact ⟨.inr ⟨reservation, hset id hmem rfl⟩, fun _ => ⟨reservation, hset id hmem rfl⟩⟩
  · exact ⟨.inl (hkeep fun named hnamed heq => hmem (heq ▸ hnamed)), fun h => absurd h hmem⟩

end CommitGroup

lemma commitAllocations_entries (storeKey : Uuid) (groupId : Option Uuid)
    (allocations : List (Uuid × LeaseAllocation)) (current : SchedulerSnapshot) :
    let committed := allocations.foldl
      (fun snapshot entry => commitAllocation storeKey groupId entry.2 snapshot) current
    committed.slots = allocations.foldl (fun slots entry =>
        commitAll ⟨storeKey, some entry.2.taskId, groupId⟩ entry.2.slotIds slots) current.slots ∧
      committed.gpuDevices = allocations.foldl (fun devices entry =>
        commitAll ⟨storeKey, some entry.2.taskId, groupId⟩ entry.2.gpuDeviceIds devices)
          current.gpuDevices :=
  ⟨(foldl_hom SchedulerSnapshot.slots fun _ _ => rfl).symm,
    (foldl_hom SchedulerSnapshot.gpuDevices fun _ _ => rfl).symm⟩

variable {answer : SchedulerResponse} {op : SchedulerOp} {storeKey now : ℕ} {drawn : ℕ → Uuid}
variable {current next : SchedulerSnapshot}

/-- **A group commit leaves no lease of its group.** -/
theorem commitGroup_reserves {storeKey now groupId coordinatorNodeId : ℕ}
    {prepared : List PreparedTaskLease}
    (hunique : UniqueIds current) (hconsistent : Consistent current)
    (h : commitTaskLeaseGroup storeKey now groupId coordinatorNodeId prepared current =
      .ok (.publish next answer)) : Change
      (fun _ before after => ∀ lease, before = .leased lease → lease.groupId = some groupId →
        ∃ reservation, after = .reserved reservation)
      (fun _ before after => ∀ lease, before = .leased lease → lease.groupId = some groupId →
        ∃ reservation, after = .reserved reservation) current next := by
  obtain ⟨-, -, hslots, hgpus, -⟩ := commitGroup_eq_ok h
  -- The allocation of a lease of the group names every entry under that lease.
  have hentry : ∀ lease ∈ leases current, lease.groupId = some groupId →
      (lease.leaseId, (⟨lease.coordinatorNodeId, lease.taskId, lease.expiresAtUnixMs, lease.groupId,
        leasedIds current.slots lease.leaseId,
          leasedIds current.gpuDevices lease.leaseId⟩ : LeaseAllocation)) ∈
            allocationsOf current (groupLeaseIds current groupId) := by
    intro lease hlease hgroup
    -- every lease is in the index
    cases hindex : leaseIndex current lease.leaseId with
    | none =>
      rw [leaseIndex, Option.map_eq_none_iff, find?_eq_none] at hindex
      exact absurd (decide_eq_true rfl) (hindex lease hlease)
    | some allocation =>
      obtain ⟨found, -, -, rfl, honly⟩ := leaseIndex_eq_some hconsistent hindex
      rw [← honly lease hlease rfl] at hindex
      exact mem_allocationsOf.mpr ⟨mem_groupLeaseIds.mpr ⟨_, hindex, hgroup⟩, hindex⟩
  refine ⟨?_, ?_⟩
  · rw [hslots, (commitAllocations_entries ..).1]
    refine (moved_reservedIf_foldl (fun entry id => id ∈ entry.2.slotIds)
      (fun entry _ hnodup => moved_commitAll hnodup) _ _ hunique.slots).with_mem.mono ?_
    rintro id s t ⟨⟨-, htouched⟩, slot, hslot, rfl, rfl⟩ lease hstate hgroup
    refine htouched ⟨_, hentry lease (mem_leases_of_slot hslot hstate) hgroup, ?_⟩
    exact mem_leasedIds.mpr ⟨slot, hslot, rfl, lease, hstate, rfl⟩
  · rw [hgpus, (commitAllocations_entries ..).2]
    refine (moved_reservedIf_foldl (fun entry id => id ∈ entry.2.gpuDeviceIds)
      (fun entry _ hnodup => moved_commitAll hnodup) _ _ hunique.gpuDevices).with_mem.mono ?_
    rintro id s t ⟨⟨-, htouched⟩, device, hdevice, rfl, rfl⟩ lease hstate hgroup
    refine htouched ⟨_, hentry lease (mem_leases_of_gpu hdevice hstate) hgroup, ?_⟩
    exact mem_leasedIds.mpr ⟨device, hdevice, rfl, lease, hstate, rfl⟩

/-! ## Versions -/

/-- A loop whose rounds keep the version keeps it. -/
lemma version_foldl {α : Type} {step : SchedulerSnapshot → α → SchedulerSnapshot}
    (hstep : ∀ snapshot item, (step snapshot item).version = snapshot.version) :
    ∀ (items : List α) (snapshot : SchedulerSnapshot),
      (items.foldl step snapshot).version = snapshot.version
  | [], _ => rfl
  | item :: items, snapshot => by rw [foldl_cons, version_foldl hstep items, hstep]

lemma version_prepareIntents {lease : TaskLeaseIntent → ℕ → LeaseReservation}
    {current : SchedulerSnapshot} : ∀ {intents : List (TaskLeaseIntent × ℕ)}
    {preparing preparing' : Preparing}, prepareIntents lease current intents preparing =
      .ok preparing' → preparing'.snapshot.version = preparing.snapshot.version
  | [], preparing, preparing', h => by
    cases h
    rfl
  | (intent, i) :: intents, preparing, preparing', h => by
    rw [prepareIntents] at h
    split at h
    · cases h
    · next prepared hintent =>
        rw [version_prepareIntents h]
        rw [prepareIntent] at hintent
        split at hintent
        · cases hintent
          rfl
        · cases hintent

/-- **Every snapshot that is published has the next version.** -/
theorem attempt_version (h : op.attempt storeKey now drawn current = .ok (.publish next answer)) :
    next.version = current.version + 1 := by
  cases op with
  | reserve | free =>
    simp only [attempt, reserveResources, freeResources] at h
    split_ifs at h
    · cases h
    · obtain ⟨-, -, h⟩ := bind_eq_ok.mp h
      obtain ⟨-, -, h⟩ := bind_eq_ok.mp h
      exact (publishNext_eq_ok h).2.2
  | prepareExact expectedVersion coordinatorNodeId groupId ttlMs intents =>
    simp only [attempt, prepareExactTaskLeaseGroup] at h
    split_ifs at h
    · cases h
    · obtain ⟨-, -, h⟩ := bind_eq_ok.mp h
      obtain ⟨-, -, h⟩ := bind_eq_ok.mp h
      refine (publishNext_eq_ok h).2.2.trans (congrArg (· + 1) ?_)
      refine version_foldl ?_ _ _
      exact fun _ _ => rfl
  | prepare coordinatorNodeId groupId ttlMs intents =>
    simp only [attempt, prepareTaskLeases] at h
    split_ifs at h
    · cases h
    · obtain ⟨prepared, hprepared, h⟩ := bind_eq_ok.mp h
      rw [(publishNext_eq_ok h).2.2, version_prepareIntents hprepared]
      cases groupId <;> rfl
  | commit leaseId coordinatorNodeId taskId expectedSlotIds expectedGpuDeviceIds =>
    simp only [attempt, commitTaskLease] at h
    split at h
    · cases h
    · obtain ⟨-, -, h⟩ := bind_eq_ok.mp h
      split at h
      · cases h
      · obtain ⟨-, -, h⟩ := bind_eq_ok.mp h
        exact (publishNext_eq_ok h).2.2
  | commitGroup groupId coordinatorNodeId prepared =>
    simp only [attempt, commitTaskLeaseGroup, bind_eq_ok, require_eq_ok] at h
    obtain ⟨-, -, -, -, -, -, -, -, -, -, h⟩ := h
    split at h
    · cases h
    · refine (publishNext_eq_ok h).2.2.trans (congrArg (· + 1) ?_)
      refine version_foldl ?_ _ _
      exact fun _ _ => rfl
  | abort coordinatorNodeId intents =>
    simp only [attempt, abortTaskLeases] at h
    split_ifs at h
    · cases h
    · refine (publishChanged_eq_ok h).2.2.trans (congrArg (· + 1) ?_)
      refine version_foldl (fun _ intent => ?_) _ _
      rw [abortIntent]
      split
      · rfl
      · split_ifs <;> rfl
  | abortGroup coordinatorNodeId groupId =>
    refine (publishChanged_eq_ok h).2.2.trans (congrArg (· + 1) ?_)
    refine version_foldl ?_ _ _
    exact fun _ _ => rfl
  | reap =>
    simp only [attempt, reapExpiredLeases] at h
    split_ifs at h
    · cases h
    · exact (publishNext_eq_ok h).2.2

/-! ## Ownership over whole runs -/

/-- What may happen to an entry in one step. An operation selects an entry that was available by
putting the lease of one of its intents there. -/
structure OwnershipRules (storeKey now : ℕ) (drawn : ℕ → Uuid) (op : SchedulerOp) (names : Names)
    (before after : ResourceState) : Prop where
  /-- A reservation ends only by a free that names it or by the abort of its group. -/
  reserved : ∀ reservation, before = .reserved reservation → after = before ∨
    after = .free ∧ (names.frees ∨ op.Dissolves storeKey reservation)
  /-- A lease becomes a reservation by its own commit. Otherwise it is freed, unless it has run
  out, or its group is prepared anew: then the operation that clears it may also give the entry out.
  -/
  leased : ∀ lease, before = .leased lease → after = before ∨ after = .free ∨
    (∃ reservation, after = .reserved reservation ∧ op.Commits storeKey now lease reservation) ∨
    op.Reclaims now lease ∧ ((∃ reservation, after = .reserved reservation ∧
      names.reserves reservation) ∨ ∃ lease' i, after = .leased lease' ∧ names.leases i ∧
        op.lease now drawn i = some lease')
  /-- What the operation does not name or select stays as it is, or had a lease that it clears. -/
  untouched : ¬ names.frees →
    (∀ reservation, after = .reserved reservation → ¬ names.reserves reservation) →
    (∀ lease i, after = .leased lease → names.leases i → op.lease now drawn i ≠ some lease) →
    (∀ lease, before = .leased lease → ¬ op.Aborts lease ∧
      ∀ reservation, ¬ op.Commits storeKey now lease reservation) →
    (∀ reservation, before = .reserved reservation → ¬ op.Dissolves storeKey reservation) →
      after = before ∨ after = .free ∧ ∃ lease, before = .leased lease ∧ op.Reclaims now lease

lemma Move.rules {names : Names}
    {before after : ResourceState} (h : Move storeKey now drawn op names before after) :
    OwnershipRules storeKey now drawn op names before after := by
  constructor
  · rintro reservation rfl
    cases h with
    | same => exact .inl rfl
    | freed _ hfrees => exact .inr ⟨rfl, .inl hfrees⟩
    | dissolved _ hdissolves => exact .inr ⟨rfl, .inr hdissolves⟩
    | reserved _ _ havailable | leased _ _ _ havailable =>
      rcases havailable with h | ⟨_, h, _⟩ <;> cases h
  · rintro lease rfl
    cases h with
    | same => exact .inl rfl
    | reclaimed | freed | aborted => exact .inr (.inl rfl)
    | committed _ reservation hcommits =>
      exact .inr (.inr (.inl ⟨reservation, rfl, hcommits⟩))
    | reserved _ reservation havailable hnames =>
      rcases havailable with h | ⟨lease', h, hreclaims⟩
      · cases h
      · cases h
        exact .inr (.inr (.inr ⟨hreclaims, .inl ⟨reservation, rfl, hnames⟩⟩))
    | leased _ lease' i havailable hnames hlease =>
      rcases havailable with h | ⟨_, h, hreclaims⟩
      · cases h
      · cases h
        exact .inr (.inr (.inr ⟨hreclaims, .inr ⟨lease', i, rfl, hnames, hlease⟩⟩))
  · intro hfrees hreserves hleases hlease hreservation
    cases h with
    | same => exact .inl rfl
    | reclaimed lease hreclaims => exact .inr ⟨rfl, lease, rfl, hreclaims⟩
    | freed _ h => exact absurd h hfrees
    | aborted lease haborts => exact absurd haborts (hlease lease rfl).1
    | dissolved reservation hdissolves => exact absurd hdissolves (hreservation reservation rfl)
    | committed lease reservation hcommits =>
      exact absurd hcommits ((hlease lease rfl).2 reservation)
    | reserved _ reservation _ hnames => exact absurd hnames (hreserves reservation rfl)
    | leased _ lease i _ hnames hdrawn => exact absurd hdrawn (hleases lease i rfl hnames)

/-- A reservation that belongs to no group stays when nothing is freed by id. -/
lemma OwnershipRules.stays {names : Names} {reservation : Reservation} {after : ResourceState}
    (h : OwnershipRules storeKey now drawn op names (.reserved reservation) after)
    (hfrees : ¬ names.frees) (hgroup : reservation.groupId = none) :
    after = .reserved reservation := by
  rcases h.reserved reservation rfl with hsame | ⟨-, hfreed | hdissolves⟩
  · exact hsame
  · exact absurd hfreed hfrees
  · cases op with
    | abortGroup coordinatorNodeId groupId =>
      rw [SchedulerOp.Dissolves, hgroup] at hdissolves
      cases hdissolves.2
    | _ => exact absurd hdissolves id

/-- **Who holds what, in every state reached.** Entries keep their ids, order and capacities; a
lease id belongs to one lease; every step obeys the rules of ownership; and a group commit reserves
all of its group's leases or changes nothing. -/
theorem ownership_of_reaches {settings : SchedulerSettings} {slots : List (SlotId × SlotCapacity)}
    {gpuDevices : List (GpuDeviceId × GpuDetails)} {scheduler : SequentialScheduler}
    (hids : Function.Injective2 settings.leaseIds)
    (h : Reaches (SequentialScheduler.step settings) anyStep
      (SequentialScheduler.initial slots gpuDevices) scheduler) :
    (scheduler.snapshot.slots.map (fun slot => (slot.id, slot.details)) =
        (initResources slots gpuDevices).slots.map fun slot => (slot.id, slot.details)) ∧
    (scheduler.snapshot.gpuDevices.map (fun device => (device.id, device.details)) =
        (initResources slots gpuDevices).gpuDevices.map fun device => (device.id, device.details)) ∧
    UniqueIds scheduler.snapshot ∧ Consistent scheduler.snapshot ∧
    ∀ op now scheduler', scheduler.step settings (op, now) = some scheduler' →
      Change (fun id => OwnershipRules settings.storeKey now
          (settings.leaseIds scheduler.attempts) op (op.slotNames id))
        (fun id => OwnershipRules settings.storeKey now (settings.leaseIds scheduler.attempts) op
          (op.gpuNames id))
        scheduler.snapshot scheduler'.snapshot ∧
      ∀ groupId coordinatorNodeId prepared, op = .commitGroup groupId coordinatorNodeId prepared →
        scheduler'.snapshot = scheduler.snapshot ∨
        Change
          (fun _ before after => ∀ lease, before = .leased lease → lease.groupId = some groupId →
            ∃ reservation, after = .reserved reservation)
          (fun _ before after => ∀ lease, before = .leased lease → lease.groupId = some groupId →
            ∃ reservation, after = .reserved reservation)
          scheduler.snapshot scheduler'.snapshot := by
  have hinv := SequentialScheduler.invariant_of_reaches hids h
  refine ⟨hinv.slots, hinv.gpuDevices, hinv.uniqueIds, hinv.consistent, ?_⟩
  intro op now scheduler' hstep
  refine ⟨(hinv.moves hstep).mono (fun _ _ _ hmove => hmove.rules) fun _ _ _ hmove =>
    hmove.rules, ?_⟩
  rintro groupId coordinatorNodeId prepared rfl
  rcases SequentialScheduler.step_cases hstep with rfl | ⟨answer, hattempt, -⟩
  · exact .inl rfl
  · exact .inr (commitGroup_reserves hinv.uniqueIds hinv.consistent hattempt)

/-- Two slots of one CPU each. -/
def sampleSlots : List (SlotId × SlotCapacity) := [(0, ⟨1000, 1024, 0⟩), (1, ⟨1000, 1024, 0⟩)]

def sampleScheduler : SchedulerSettings := ⟨1, fun n i => Nat.pair n i⟩

/-- A workload that needs both slots. -/
def samplePrepare : SchedulerOp := .prepare 2 none 10 [⟨7, 2000, 2048, 0⟩]

theorem ownership_of_reaches_prepared :
    ∃ scheduler, Reaches (SequentialScheduler.step sampleScheduler) anyStep
      (SequentialScheduler.initial sampleSlots []) scheduler ∧
      Consistent scheduler.snapshot ∧ leases scheduler.snapshot ≠ [] := by
  have hids : Function.Injective2 sampleScheduler.leaseIds := fun _ _ _ _ h => Nat.pair_eq_pair.mp h
  exact (exists_reaches_of_runActions [(samplePrepare, 0)] (by decide +kernel)).imp
    fun scheduler ⟨hreach, hleases⟩ =>
      ⟨hreach, (ownership_of_reaches hids hreach).2.2.2.1, hleases⟩

/-- A lease on both slots runs out; a reservation of slot 0 takes it over without a commit, and slot
1, which the reservation does not name, becomes free. -/
theorem leased_slot_reserved_without_commit :
    ∃ scheduler scheduler',
      Reaches (SequentialScheduler.step sampleScheduler) anyStep
        (SequentialScheduler.initial sampleSlots []) scheduler ∧
      scheduler.step sampleScheduler (.reserve 1 [⟨0, 1, some 8, none⟩] [], 20) = some scheduler' ∧
      scheduler.snapshot.slots.map Resource.state =
        [.leased ⟨0, 2, 7, 10, none⟩, .leased ⟨0, 2, 7, 10, none⟩] ∧
      scheduler'.snapshot.slots.map Resource.state = [.reserved ⟨1, some 8, none⟩, .free] := by
  obtain ⟨scheduler, hreach, hbefore, hafter⟩ : ∃ scheduler,
      Reaches (SequentialScheduler.step sampleScheduler) anyStep
        (SequentialScheduler.initial sampleSlots []) scheduler ∧
      scheduler.snapshot.slots.map Resource.state =
        [.leased ⟨0, 2, 7, 10, none⟩, .leased ⟨0, 2, 7, 10, none⟩] ∧
      (scheduler.step sampleScheduler (.reserve 1 [⟨0, 1, some 8, none⟩] [], 20)).map
        (fun next => next.snapshot.slots.map Resource.state) =
          some [.reserved ⟨1, some 8, none⟩, .free] :=
    exists_reaches_of_runActions [(samplePrepare, 0)] (by decide +kernel)
  obtain ⟨scheduler', hstep, hafter⟩ := Option.map_eq_some_iff.mp hafter
  exact ⟨scheduler, scheduler', hreach, hstep, hbefore, hafter⟩

end Mantissa.Scheduler
