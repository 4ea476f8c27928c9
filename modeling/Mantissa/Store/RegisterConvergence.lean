import Mantissa.Store.RegisterCluster

/-!
# Convergence of register replicas

**Without compaction** a register shows exactly the causally maximal writes among those its replica
has received (`Ledger.perm_causallyMaximal`). The bridge between clocks and causality is `Ledger`:
a state has received a write just when its clock lies above the write's, and one write is in the
past of another just when its clock lies below. Merging two registers is then taking maxima of a
union, which is why it is commutative, associative and idempotent, and why replicas that received
the same writes show the same values.

**With compaction** clocks no longer identify writes: the best entry takes over the clocks of what
was dropped, and two replicas can build one clock over different values. What rules that out is
`compactsWinners`: the values still visible outrank every write the register has absorbed. Then
each entry is either a write as it was made, or one whose value outranks every write below its
clock (`Settled`), and equal clocks mean equal values.
-/

namespace Mantissa.RegisterCluster

open MvReg List

variable {V A R : Type*} [LinearOrder V] [LinearOrder A] [LinearOrder R] {c : RegisterCluster V A}

/-! ## Causality without clocks -/

section Exchange

omit [LinearOrder V]

/-- The entries put by the writes with the given numbers. -/
def entriesOf (c : RegisterCluster V A) (ids : Finset ℕ) : Set (MvRegEntry V A) :=
  {e | ∃ i ∈ ids, ∃ w, c.writes[i]? = some w ∧ w.entry = e}

/-- The writes among `ids` that are not in the past of another of them. -/
def causallyMaximal (c : RegisterCluster V A) (ids : Finset ℕ) : List (WriteRecord V A) :=
  (c.writes.zipIdx.filter fun p => decide (p.2 ∈ ids ∧
    ∀ q ∈ c.writes.zipIdx, q.2 ∈ ids → p.2 ∉ q.1.past)).map Prod.fst

/-- Clocks tell what was received and what came before what. -/
structure Ledger (c : RegisterCluster V A) : Prop where
  received_lt : ∀ s ∈ c.history, ∀ i ∈ s.received, i < c.writes.length
  past_lt : ∀ w ∈ c.writes, ∀ i ∈ w.past, i < c.writes.length
  received_iff : ∀ s ∈ c.history, ∀ (i : ℕ) (w : WriteRecord V A), c.writes[i]? = some w →
    (i ∈ s.received ↔ w.entry.clock ≤ s.reg.clock)
  past_iff : ∀ (i j : ℕ) (w w' : WriteRecord V A), c.writes[i]? = some w →
    c.writes[j]? = some w' → (i ∈ w'.past ↔ w.entry.clock < w'.entry.clock)
  visible : ∀ s ∈ c.history, s.reg.entrySet = maxima MvRegEntry.clock (c.entriesOf s.received)

lemma entriesOf_finite (c : RegisterCluster V A) (ids : Finset ℕ) : (c.entriesOf ids).Finite := by
  refine (finite_toSet (c.writes.map WriteRecord.entry)).subset ?_
  rintro e ⟨i, -, w, hw, rfl⟩
  exact mem_map.mpr ⟨w, mem_of_getElem? hw, rfl⟩

lemma entriesOf_union (c : RegisterCluster V A) (ids ids' : Finset ℕ) :
    c.entriesOf (ids ∪ ids') = c.entriesOf ids ∪ c.entriesOf ids' := by
  ext e
  simp only [entriesOf, Finset.mem_union, or_and_right, exists_or, Set.mem_ofPred_eq, Set.mem_union]

/-- Writes at different positions have different clocks. -/
lemma Causal.index_eq (h : c.Causal) {i j : ℕ} {w w' : WriteRecord V A}
    (hw : c.writes[i]? = some w) (hw' : c.writes[j]? = some w')
    (heq : w.entry.clock = w'.entry.clock) : i = j := by
  obtain ⟨hi, rfl⟩ := List.getElem?_eq_some_iff.mp hw
  obtain ⟨hj, rfl⟩ := List.getElem?_eq_some_iff.mp hw'
  have hord := pairwise_iff_getElem.mp h.ordered
  rcases lt_trichotomy i j with hlt | heq' | hlt
  · exact absurd heq.ge (hord i j hi hj hlt)
  · exact heq'
  · exact absurd heq.le (hord j i hj hi hlt)

/-- The clock of a write identifies the entry it put. -/
lemma Causal.injOn_entriesOf (h : c.Causal) (ids : Finset ℕ) :
    Set.InjOn MvRegEntry.clock (c.entriesOf ids) := by
  rintro e ⟨i, -, w, hw, rfl⟩ f ⟨j, -, w', hw', rfl⟩ heq
  obtain rfl := h.index_eq hw hw' heq
  rw [Option.some.inj (hw.symm.trans hw')]

lemma ledger_init : (init : RegisterCluster V A).Ledger where
  received_lt s hs i hi := by
    obtain rfl := mem_singleton.mp hs
    cases hi
  past_lt w hw := by cases hw
  received_iff s hs i w hw := by cases hw
  past_iff i j w w' hw := by cases hw
  visible s hs := by
    obtain rfl := mem_singleton.mp hs
    ext e
    constructor
    · intro he
      cases he
    · rintro ⟨⟨i, hi, -⟩, -⟩
      cases hi

/-- Registers of one run merge into the maximal entries of both. -/
lemma Ledger.injOn_union (h : c.Ledger) (hc : c.Causal) {s t : ReplicaState V A}
    (hs : s ∈ c.history) (ht : t ∈ c.history) :
    Set.InjOn MvRegEntry.clock (s.reg.entrySet ∪ t.reg.entrySet) := by
  refine (hc.injOn_entriesOf (s.received ∪ t.received)).mono ?_
  rw [entriesOf_union, h.visible s hs, h.visible t ht]
  exact Set.union_subset_union maxima_subset maxima_subset

lemma Ledger.mergeAt (h : c.Ledger) (hc : c.Causal) {t : ReplicaState V A} (ht : t ∈ c.history)
    (a : A) : (c.mergeAt a t).Ledger := by
  have hs := hc.replica_mem a
  refine ⟨?_, h.past_lt, ?_, h.past_iff, ?_⟩
  · intro u hu i hi
    rcases mem_history_setReplica.mp hu with hu | rfl
    · exact h.received_lt u hu i hi
    · rcases Finset.mem_union.mp hi with hi | hi
      · exact h.received_lt _ hs i hi
      · exact h.received_lt t ht i hi
  · intro u hu i w hw
    rcases mem_history_setReplica.mp hu with hu | rfl
    · exact h.received_iff u hu i w hw
    · rw [Finset.mem_union, h.received_iff _ hs i w hw, h.received_iff t ht i w hw, clock_merge]
      constructor
      · rintro (hle | hle)
        · exact hle.trans le_sup_left
        · exact hle.trans le_sup_right
      · -- the join takes the author's counter from one side, and that side is closed
        intro hle
        have hcov : w.entry.clock.get w.actor
            ≤ max ((c.replica a).reg.clock.get w.actor) (t.reg.clock.get w.actor) := by
          rw [← VectorClock.get_merge]
          exact hle w.actor
        have hmem := mem_of_getElem? hw
        exact (le_max_iff.mp hcov).imp (hc.closed_clock hs w hmem) (hc.closed_clock ht w hmem)
  · intro u hu
    rcases mem_history_setReplica.mp hu with hu | rfl
    · exact h.visible u hu
    · change ((c.replica a).reg.merge t.reg).entrySet = maxima _ (c.entriesOf (_ ∪ _))
      rw [entrySet_merge (h.injOn_union hc hs ht), h.visible _ hs, h.visible t ht,
        maxima_union_maxima (entriesOf_finite c _) (entriesOf_finite c _), entriesOf_union]

/-! ## Writes -/

variable {a : A} {v : V}

lemma getElem?_writeAt {i : ℕ} {w : WriteRecord V A} : (c.writeAt a v).writes[i]? = some w ↔
      c.writes[i]? = some w ∨ (i = c.writes.length ∧ w = c.nextWrite a v) := by
  rw [writes_writeAt, getElem?_append]
  split_ifs with hi
  · exact ⟨.inl, fun h => h.resolve_right fun h' => hi.ne h'.1⟩
  · have hnone : c.writes[i]? = none := getElem?_eq_none (Nat.le_of_not_lt hi)
    rw [hnone, getElem?_singleton]
    constructor
    · intro h
      split_ifs at h with h0
      exact .inr ⟨by omega, (Option.some.inj h).symm⟩
    · rintro (h | ⟨rfl, rfl⟩)
      · cases h
      · simp

/-- Old sets of writes keep their entries. -/
lemma entriesOf_writeAt {ids : Finset ℕ} (hids : ∀ i ∈ ids, i < c.writes.length) :
    (c.writeAt a v).entriesOf ids = c.entriesOf ids := by
  ext e
  constructor
  · rintro ⟨i, hi, w, hw, rfl⟩
    rcases getElem?_writeAt.mp hw with hw | ⟨rfl, -⟩
    · exact ⟨i, hi, w, hw, rfl⟩
    · exact absurd (hids _ hi) (lt_irrefl _)
  · rintro ⟨i, hi, w, hw, rfl⟩
    exact ⟨i, hi, w, getElem?_writeAt.mpr (.inl hw), rfl⟩

/-- The next write dominates what its author received, so it alone is maximal. -/
lemma Ledger.maxima_writeAt (h : c.Ledger) (hc : c.Causal)
    (hlt : (c.replica a).reg.clock.get a < u64Max) :
    maxima MvRegEntry.clock ((c.writeAt a v).entriesOf
      (insert c.writes.length (c.replica a).received)) = {(c.nextWrite a v).entry} := by
  have hnew : (c.nextWrite a v).entry ∈ (c.writeAt a v).entriesOf
      (insert c.writes.length (c.replica a).received) :=
    ⟨c.writes.length, Finset.mem_insert_self _ _, c.nextWrite a v,
      getElem?_writeAt.mpr (.inr ⟨rfl, rfl⟩), rfl⟩
  -- every other entry is a received write, below the author's clock
  have hold : ∀ e ∈ (c.writeAt a v).entriesOf (insert c.writes.length (c.replica a).received),
      e = (c.nextWrite a v).entry ∨ e.clock < (c.nextWrite a v).entry.clock := by
    rintro e ⟨i, hi, w, hw, rfl⟩
    rcases getElem?_writeAt.mp hw with hw | ⟨-, rfl⟩
    · have hi' : i ∈ (c.replica a).received := by
        refine (Finset.mem_insert.mp hi).resolve_left fun heq => ?_
        subst heq
        rw [getElem?_eq_none le_rfl] at hw
        cases hw
      have hle := (h.received_iff _ (hc.replica_mem a) i w hw).mp hi'
      refine .inr (lt_of_le_not_ge (hle.trans (VectorClock.le_increment _ _)) fun hge => ?_)
      exact not_covers_nextWrite hlt (hle a) (Covers.of_le hge)
    · exact .inl rfl
  ext e
  constructor
  · rintro ⟨he, hmax⟩
    exact (hold e he).resolve_right (hmax _ hnew)
  · rintro rfl
    refine ⟨hnew, fun f hf hgt => ?_⟩
    rcases hold f hf with rfl | hlt'
    · exact lt_irrefl _ hgt
    · exact lt_asymm hlt' hgt

lemma Ledger.writeAt (h : c.Ledger) (hc : c.Causal)
    (hlt : (c.replica a).reg.clock.get a < u64Max) : (c.writeAt a v).Ledger := by
  have hs := hc.replica_mem a
  have hlength : (c.writeAt a v).writes.length = c.writes.length + 1 := by
    rw [writes_writeAt, length_append, length_singleton]
  -- nobody has received the write that is being made
  have hunseen : ∀ s ∈ c.history, ¬ (c.nextWrite a v).entry.clock ≤ s.reg.clock := fun s hs hle =>
    not_covers_nextWrite hlt (hc.fresh s hs a) (Covers.of_le hle)
  have hpast : ∀ (i : ℕ) (w : WriteRecord V A), c.writes[i]? = some w →
      (i ∈ (c.replica a).received ↔ w.entry.clock ≤ (c.nextWrite a v).entry.clock) := by
    intro i w hw
    rw [h.received_iff _ hs i w hw, ← hc.covers_nextWrite_iff (a := a) (v := v)
      (mem_of_getElem? hw)]
    refine ⟨fun hcov => ?_, Covers.of_le⟩
    exact ((hc.covers_nextWrite_iff (mem_of_getElem? hw)).mp hcov).trans
      (VectorClock.le_increment _ _)
  refine ⟨?_, ?_, ?_, ?_, ?_⟩
  · intro s hs' i hi
    rw [hlength]
    rcases mem_history_writeAt.mp hs' with hs' | rfl
    · exact (h.received_lt s hs' i hi).trans (Nat.lt_succ_self _)
    · rcases Finset.mem_insert.mp hi with rfl | hi
      · exact Nat.lt_succ_self _
      · exact (h.received_lt _ hs i hi).trans (Nat.lt_succ_self _)
  · intro w hw i hi
    rw [hlength]
    rw [writes_writeAt, mem_append, mem_singleton] at hw
    rcases hw with hw | rfl
    · exact (h.past_lt w hw i hi).trans (Nat.lt_succ_self _)
    · exact (h.received_lt _ hs i hi).trans (Nat.lt_succ_self _)
  · intro s hs' i w hw
    rcases mem_history_writeAt.mp hs' with hs' | rfl
    · rcases getElem?_writeAt.mp hw with hw | ⟨rfl, rfl⟩
      · exact h.received_iff s hs' i w hw
      · exact iff_of_false (fun hi => lt_irrefl _ (h.received_lt s hs' _ hi)) (hunseen s hs')
    · rw [clock_write, ← clock_nextWrite c a v, Finset.mem_insert]
      rcases getElem?_writeAt.mp hw with hw | ⟨rfl, rfl⟩
      · rw [← hpast i w hw]
        refine or_iff_right fun heq => ?_
        subst heq
        rw [getElem?_eq_none le_rfl] at hw
        cases hw
      · exact iff_of_true (.inl rfl) le_rfl
  · intro i j w w' hw hw'
    rcases getElem?_writeAt.mp hw' with hw' | ⟨rfl, rfl⟩
    · rcases getElem?_writeAt.mp hw with hw | ⟨rfl, rfl⟩
      · exact h.past_iff i j w w' hw hw'
      · have hmem := mem_of_getElem? hw'
        refine iff_of_false (fun hi => lt_irrefl _ (h.past_lt w' hmem _ hi)) fun hlt' => ?_
        exact hunseen _ (hc.replica_mem _) (hlt'.le.trans (hc.authored w' hmem).2)
    · rcases getElem?_writeAt.mp hw with hw | ⟨rfl, rfl⟩
      · change i ∈ (c.replica a).received ↔ _
        rw [hpast i w hw]
        refine ⟨fun hle => lt_of_le_not_ge hle fun hge => ?_, le_of_lt⟩
        exact hunseen _ (hc.replica_mem _) (hge.trans (hc.authored w (mem_of_getElem? hw)).2)
      · exact iff_of_false (fun hi => lt_irrefl _ (h.received_lt _ hs _ hi)) (lt_irrefl _)
  · intro s hs'
    rcases mem_history_writeAt.mp hs' with hs' | rfl
    · rw [entriesOf_writeAt (h.received_lt s hs'), h.visible s hs']
    · rw [h.maxima_writeAt hc hlt]
      ext e
      rw [mem_entrySet, entries_write, mem_singleton]
      rfl

/-- A register shows the causally maximal writes among those received. -/
lemma Ledger.perm_causallyMaximal (h : c.Ledger) (hc : c.Causal) {s : ReplicaState V A}
    (hs : s ∈ c.history) :
    s.reg.entries.Perm ((c.causallyMaximal s.received).map WriteRecord.entry) := by
  have hsub : List.Sublist (c.causallyMaximal s.received) c.writes := by
    have := (filter_sublist (l := c.writes.zipIdx) (p := fun p => decide (p.2 ∈ s.received ∧
      ∀ q ∈ c.writes.zipIdx, q.2 ∈ s.received → p.2 ∉ q.1.past))).map Prod.fst
    rwa [zipIdx_map_fst] at this
  have hnodup : (c.writes.map WriteRecord.entry).Nodup :=
    pairwise_map.mpr (hc.ordered.imp fun hle heq => hle (by rw [heq]))
  rw [perm_ext_iff_of_nodup s.reg.normalized.nodup (hnodup.sublist (hsub.map _))]
  intro e
  rw [← mem_entrySet, h.visible s hs]
  simp only [causallyMaximal, map_map, mem_map, mem_filter, decide_eq_true_eq,
    Prod.exists, Prod.forall, mem_zipIdx_iff_getElem?, Function.comp_apply]
  constructor
  · rintro ⟨⟨i, hi, w, hw, rfl⟩, hmax⟩
    refine ⟨w, i, ⟨hw, hi, fun w' j hw' hj hpast => ?_⟩, rfl⟩
    exact hmax w'.entry ⟨j, hj, w', hw', rfl⟩ ((h.past_iff i j w w' hw hw').mp hpast)
  · rintro ⟨w, i, ⟨hw, hi, hmax⟩, rfl⟩
    refine ⟨⟨i, hi, w, hw, rfl⟩, ?_⟩
    rintro f ⟨j, hj, w', hw', rfl⟩ hlt
    exact hmax w' j hw' hj ((h.past_iff i j w w' hw hw').mpr hlt)

end Exchange

/-! ## Convergence without compaction -/

/-- Exchange only: writes that do not run into the counter's end, and merges. -/
def exchanges (c : RegisterCluster V A) : RegisterAction V A → Prop
  | .write actor _ => (c.replica actor).reg.clock.get actor < u64Max
  | .merge _ _ => True
  | .compact _ _ => False

lemma causal_ledger_of_exchanges {rank : MvRegEntry V A → R}
    (h : Reaches (step rank) exchanges init c) : c.Causal ∧ c.Ledger := by
  refine h.invariant (P := fun c => c.Causal ∧ c.Ledger) ⟨causal_init, ledger_init⟩ ?_
  rintro x y act ⟨hc, hl⟩ hok hstep
  rcases step_cases hstep with ⟨a, v, rfl, rfl⟩ | ⟨a, i, t, rfl, ht, rfl⟩ | ⟨a, n, rfl, rfl⟩
  · exact ⟨hc.writeAt hok, hl.writeAt hc hok⟩
  · exact ⟨hc.mergeAt ht a, hl.mergeAt hc ht a⟩
  · exact hok.elim

/-- **Register convergence.** In every run of writes and merges, each state any replica is or was
in shows exactly the causally maximal writes it has received; hence merging is commutative,
associative and idempotent, and states that received the same writes show the same values. -/
theorem exchange_converges {rank : MvRegEntry V A → R}
    (h : Reaches (step rank) exchanges init c) :
    (∀ a, c.replica a ∈ c.history) ∧
    (∀ s ∈ c.history,
      s.reg.entries.Perm ((c.causallyMaximal s.received).map WriteRecord.entry)) ∧
    (∀ s ∈ c.history, ∀ t ∈ c.history,
      (s.reg.merge t.reg).entries.Perm (t.reg.merge s.reg).entries) ∧
    (∀ s ∈ c.history, ∀ t ∈ c.history, ∀ u ∈ c.history,
      ((s.reg.merge t.reg).merge u.reg).entries.Perm
        (s.reg.merge (t.reg.merge u.reg)).entries) ∧
    (∀ s ∈ c.history, (s.reg.merge s.reg).entries.Perm s.reg.entries) ∧
    (∀ s ∈ c.history, ∀ t ∈ c.history,
      s.received = t.received → s.reg.snapshot = t.reg.snapshot) := by
  obtain ⟨hc, hl⟩ := causal_ledger_of_exchanges h
  refine ⟨hc.replica_mem, fun s hs => hl.perm_causallyMaximal hc hs, ?_, ?_, ?_, ?_⟩
  · intro s hs t ht
    exact perm_iff.mpr (entrySet_merge_comm (hl.injOn_union hc hs ht))
  · intro s hs t ht u hu
    refine perm_iff.mpr (entrySet_merge_assoc ?_)
    refine (hc.injOn_entriesOf (s.received ∪ t.received ∪ u.received)).mono ?_
    rw [entriesOf_union, entriesOf_union, hl.visible s hs, hl.visible t ht, hl.visible u hu]
    exact Set.union_subset_union (Set.union_subset_union maxima_subset maxima_subset) maxima_subset
  · intro s _
    exact perm_iff.mpr entrySet_merge_self
  · intro s hs t ht hrec
    refine snapshot_eq_of_entrySet_eq ?_
    rw [hl.visible s hs, hl.visible t ht, hrec]

/-- Two replicas write concurrently and each merges the other's state. -/
def crossMerge : List (RegisterAction ℕ ℕ) :=
  [.write 0 5, .write 1 7, .merge 0 2, .merge 1 1]

instance (c : RegisterCluster V A) : ∀ act : RegisterAction V A, Decidable (c.exchanges act)
  | .write actor _ => Nat.decLt ((c.replica actor).reg.clock.get actor) u64Max
  | .merge _ _ => instDecidableTrue
  | .compact _ _ => instDecidableFalse

/-- After `crossMerge` both replicas have received both writes, so they show the same values. -/
theorem exchange_converges_crossMerge :
    ∃ c : RegisterCluster ℕ ℕ, Reaches (step MvRegEntry.value) exchanges init c ∧
      (c.replica 0).received = {0, 1} ∧ (c.replica 0).reg.readValues = [5, 7] ∧
      (c.replica 0).reg.snapshot = (c.replica 1).reg.snapshot := by
  have hreach : Reaches (step (A := ℕ) MvRegEntry.value) exchanges init _ :=
    reaches_of_runActions crossMerge rfl
  have hconv := exchange_converges hreach
  exact ⟨_, hreach, by decide, by decide, hconv.2.2.2.2.2 _ (hconv.1 0) _ (hconv.1 1) (by decide)⟩

/-! ## Convergence with compaction -/

section Compaction

variable {rank : V → R}

/-- What compaction ranks a value by: its rank, and the value where ranks tie. -/
def standing (rank : V → R) (v : V) : R ×ₗ V := toLex (rank v, v)

/-- Writes stay below the counter's end, and whenever a compaction drops something, each write the
register has absorbed is outranked by a value the register still shows. -/
def compactsWinners (rank : V → R) (c : RegisterCluster V A) : RegisterAction V A → Prop
  | .write actor _ => (c.replica actor).reg.clock.get actor < u64Max
  | .merge _ _ => True
  | .compact actor maxValues =>
    maxValues ≠ 0 → maxValues < (c.replica actor).reg.entries.length →
    ∀ w ∈ c.writes, w.entry.clock ≤ (c.replica actor).reg.clock →
      ∃ e ∈ (c.replica actor).reg.entries, standing rank w.entry.value ≤ standing rank e.value

/-- An entry that compaction built: its clock is no write's, and its value is that of a write below
it which outranks every write below it. -/
structure Fabricated (rank : V → R) (writes : List (WriteRecord V A)) (e : MvRegEntry V A) :
    Prop where
  outranks : ∀ w ∈ writes, w.entry.clock ≤ e.clock →
    standing rank w.entry.value ≤ standing rank e.value
  origin : ∃ w ∈ writes, w.entry.clock ≤ e.clock ∧ w.entry.value = e.value
  clock_ne : ∀ w ∈ writes, w.entry.clock ≠ e.clock

/-- An entry is a write as it was made, or was built by compaction. -/
def Settled (rank : V → R) (writes : List (WriteRecord V A)) (e : MvRegEntry V A) : Prop :=
  (∃ w ∈ writes, w.entry = e) ∨ Fabricated rank writes e

variable {e f : MvRegEntry V A}

lemma Settled.origin (h : Settled rank c.writes e) :
    ∃ w ∈ c.writes, w.entry.clock ≤ e.clock ∧ w.entry.value = e.value := by
  rcases h with ⟨w, hw, rfl⟩ | h
  · exact ⟨w, hw, le_rfl, rfl⟩
  · exact h.origin

lemma Fabricated.standing_le (he : Fabricated rank c.writes e)
    (hf : Fabricated rank c.writes f) (heq : e.clock = f.clock) :
    standing rank e.value ≤ standing rank f.value := by
  obtain ⟨w, hw, hle, hval⟩ := he.origin
  exact hval ▸ hf.outranks w hw (heq ▸ hle)

/-- Where all entries are settled, equal clocks carry equal values. -/
theorem Settled.value_eq (hc : c.Causal) (he : Settled rank c.writes e)
    (hf : Settled rank c.writes f) (heq : e.clock = f.clock) : e.value = f.value := by
  rcases he with ⟨w, hw, rfl⟩ | he
  · rcases hf with ⟨w', hw', rfl⟩ | hf
    · obtain ⟨i, hi⟩ := mem_iff_getElem?.mp hw
      obtain ⟨j, hj⟩ := mem_iff_getElem?.mp hw'
      obtain rfl := hc.index_eq hi hj heq
      rw [Option.some.inj (hi.symm.trans hj)]
    · exact absurd heq (hf.clock_ne w hw)
  · rcases hf with ⟨w', hw', rfl⟩ | hf
    · exact absurd heq.symm (he.clock_ne w' hw')
    · exact congrArg Prod.snd (toLex_inj.mp
        (le_antisymm (he.standing_le hf heq) (hf.standing_le he heq.symm)))

/-- A new write changes nothing for entries that were there: none has seen its counter. -/
lemma Settled.writeAt {a : A} {v : V} (h : Settled rank c.writes e)
    (hnew : ¬ (c.nextWrite a v).entry.clock ≤ e.clock) : Settled rank (c.writeAt a v).writes e := by
  rcases h with ⟨w, hw, rfl⟩ | h
  · exact .inl ⟨w, mem_append_left _ hw, rfl⟩
  · obtain ⟨w, hw, hle, hval⟩ := h.origin
    refine .inr ⟨?_, ⟨w, mem_append_left _ hw, hle, hval⟩, ?_⟩
    · intro w' hw' hle'
      rcases mem_append.mp hw' with hw' | hw'
      · exact h.outranks w' hw' hle'
      · obtain rfl := mem_singleton.mp hw'
        exact absurd hle' hnew
    · intro w' hw' heq
      rcases mem_append.mp hw' with hw' | hw'
      · exact h.clock_ne w' hw' heq
      · obtain rfl := mem_singleton.mp hw'
        exact hnew heq.le

variable {absorbed : List (MvRegEntry V A)} {s : ReplicaState V A}

omit [LinearOrder V] in
/-- A write whose clock is the merged clock of concurrent entries is one of those entries. -/
lemma Causal.exists_eq_of_clock_eq (hc : c.Causal) (hs : s ∈ c.history)
    (habs : ∀ f ∈ absorbed, f ∈ s.reg.entries)
    {w : WriteRecord V A} (hw : w ∈ c.writes) (heq : w.entry.clock = joinClocks absorbed) :
    ∃ e ∈ absorbed, e.clock = joinClocks absorbed := by
  have hpos : 0 < (joinClocks absorbed).get w.actor := heq ▸ (hc.authored w hw).1
  obtain ⟨e, he, hget⟩ := exists_get_joinClocks hpos
  refine ⟨e, he, le_antisymm (le_joinClocks he) ?_⟩
  rw [← heq]
  refine hc.closed s hs e (habs e he) w hw ?_
  change w.entry.clock.get w.actor ≤ e.clock.get w.actor
  rw [hget, heq]

/-- The entry a compaction builds is settled. -/
lemma settled_absorbed (hc : c.Causal) (hs : s ∈ c.history)
    (hsettled : ∀ e ∈ s.reg.entries, Settled rank c.writes e)
    (hwin : ∀ w ∈ c.writes, w.entry.clock ≤ s.reg.clock →
      ∃ e ∈ s.reg.entries, standing rank w.entry.value ≤ standing rank e.value)
    {top : MvRegEntry V A} (habs : ∀ f ∈ absorbed, f ∈ s.reg.entries) (htop : top ∈ absorbed)
    (hbest : ∀ f ∈ s.reg.entries, standing rank f.value ≤ standing rank top.value) :
    Settled rank c.writes ⟨joinClocks absorbed, top.value⟩ := by
  have hjoin : joinClocks absorbed ≤ s.reg.clock :=
    joinClocks_le_iff.mpr fun f hf => le_clock (habs f hf)
  by_cases hsame : ∃ e ∈ absorbed, e.clock = joinClocks absorbed
  · -- nothing was absorbed that `top` had not seen: the antichain leaves only `top`
    obtain ⟨e, he, heq⟩ := hsame
    obtain rfl : top = e := s.reg.normalized.eq_of_le (habs top htop) (habs e he)
      ((le_joinClocks htop).trans_eq heq.symm)
    rw [← heq]
    exact hsettled top (habs top htop)
  · obtain ⟨w, hw, hle, hval⟩ := (hsettled top (habs top htop)).origin
    refine .inr ⟨?_, ⟨w, hw, hle.trans (le_joinClocks htop), hval⟩, ?_⟩
    · intro w' hw' hle'
      obtain ⟨e, he, hstand⟩ := hwin w' hw' (hle'.trans hjoin)
      exact hstand.trans (hbest e he)
    · exact fun w' hw' heq => hsame (hc.exists_eq_of_clock_eq hs habs hw' heq)

/-- Every visible entry of every state is settled. -/
def AllSettled (rank : V → R) (c : RegisterCluster V A) : Prop :=
  ∀ s ∈ c.history, ∀ e ∈ s.reg.entries, Settled rank c.writes e

lemma AllSettled.writeAt {a : A} {v : V} (h : AllSettled rank c) (hc : c.Causal)
    (hlt : (c.replica a).reg.clock.get a < u64Max) : AllSettled rank (c.writeAt a v) := by
  intro s hs e he
  rcases mem_history_writeAt.mp hs with hs | rfl
  · refine (h s hs e he).writeAt fun hle => ?_
    exact not_covers_nextWrite hlt ((le_clock he a).trans (hc.fresh s hs a)) (Covers.of_le hle)
  · rw [entries_write, mem_singleton] at he
    exact .inl ⟨c.nextWrite a v, by simp, he.symm⟩

lemma AllSettled.mergeAt (h : AllSettled rank c) (hc : c.Causal) {t : ReplicaState V A}
    (ht : t ∈ c.history) (a : A) : AllSettled rank (c.mergeAt a t) := by
  intro s hs e he
  rcases mem_history_setReplica.mp hs with hs | rfl
  · exact h s hs e he
  · rcases entrySet_merge_subset _ _ he with he | he
    · exact h _ (hc.replica_mem a) e he
    · exact h t ht e he

lemma AllSettled.compactAt (h : AllSettled rank c) (hc : c.Causal) {a : A} {maxValues : ℕ}
    (hok : compactsWinners rank c (.compact a maxValues)) :
    AllSettled rank (c.compactAt (fun e => rank e.value) a maxValues) := by
  intro s hs e he
  have hmem := hc.replica_mem a
  rcases mem_history_setReplica.mp hs with hs | rfl
  · exact h s hs e he
  · by_cases hskip : maxValues = 0 ∨ (c.replica a).reg.entries.length ≤ maxValues
    · rw [compactWith, if_pos hskip] at he
      exact h _ hmem e he
    · push Not at hskip
      rcases mem_compactWith he with he | ⟨top, -, absorbed, habs, htop, hbest, rfl⟩
      · exact h _ hmem e he
      · exact settled_absorbed hc hmem (h _ hmem) (hok hskip.1 hskip.2) habs htop hbest

/-- **Convergence with compaction.** In every run whose compactions keep winners, no two entries of
any two states carry different values under one clock, and merging two states into each other
shows the same values on both sides. -/
theorem compaction_converges (rank : V → R)
    (h : Reaches (step fun e : MvRegEntry V A => rank e.value) (compactsWinners rank) init c) :
    (∀ a, c.replica a ∈ c.history) ∧
    (∀ s ∈ c.history, ∀ t ∈ c.history, ∀ e ∈ s.reg.entries, ∀ f ∈ t.reg.entries,
      e.clock = f.clock → e.value = f.value) ∧
    (∀ s ∈ c.history, ∀ t ∈ c.history,
      (s.reg.merge t.reg).snapshot = (t.reg.merge s.reg).snapshot) := by
  obtain ⟨hc, hsettled⟩ : c.Causal ∧ AllSettled rank c := by
    refine h.invariant (P := fun c => c.Causal ∧ AllSettled rank c) ⟨causal_init, ?_⟩ ?_
    · intro s hs e he
      obtain rfl := mem_singleton.mp hs
      cases he
    · rintro x y act ⟨hc, hs⟩ hok hstep
      rcases step_cases hstep with ⟨a, v, rfl, rfl⟩ | ⟨a, i, t, rfl, ht, rfl⟩ | ⟨a, n, rfl, rfl⟩
      · exact ⟨hc.writeAt hok, hs.writeAt hc hok⟩
      · exact ⟨hc.mergeAt ht a, hs.mergeAt hc ht a⟩
      · exact ⟨hc.compactAt _ a n, hs.compactAt hc hok⟩
  have hvalue : ∀ s ∈ c.history, ∀ t ∈ c.history, ∀ e ∈ s.reg.entries, ∀ f ∈ t.reg.entries,
      e.clock = f.clock → e.value = f.value := fun s hs t ht e he f hf =>
    (hsettled s hs e he).value_eq hc (hsettled t ht f hf)
  refine ⟨hc.replica_mem, hvalue, fun s hs t ht => ?_⟩
  refine snapshot_eq_of_entrySet_eq (entrySet_merge_comm ?_)
  have hfrom : ∀ e ∈ s.reg.entrySet ∪ t.reg.entrySet, ∃ u ∈ c.history, e ∈ u.reg.entries := by
    rintro e (he | he)
    · exact ⟨s, hs, he⟩
    · exact ⟨t, ht, he⟩
  intro e he f hf heq
  obtain ⟨u, hu, he⟩ := hfrom e he
  obtain ⟨u', hu', hf⟩ := hfrom f hf
  cases f
  obtain rfl : _ = _ := heq
  rw [MvRegEntry.mk.injEq]
  exact ⟨rfl, hvalue u hu u' hu' _ he _ hf rfl⟩

/-- Two replicas write concurrently, both merge both writes, and both compact to one value. -/
def compactBoth : List (RegisterAction ℕ ℕ) :=
  [.write 0 5, .write 1 7, .merge 0 2, .merge 1 1, .compact 0 1, .compact 1 1]

instance (c : RegisterCluster V A) : ∀ act, Decidable (compactsWinners rank c act)
  | .write actor _ => Nat.decLt ((c.replica actor).reg.clock.get actor) u64Max
  | .merge _ _ => instDecidableTrue
  | .compact actor maxValues => inferInstanceAs (Decidable (maxValues ≠ 0 →
      maxValues < (c.replica actor).reg.entries.length →
      ∀ w ∈ c.writes, w.entry.clock ≤ (c.replica actor).reg.clock →
        ∃ e ∈ (c.replica actor).reg.entries,
          standing rank w.entry.value ≤ standing rank e.value))

/-- `compactBoth` keeps winners: both replicas keep the higher value under one clock. -/
theorem compaction_converges_compactBoth :
    ∃ c : RegisterCluster ℕ ℕ,
      Reaches (step fun e : MvRegEntry ℕ ℕ => e.value) (compactsWinners fun v => v) init c ∧
      (c.replica 0).reg.readValues = [7] ∧
      ((c.replica 0).reg.merge (c.replica 1).reg).snapshot
        = ((c.replica 1).reg.merge (c.replica 0).reg).snapshot := by
  refine (exists_reaches_of_runActions compactBoth (by decide +kernel)).imp
    fun c ⟨hreach, hvals⟩ => ⟨hreach, hvals, ?_⟩
  obtain ⟨hmem, -, hmerge⟩ := compaction_converges (fun v : ℕ => v) hreach
  exact hmerge (c.replica 0) (hmem 0) (c.replica 1) (hmem 1)

/-- Actor 1 overwrites the value 3 of actor 0 with 2 while actor 2 writes 1. Replica 3 meets 3 and
1 first and compacts before it hears of 2; replica 4 hears of 2 and 1 only. -/
def crossCompaction : List (RegisterAction ℕ ℕ) :=
  [.write 0 3, .merge 1 1, .write 1 2, .write 2 1,
   .merge 3 1, .merge 3 4, .compact 3 1, .merge 3 3, .compact 3 1,
   .merge 4 3, .merge 4 4, .compact 4 1]

/-- Replicas 3 and 4 of `crossCompaction` end with one clock over different values, and merging
them into each other leaves them apart. -/
theorem crossCompaction_diverges :
    ∃ c : RegisterCluster ℕ ℕ, Reaches (step fun e : MvRegEntry ℕ ℕ => e.value) anyStep init c ∧
      (∃ e ∈ (c.replica 3).reg.entries, ∃ f ∈ (c.replica 4).reg.entries,
        e.clock = f.clock ∧ e.value ≠ f.value) ∧
      ((c.replica 3).reg.merge (c.replica 4).reg).snapshot
        ≠ ((c.replica 4).reg.merge (c.replica 3).reg).snapshot := by
  refine exists_reaches_of_runActions crossCompaction ?_
  decide +kernel

end Compaction

end Mantissa.RegisterCluster
