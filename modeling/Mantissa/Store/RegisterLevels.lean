import Mantissa.Store.RegisterCluster

/-!
# Writes that only rise

Some values of a register are not to be undone: a removal by an older row, an abort by a commit.
Such a rule is a level for every value, and it is kept as long as every write is at least as high as
all its author sees at that moment, and compaction ranks higher levels higher.

Then an entry is at least as high as every write it counts (`Rising`), whichever replicas the write
has passed through, and a replica that has received a value shows one at least as high from then on
(`Rising.exists_ge`). Nothing here depends on what the values are.
-/

namespace Mantissa.RegisterCluster

open MvReg List

variable {V A R L : Type*} [LinearOrder A] [LinearOrder R] [Preorder L]

/-- The write is at least as high as everything its author sees, and its counter is not at its end.
-/
def WritesUp (level : V → L) (c : RegisterCluster V A) (actor : A) (value : V) : Prop :=
  (c.replica actor).reg.clock.get actor < u64Max ∧
    ∀ e ∈ (c.replica actor).reg.entries, level e.value ≤ level value

/-- Every entry carries a write's value, and is at least as high as every write it counts. -/
structure Rising (level : V → L) (c : RegisterCluster V A) : Prop extends Causal c where
  origin : ∀ s ∈ c.history, ∀ e ∈ s.reg.entries,
    ∃ w ∈ c.writes, w.entry.value = e.value ∧ Covers e.clock w
  rising : ∀ s ∈ c.history, ∀ e ∈ s.reg.entries, ∀ w ∈ c.writes, Covers e.clock w →
    level w.entry.value ≤ level e.value

variable {level : V → L} {c : RegisterCluster V A}

lemma rising_init : (init : RegisterCluster V A).Rising level where
  toCausal := causal_init
  origin s hs e he := by
    obtain rfl := mem_singleton.mp hs
    cases he
  rising s hs e he := by
    obtain rfl := mem_singleton.mp hs
    cases he

/-- What a merged clock counts, one of its entries counts. -/
lemma Causal.exists_covers (h : c.Causal) {entries : List (MvRegEntry V A)} {w : WriteRecord V A}
    (hw : w ∈ c.writes) (hcov : Covers (joinClocks entries) w) :
    ∃ e ∈ entries, Covers e.clock w := by
  obtain ⟨e, he, heq⟩ := exists_get_joinClocks ((h.authored w hw).1.trans_le hcov)
  exact ⟨e, he, hcov.trans_eq heq.symm⟩

variable {s t : ReplicaState V A}

/-- **A replica that has received a value shows one at least as high.** -/
theorem Rising.exists_ge (h : c.Rising level) (hs : s ∈ c.history)
    (ht : t ∈ c.history) {e : MvRegEntry V A} (he : e ∈ s.reg.entries)
    (hle : e.clock ≤ t.reg.clock) : ∃ f ∈ t.reg.entries, level e.value ≤ level f.value := by
  obtain ⟨w, hw, hvalue, hcov⟩ := h.origin s hs e he
  obtain ⟨f, hf, hcovf⟩ := h.exists_covers hw (hcov.trans (hle w.actor))
  exact ⟨f, hf, hvalue ▸ h.rising t ht f hf w hw hcovf⟩

variable {a : A}

/-- A replica may move to any causal state whose entries come from entries at least as high. -/
lemma Rising.setReplica (h : c.Rising level) (hcausal : (c.setReplica a s).Causal)
    (hentries : ∀ e ∈ s.reg.entries, (∃ w ∈ c.writes, w.entry.value = e.value ∧ Covers e.clock w) ∧
      ∀ w ∈ c.writes, Covers e.clock w → level w.entry.value ≤ level e.value) :
    (c.setReplica a s).Rising level where
  toCausal := hcausal
  origin t ht e he := by
    rcases mem_history_setReplica.mp ht with ht | rfl
    · exact h.origin t ht e he
    · exact (hentries e he).1
  rising t ht e he := by
    rcases mem_history_setReplica.mp ht with ht | rfl
    · exact h.rising t ht e he
    · exact (hentries e he).2

lemma Rising.mergeAt (h : c.Rising level) (ht : t ∈ c.history) (a : A) :
    (c.mergeAt a t).Rising level := by
  refine h.setReplica (h.toCausal.mergeAt ht a) fun e he => ?_
  rcases entrySet_merge_subset _ _ he with he | he
  · exact ⟨h.origin _ (h.replica_mem a) e he, h.rising _ (h.replica_mem a) e he⟩
  · exact ⟨h.origin t ht e he, h.rising t ht e he⟩

/-- Compaction keeps the best of what it drops, and ranks higher levels higher. -/
lemma Rising.compactAt [LinearOrder V] {rank : MvRegEntry V A → R} (h : c.Rising level)
    (hrank : ∀ e f, rank e ≤ rank f → level e.value ≤ level f.value) (a : A) (maxValues : ℕ) :
    (c.compactAt rank a maxValues).Rising level := by
  refine h.setReplica (h.toCausal.compactAt rank a maxValues) fun e he => ?_
  have horigin := h.origin _ (h.replica_mem a)
  have hrising := h.rising _ (h.replica_mem a)
  rcases mem_compactWith he with he | ⟨top, htop, absorbed, habs, htopabs, hbest, rfl⟩
  · exact ⟨horigin e he, hrising e he⟩
  · constructor
    · obtain ⟨w, hw, hvalue, hcov⟩ := horigin top htop
      exact ⟨w, hw, hvalue, hcov.trans (le_joinClocks htopabs w.actor)⟩
    · intro w hw hcov
      obtain ⟨f, hf, hcovf⟩ := h.exists_covers hw hcov
      refine (hrising f (habs f hf) w hw hcovf).trans (hrank f top ?_)
      rcases Prod.Lex.toLex_le_toLex.mp (hbest f (habs f hf)) with hlt | heq
      · exact hlt.le
      · exact heq.1.le

lemma Rising.writeAt (h : c.Rising level) {v : V} (hup : c.WritesUp level a v) :
    (c.writeAt a v).Rising level where
  toCausal := h.toCausal.writeAt hup.1
  origin t ht e he := by
    rcases mem_history_writeAt.mp ht with ht | rfl
    · obtain ⟨w, hw, hvalue, hcov⟩ := h.origin t ht e he
      exact ⟨w, mem_append_left _ hw, hvalue, hcov⟩
    · rw [entries_write, mem_singleton] at he
      subst he
      exact ⟨c.nextWrite a v, mem_append_right _ (mem_singleton_self _), rfl, le_rfl⟩
  rising t ht e he w hw hcov := by
    rcases mem_history_writeAt.mp ht with ht | rfl
    · rcases mem_append.mp hw with hw | hw
      · exact h.rising t ht e he w hw hcov
      · -- no state there was has seen the counter of the new write
        obtain rfl := mem_singleton.mp hw
        exact absurd hcov (not_covers_nextWrite hup.1 ((le_clock he a).trans (h.fresh t ht a)))
    · rw [entries_write, mem_singleton] at he
      subst he
      rcases mem_append.mp hw with hw | hw
      · have hle := (h.covers_nextWrite_iff (v := v) hw).mp hcov
        obtain ⟨f, hf, hcovf⟩ := h.exists_covers hw (Covers.of_le hle)
        exact (h.rising _ (h.replica_mem a) f hf w hw hcovf).trans (hup.2 f hf)
      · obtain rfl := mem_singleton.mp hw
        exact le_rfl

/-! ## Replicas forget nothing -/

/-- The later cluster knows all earlier states and writes, and no replica's clock went back. -/
structure Extends (c c' : RegisterCluster V A) : Prop where
  history : ∀ s ∈ c.history, s ∈ c'.history
  writes : ∀ (i : ℕ) (w : WriteRecord V A), c.writes[i]? = some w → c'.writes[i]? = some w
  clock : ∀ a, (c.replica a).reg.clock ≤ (c'.replica a).reg.clock

lemma Extends.refl (c : RegisterCluster V A) : c.Extends c :=
  ⟨fun _ h => h, fun _ _ h => h, fun _ => le_rfl⟩

lemma Extends.trans {c' c'' : RegisterCluster V A} (h : c.Extends c') (h' : c'.Extends c'') :
    c.Extends c'' :=
  ⟨fun s hs => h'.history s (h.history s hs), fun i w hw => h'.writes i w (h.writes i w hw),
    fun a => (h.clock a).trans (h'.clock a)⟩

lemma extends_setReplica
    (h : (c.replica a).reg.clock ≤ s.reg.clock) : c.Extends (c.setReplica a s) where
  history t ht := mem_history_setReplica.mpr (.inl ht)
  writes _ _ hw := hw
  clock b := by
    rw [replica_setReplica]
    split_ifs with hba
    · exact hba ▸ h
    · exact le_rfl

lemma extends_mergeAt (c : RegisterCluster V A) (a : A) (t : ReplicaState V A) :
    c.Extends (c.mergeAt a t) := by
  refine extends_setReplica ?_
  rw [clock_merge]
  exact le_sup_left

lemma extends_compactAt [LinearOrder V] (c : RegisterCluster V A) (rank : MvRegEntry V A → R)
    (a : A) (maxValues : ℕ) : c.Extends (c.compactAt rank a maxValues) := by
  refine extends_setReplica ?_
  rw [clock_compactWith]

lemma extends_writeAt (c : RegisterCluster V A) (a : A) (v : V) : c.Extends (c.writeAt a v) where
  history t ht := mem_history_writeAt.mpr (.inl ht)
  writes i w hw := by
    rw [writes_writeAt, List.getElem?_append_left (List.getElem?_eq_some_iff.mp hw).1]
    exact hw
  clock b := by
    rw [replica_writeAt]
    split_ifs with hba
    · subst hba
      rw [clock_write]
      exact VectorClock.le_increment _ _
    · exact le_rfl

/-- What a replica once showed, it shows at least as high later. -/
lemma Rising.exists_ge_later {c' : RegisterCluster V A} (h : c.Rising level)
    (h' : c'.Rising level) (hext : c.Extends c') {e : MvRegEntry V A}
    (he : e ∈ (c.replica a).reg.entries) :
    ∃ f ∈ (c'.replica a).reg.entries, level e.value ≤ level f.value :=
  h'.exists_ge (hext.history _ (h.replica_mem a)) (h'.replica_mem a) he
    ((le_clock he).trans (hext.clock a))

/-! ## Received writes -/

/-- A state has every write it received below its clock. -/
def Heard (c : RegisterCluster V A) : Prop :=
  ∀ s ∈ c.history, ∀ i ∈ s.received, ∃ w, c.writes[i]? = some w ∧ w.entry.clock ≤ s.reg.clock

lemma heard_init : (init : RegisterCluster V A).Heard := by
  intro s hs i hi
  obtain rfl := mem_singleton.mp hs
  exact absurd hi (Finset.notMem_empty i)

lemma Heard.setReplica (h : c.Heard)
    (hs : ∀ i ∈ s.received, ∃ w, c.writes[i]? = some w ∧ w.entry.clock ≤ s.reg.clock) :
    (c.setReplica a s).Heard := by
  intro t ht
  rcases mem_history_setReplica.mp ht with ht | rfl
  · exact h t ht
  · exact hs

lemma Heard.mergeAt (h : c.Heard) (hc : c.Causal) (ht : t ∈ c.history)
    (a : A) : (c.mergeAt a t).Heard := by
  refine h.setReplica fun i hi => ?_
  rw [clock_merge]
  rcases Finset.mem_union.mp hi with hi | hi
  · obtain ⟨w, hw, hle⟩ := h _ (hc.replica_mem a) i hi
    exact ⟨w, hw, hle.trans le_sup_left⟩
  · obtain ⟨w, hw, hle⟩ := h t ht i hi
    exact ⟨w, hw, hle.trans le_sup_right⟩

lemma Heard.compactAt [LinearOrder V] {rank : MvRegEntry V A → R} (h : c.Heard) (hc : c.Causal)
    (a : A) (maxValues : ℕ) : (c.compactAt rank a maxValues).Heard := by
  refine h.setReplica fun i hi => ?_
  rw [clock_compactWith]
  exact h _ (hc.replica_mem a) i hi

lemma Heard.writeAt (h : c.Heard) (hc : c.Causal) {v : V} : (c.writeAt a v).Heard := by
  have hkeep : ∀ {i : ℕ} {clock : VectorClock A},
      (∃ w, c.writes[i]? = some w ∧ w.entry.clock ≤ clock) →
      ∃ w, (c.writeAt a v).writes[i]? = some w ∧ w.entry.clock ≤ clock := by
    rintro i clock ⟨w, hw, hle⟩
    exact ⟨w, (c.extends_writeAt a v).writes i w hw, hle⟩
  intro t ht i hi
  rcases mem_history_writeAt.mp ht with ht | rfl
  · exact hkeep (h t ht i hi)
  · rw [clock_write]
    rcases Finset.mem_insert.mp hi with rfl | hi
    · refine ⟨c.nextWrite a v, ?_, le_rfl⟩
      rw [writes_writeAt, getElem?_concat_length]
    · obtain ⟨w, hw, hle⟩ := h _ (hc.replica_mem a) i hi
      exact hkeep ⟨w, hw, hle.trans (VectorClock.le_increment _ _)⟩

/-- **A replica that received a write shows a value at least as high.** -/
theorem Rising.exists_ge_of_received (h : c.Rising level) (hheard : c.Heard) {i : ℕ}
    {w : WriteRecord V A} (hw : c.writes[i]? = some w) (hi : i ∈ (c.replica a).received) :
    ∃ f ∈ (c.replica a).reg.entries, level w.entry.value ≤ level f.value := by
  obtain ⟨w', hw', hle⟩ := hheard _ (h.replica_mem a) i hi
  obtain rfl := Option.some.inj (hw.symm.trans hw')
  obtain ⟨f, hf, hcov⟩ := h.exists_covers (mem_of_getElem? hw) (Covers.of_le hle)
  exact ⟨f, hf, h.rising _ (h.replica_mem a) f hf w (mem_of_getElem? hw) hcov⟩

end Mantissa.RegisterCluster
