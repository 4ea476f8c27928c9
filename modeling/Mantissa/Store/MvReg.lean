import Mantissa.Core.Maxima
import Mantissa.Store.VectorClock

/-!
# The multi-value register

`mvreg.rs::MvReg` is a list of entries, each a value under the vector clock that wrote it. The
list is private to its module, and every operation leaves it *normalized*: no entry's clock is
empty and no two clocks are comparable. `MvReg` carries that as a field, so a register that
breaks it cannot be built — exactly the registers the Rust type admits.

Each operation is translated on entry lists first (`putEntries`, `mergeEntries`), with a lemma
saying which entries it keeps, and then packed with the proof that the result is normalized. What
later files use is the membership lemmas: `mem_merge` says the two filters of `merge` are
`mergeMaxima`, and `entries_write` says a write leaves one entry, its own.
-/

namespace Mantissa

open VectorClock List

/-- `MvRegEntry`: a value and the clock that introduced it. -/
structure MvRegEntry (V A : Type*) [LinearOrder A] where
  clock : VectorClock A
  value : V
  deriving DecidableEq

variable {V A : Type*} [LinearOrder A]

/-- Neither entry has seen the other. -/
def Concurrent (e f : MvRegEntry V A) : Prop := ¬ e.clock ≤ f.clock ∧ ¬ f.clock ≤ e.clock

instance : Std.Symm (Concurrent : MvRegEntry V A → MvRegEntry V A → Prop) :=
  ⟨fun _ _ h => ⟨h.2, h.1⟩⟩

/-- No visible entry has an empty clock, and no two visible entries are causally comparable. -/
def Normalized (entries : List (MvRegEntry V A)) : Prop :=
  entries.Pairwise Concurrent ∧ ∀ e ∈ entries, e.clock ≠ ⊥

variable {entries : List (MvRegEntry V A)}

variable (h : Normalized entries)

include h

lemma Normalized.filter (p : MvRegEntry V A → Bool) : Normalized (entries.filter p) :=
  ⟨h.1.filter p, fun e he => h.2 e (mem_of_mem_filter he)⟩

variable {e : MvRegEntry V A} {f : MvRegEntry V A}

/-- Comparable entries of a normalized list are one entry. -/
lemma Normalized.eq_of_le (he : e ∈ entries) (hf : f ∈ entries) (hle : e.clock ≤ f.clock) :
    e = f := by
  by_contra hne
  exact (h.1.forall he hf hne).1 hle

lemma Normalized.not_lt (he : e ∈ entries) (hf : f ∈ entries) : ¬ e.clock < f.clock := by
  intro hlt
  obtain rfl := h.eq_of_le he hf hlt.le
  exact lt_irrefl _ hlt

lemma Normalized.nodup : entries.Nodup := h.1.imp fun {e f} hc heq => hc.1 (by rw [heq])

/-- `MvReg`: the active entries of one register. -/
@[ext] structure MvReg (V A : Type*) [LinearOrder A] where
  entries : List (MvRegEntry V A)
  normalized : Normalized entries

instance [DecidableEq V] : DecidableEq (MvReg V A) := fun r s =>
  decidable_of_iff (r.entries = s.entries) MvReg.ext_iff.symm

/-! ## One put -/

/-- The body of `MvReg::apply_put` on an entry list. -/
def putEntries (entries : List (MvRegEntry V A)) (clock : VectorClock A) (value : V) :
    List (MvRegEntry V A) :=
  if clock.isEmpty then entries
  else
    let retained := entries.filter fun entry =>
      decide (entry.clock.partialCmp clock = none ∨ entry.clock.partialCmp clock = some .gt)
    let shouldAdd := retained.all fun entry =>
      decide (entry.clock.partialCmp clock ≠ some .gt)
    if shouldAdd then retained ++ [⟨clock, value⟩] else retained

omit h in
lemma putEntries_eq {clock : VectorClock A} {value : V} (hc : clock ≠ ⊥) :
    putEntries entries clock value = (entries.filter fun e => ¬ e.clock ≤ clock) ++
          if ∀ f ∈ entries, ¬ clock < f.clock then [⟨clock, value⟩] else [] := by
  have hne : clock.isEmpty ≠ true := fun h => hc (isEmpty_iff_eq_bot.mp h)
  have hall : ((entries.filter fun e => decide (¬ e.clock ≤ clock)).all fun e =>
      decide (¬ clock < e.clock)) = true ↔ ∀ f ∈ entries, ¬ clock < f.clock := by
    simp only [all_eq_true, mem_filter, decide_eq_true_eq]
    constructor
    · intro h f hf hlt
      exact h f ⟨hf, not_le_of_gt hlt⟩ hlt
    · intro h f hf
      exact h f hf.1
  unfold putEntries
  rw [if_neg hne]
  simp only [partialCmp_none_or_gt]
  simp only [ne_eq, partialCmp_eq_gt, hall]
  split_ifs
  · rfl
  · rw [append_nil]

omit h in
lemma mem_putEntries {clock : VectorClock A} {value : V} (hc : clock ≠ ⊥) :
    e ∈ putEntries entries clock value ↔ (e ∈ entries ∧ ¬ e.clock ≤ clock) ∨
        (e = ⟨clock, value⟩ ∧ ∀ f ∈ entries, ¬ clock < f.clock) := by
  rw [putEntries_eq hc, mem_append, mem_filter, decide_eq_true_eq]
  split_ifs with h
  · simp only [mem_singleton]
    exact or_congr_right ⟨fun he => ⟨he, h⟩, fun he => he.1⟩
  · simp [h]

lemma normalized_putEntries
    (clock : VectorClock A) (value : V) : Normalized (putEntries entries clock value) := by
  by_cases hc : clock = ⊥
  · rw [putEntries, if_pos (isEmpty_iff_eq_bot.mpr hc)]
    exact h
  · rw [putEntries_eq hc]
    split_ifs with hadd
    · refine ⟨pairwise_append.mpr ⟨(h.filter _).1, pairwise_singleton _ _, ?_⟩, ?_⟩
      · intro e he f hf
        rw [mem_filter, decide_eq_true_eq] at he
        obtain rfl := mem_singleton.mp hf
        refine ⟨he.2, fun hle => ?_⟩
        -- the new clock may not lie below what is kept: neither strictly nor by equality
        exact hadd e he.1 (lt_of_le_not_ge hle he.2)
      · intro e he
        rcases mem_append.mp he with he | he
        · exact (h.filter _).2 e he
        · obtain rfl := mem_singleton.mp he
          exact hc
    · rw [append_nil]
      exact h.filter _

/-! ## Merging -/

/-- The body of `MvReg::merge` on entry lists: drop what the other side dominates, then append
what the remaining entries neither dominate nor already carry. -/
def mergeEntries (entries other : List (MvRegEntry V A)) : List (MvRegEntry V A) :=
  let retained := entries.filter fun entry =>
    !other.any fun otherEntry => decide (entry.clock.partialCmp otherEntry.clock = some .lt)
  let incoming := (other.filter fun entry =>
    !retained.any fun current => decide (entry.clock.partialCmp current.clock = some .lt)).filter
      fun entry => retained.all fun current => decide (entry.clock ≠ current.clock)
  retained ++ incoming

variable {other : List (MvRegEntry V A)}

omit h in
lemma mem_mergeEntries (ho : Normalized other) : e ∈ mergeEntries entries other ↔
      (e ∈ entries ∧ ∀ f ∈ other, ¬ e.clock < f.clock) ∨
        (e ∈ other ∧ (∀ f ∈ entries, ¬ e.clock < f.clock) ∧ ∀ f ∈ entries, e.clock ≠ f.clock) := by
  simp only [mergeEntries, partialCmp_eq_lt, mem_append, mem_filter,
    Bool.not_eq_true', any_eq_false, decide_eq_true_eq, all_eq_true, and_assoc]
  refine or_congr_right (and_congr_right fun he => ?_)
  constructor
  · rintro ⟨hlt, hne⟩
    -- an entry that was dropped lies below some entry of `other`, and so would `e`
    have hdrop : ∀ f ∈ entries, e.clock ≤ f.clock → ∀ g ∈ other, ¬ f.clock < g.clock :=
      fun f _ hle g hg hfg => ho.not_lt he hg (hle.trans_lt hfg)
    exact ⟨fun f hf hef => hlt f ⟨hf, hdrop f hf hef.le⟩ hef,
      fun f hf hef => hne f ⟨hf, hdrop f hf hef.le⟩ hef⟩
  · rintro ⟨hlt, hne⟩
    exact ⟨fun f hf => hlt f hf.1, fun f hf => hne f hf.1⟩

lemma normalized_mergeEntries (ho : Normalized other) :
    Normalized (mergeEntries entries other) := by
  refine ⟨?_, fun e he => ?_⟩
  · simp only [mergeEntries, partialCmp_eq_lt]
    refine pairwise_append.mpr ⟨(h.filter _).1, ((ho.filter _).filter _).1, ?_⟩
    intro e he f hf
    simp only [mem_filter, Bool.not_eq_true', any_eq_false, decide_eq_true_eq, all_eq_true] at he hf
    obtain ⟨⟨hf, hlt⟩, hne⟩ := hf
    have hne' := hne e he
    constructor
    · intro hle
      exact he.2 f hf (lt_of_le_of_ne hle (Ne.symm hne'))
    · intro hle
      exact hlt e he (lt_of_le_of_ne hle hne')
  · rcases (mem_mergeEntries ho).mp he with he | he
    · exact h.2 e he.1
    · exact ho.2 e he.1

omit h

/-! ## Merged clocks -/

/-- The clocks of some entries merged into one, in list order. -/
def joinClocks (entries : List (MvRegEntry V A)) : VectorClock A :=
  entries.foldl (fun acc entry => acc.merge entry.clock) VectorClock.new

/-- The merged clock is the least one above every entry. -/
theorem joinClocks_le_iff {d : VectorClock A} :
    joinClocks entries ≤ d ↔ ∀ e ∈ entries, e.clock ≤ d := by
  have hfold : ∀ (l : List (MvRegEntry V A)) (c : VectorClock A),
      l.foldl (fun acc entry => acc.merge entry.clock) c ≤ d ↔ c ≤ d ∧ ∀ e ∈ l, e.clock ≤ d := by
    intro l
    induction l with
    | nil => simp
    | cons e l ih =>
      intro c
      rw [foldl_cons, ih, merge_eq_sup, sup_le_iff, forall_mem_cons, and_assoc]
  rw [joinClocks, hfold]
  exact and_iff_right (bot_le (a := d))

lemma le_joinClocks (he : e ∈ entries) : e.clock ≤ joinClocks entries :=
  joinClocks_le_iff.mp le_rfl e he

/-- The merged clock takes each counter from some entry. -/
lemma exists_get_joinClocks {a : A} (h : 0 < (joinClocks entries).get a) :
    ∃ e ∈ entries, e.clock.get a = (joinClocks entries).get a := by
  have hfold : ∀ (l : List (MvRegEntry V A)) (c : VectorClock A),
      (l.foldl (fun acc entry => acc.merge entry.clock) c).get a = c.get a ∨
        ∃ e ∈ l, e.clock.get a = (l.foldl (fun acc entry => acc.merge entry.clock) c).get a := by
    intro l
    induction l with
    | nil => exact fun c => .inl rfl
    | cons e l ih =>
      intro c
      rw [foldl_cons]
      rcases ih (c.merge e.clock) with heq | ⟨f, hf, heq⟩
      · -- the counter is that of `c` merged with `e`, so it is one of theirs
        rw [heq, get_merge]
        rcases max_choice (c.get a) (e.clock.get a) with hmax | hmax
        · exact .inl hmax
        · exact .inr ⟨e, mem_cons_self .., hmax.symm⟩
      · exact .inr ⟨f, mem_cons_of_mem e hf, heq⟩
  refine (hfold entries VectorClock.new).resolve_left fun hzero => ?_
  exact h.ne' hzero

/-! ## The register -/

namespace MvReg

/-- `MvReg::new`. -/
def new : MvReg V A := ⟨[], List.Pairwise.nil, by simp⟩

variable (r : MvReg V A)

/-- `MvReg::apply_put`. -/
def applyPut (clock : VectorClock A) (value : V) : MvReg V A :=
  ⟨putEntries r.entries clock value, normalized_putEntries r.normalized clock value⟩

/-- `MvReg::from_entries`. -/
def fromEntries (entries : List (MvRegEntry V A)) : MvReg V A :=
  entries.foldl (fun reg entry => reg.applyPut entry.clock entry.value) new

/-- `MvReg::read_values`. -/
def readValues : List V := r.entries.map MvRegEntry.value

/-- `MvReg::clock`: the merged clock of all active entries. -/
def clock : VectorClock A := joinClocks r.entries

/-- `MvReg::write`: one more of the actor's counter, on top of everything currently visible. -/
def write (actor : A) (value : V) : MvReg V A :=
  r.applyPut (r.clock.increment actor) value

/-- `MvReg::merge`. -/
def merge (r other : MvReg V A) : MvReg V A :=
  ⟨mergeEntries r.entries other.entries, normalized_mergeEntries r.normalized other.normalized⟩

@[simp] lemma entries_new : (new : MvReg V A).entries = [] := rfl

/-- The entries as a set, which is what a register means up to order. -/
def entrySet : Set (MvRegEntry V A) := {e | e ∈ r.entries}

variable {r : MvReg V A} {e : MvRegEntry V A}

@[simp] lemma mem_entrySet : e ∈ r.entrySet ↔ e ∈ r.entries := Iff.rfl

lemma entrySet_finite : r.entrySet.Finite := finite_toSet r.entries

/-- A register's entries are their own maxima. -/
lemma maxima_entrySet : maxima MvRegEntry.clock r.entrySet = r.entrySet := by
  ext e
  exact ⟨fun h => h.1, fun h => ⟨h, fun f hf => r.normalized.not_lt h hf⟩⟩

variable {s : MvReg V A}

/-- Registers with the same entries list them in some order each. -/
theorem perm_iff : r.entries.Perm s.entries ↔ r.entrySet = s.entrySet := by
  rw [perm_ext_iff_of_nodup r.normalized.nodup s.normalized.nodup]
  exact Set.ext_iff.symm

theorem mem_merge : e ∈ (r.merge s).entries ↔
    e ∈ mergeMaxima MvRegEntry.clock r.entrySet s.entrySet :=
  mem_mergeEntries s.normalized

/-- What a merge keeps of either side. -/
lemma mem_merge_iff :
    e ∈ (r.merge s).entries ↔ (e ∈ r.entries ∧ ∀ f ∈ s.entries, ¬ e.clock < f.clock) ∨
      (e ∈ s.entries ∧ ∀ f ∈ r.entries, ¬ e.clock ≤ f.clock) := by
  rw [mem_merge]
  simp only [mergeMaxima, le_iff_lt_or_eq, not_or, forall_and]
  rfl

/-- Where a clock identifies its entry, a merge keeps exactly the maximal entries of both sides. -/
theorem entrySet_merge (h : Set.InjOn MvRegEntry.clock (r.entrySet ∪ s.entrySet)) :
    (r.merge s).entrySet = maxima MvRegEntry.clock (r.entrySet ∪ s.entrySet) := by
  rw [← mergeMaxima_eq_maxima r.maxima_entrySet s.maxima_entrySet h]
  ext e
  exact mem_merge

lemma entrySet_merge_subset (r s : MvReg V A) : (r.merge s).entrySet ⊆ r.entrySet ∪ s.entrySet := by
  intro e he
  rcases mem_merge.mp he with h | h
  · exact .inl h.1
  · exact .inr h.1

/-! ### Merge is a join

On registers whose clocks identify their entries, and up to the order of the entries. -/

theorem entrySet_merge_comm (h : Set.InjOn MvRegEntry.clock (r.entrySet ∪ s.entrySet)) :
    (r.merge s).entrySet = (s.merge r).entrySet := by
  rw [entrySet_merge h, entrySet_merge (Set.union_comm _ _ ▸ h), Set.union_comm]

theorem entrySet_merge_self : (r.merge r).entrySet = r.entrySet := by
  have hinj : Set.InjOn MvRegEntry.clock (r.entrySet ∪ r.entrySet) := by
    rw [Set.union_self]
    exact fun e he f hf heq => r.normalized.eq_of_le he hf heq.le
  rw [entrySet_merge hinj, Set.union_self, maxima_entrySet]

/-- The entries of a merge of three, whichever way it is bracketed. -/
lemma entrySet_merge_merge {t : MvReg V A}
    (h : Set.InjOn MvRegEntry.clock (r.entrySet ∪ s.entrySet ∪ t.entrySet)) :
    ((r.merge s).merge t).entrySet
      = maxima MvRegEntry.clock (r.entrySet ∪ s.entrySet ∪ t.entrySet) := by
  have hrs : (r.merge s).entrySet = maxima MvRegEntry.clock (r.entrySet ∪ s.entrySet) :=
    entrySet_merge (h.mono Set.subset_union_left)
  have hinj : Set.InjOn MvRegEntry.clock ((r.merge s).entrySet ∪ t.entrySet) := by
    rw [hrs]
    exact h.mono (Set.union_subset_union_left _ maxima_subset)
  rw [entrySet_merge hinj, hrs, ← t.maxima_entrySet, maxima_union_maxima
    (r.entrySet_finite.union s.entrySet_finite) t.entrySet_finite, t.maxima_entrySet]

theorem entrySet_merge_assoc {t : MvReg V A}
    (h : Set.InjOn MvRegEntry.clock (r.entrySet ∪ s.entrySet ∪ t.entrySet)) :
    ((r.merge s).merge t).entrySet = (r.merge (s.merge t)).entrySet := by
  have hst : Set.InjOn MvRegEntry.clock (s.entrySet ∪ t.entrySet ∪ r.entrySet) := by
    rwa [Set.union_comm, ← Set.union_assoc]
  have hr : Set.InjOn MvRegEntry.clock (r.entrySet ∪ (s.merge t).entrySet) := by
    refine h.mono ?_
    rw [Set.union_assoc]
    exact Set.union_subset_union_right _ (entrySet_merge_subset s t)
  rw [entrySet_merge_merge h, entrySet_merge_comm hr, entrySet_merge_merge hst,
    Set.union_comm (s.entrySet ∪ t.entrySet), Set.union_assoc]

/-! ### The merged clock and writes -/

theorem clock_le_iff {d : VectorClock A} :
    r.clock ≤ d ↔ ∀ e ∈ r.entries, e.clock ≤ d := joinClocks_le_iff

lemma le_clock (he : e ∈ r.entries) : e.clock ≤ r.clock := le_joinClocks he

/-- A write leaves one entry: everything visible before is below its clock. -/
theorem entries_write (actor : A) (value : V) :
    (r.write actor value).entries = [⟨r.clock.increment actor, value⟩] := by
  have hle : ∀ e ∈ r.entries, e.clock ≤ r.clock.increment actor := fun e he =>
    (le_clock he).trans (le_increment _ _)
  change putEntries r.entries (r.clock.increment actor) value = _
  rw [putEntries_eq (increment_ne_bot _ _), if_pos fun f hf => not_lt_of_ge (hle f hf)]
  rw [filter_eq_nil_iff.mpr fun e he => by simpa using hle e he]
  rfl

lemma clock_write (actor : A) (value : V) : (r.write actor value).clock =
    r.clock.increment actor := by
  rw [clock, entries_write]
  exact bot_sup_eq _

lemma le_clock_merge_of_mem_right (hf : f ∈ s.entries) : f.clock ≤ (r.merge s).clock := by
  by_cases hkeep : (∀ g ∈ r.entries, ¬ f.clock < g.clock) ∧ ∀ g ∈ r.entries, f.clock ≠ g.clock
  · exact le_clock (mem_merge.mpr (.inr ⟨hf, hkeep⟩))
  · -- some entry of `r` is at least `f`, and `s` cannot dominate it without dominating `f`
    have hge : ∃ g ∈ r.entries, f.clock ≤ g.clock := by
      by_contra hno
      push Not at hno
      exact hkeep ⟨fun g hg hlt => hno g hg hlt.le, fun g hg heq => hno g hg heq.le⟩
    obtain ⟨g, hg, hle⟩ := hge
    refine hle.trans (le_clock (mem_merge.mpr (.inl ⟨hg, fun h hh hlt => ?_⟩)))
    exact s.normalized.not_lt hf hh (hle.trans_lt hlt)

/-- Merging registers merges their clocks: what is dropped lies below what dropped it. -/
theorem clock_merge (r s : MvReg V A) : (r.merge s).clock = r.clock ⊔ s.clock := by
  refine le_antisymm (clock_le_iff.mpr fun e he => ?_) (sup_le ?_ ?_)
  · rcases entrySet_merge_subset r s he with h | h
    · exact (le_clock h).trans le_sup_left
    · exact (le_clock h).trans le_sup_right
  · refine clock_le_iff.mpr fun e he => ?_
    by_cases hdom : ∀ f ∈ s.entries, ¬ e.clock < f.clock
    · exact le_clock (mem_merge.mpr (.inl ⟨he, hdom⟩))
    · push Not at hdom
      obtain ⟨f, hf, hlt⟩ := hdom
      exact hlt.le.trans (le_clock_merge_of_mem_right hf)
  · exact clock_le_iff.mpr fun f hf => le_clock_merge_of_mem_right hf

end MvReg

/-! ## Snapshots -/

lemma MvReg.mem_readValues {r : MvReg V A} {v : V} :
    v ∈ r.readValues ↔ ∃ e ∈ r.entries, e.value = v := by
  simp [readValues]

/-- `MvRegSnapshot`: the canonical visible values. -/
structure MvRegSnapshot (V : Type*) where
  vals : List V
  deriving DecidableEq

variable [LinearOrder V]

/-- `MvRegSnapshot::from_unsorted`: `sort` and then `dedup`, which drops repeated neighbours. -/
def MvRegSnapshot.fromUnsorted (vals : List V) : MvRegSnapshot V :=
  ⟨(vals.insertionSort (· ≤ ·)).destutter (· ≠ ·)⟩

lemma MvRegSnapshot.vals_fromUnsorted (vals : List V) :
    (fromUnsorted vals).vals = (vals.insertionSort (· ≤ ·)).dedup :=
  (pairwise_insertionSort (· ≤ ·) vals).destutter_eq_dedup

@[simp] lemma MvRegSnapshot.mem_vals_fromUnsorted {vals : List V} {v : V} :
    v ∈ (fromUnsorted vals).vals ↔ v ∈ vals := by
  rw [vals_fromUnsorted, mem_dedup, mem_insertionSort]

/-- A snapshot shows which values there are and nothing else. -/
theorem MvRegSnapshot.fromUnsorted_eq_iff {vals vals' : List V} :
    fromUnsorted vals = fromUnsorted vals' ↔ ∀ v, v ∈ vals ↔ v ∈ vals' := by
  constructor
  · intro h v
    rw [← mem_vals_fromUnsorted, h, mem_vals_fromUnsorted]
  · intro h
    have hsorted : ∀ l : List V, (fromUnsorted l).vals.Pairwise (· ≤ ·) := fun l => by
      rw [vals_fromUnsorted]
      exact (pairwise_insertionSort (· ≤ ·) l).sublist (dedup_sublist _)
    have hnodup : ∀ l : List V, (fromUnsorted l).vals.Nodup := fun l => by
      rw [vals_fromUnsorted]
      exact nodup_dedup _
    have hperm : (fromUnsorted vals).vals.Perm (fromUnsorted vals').vals := by
      rw [perm_ext_iff_of_nodup (hnodup vals) (hnodup vals')]
      intro v
      rw [mem_vals_fromUnsorted, mem_vals_fromUnsorted, h]
    exact congrArg MvRegSnapshot.mk
      (hperm.eq_of_pairwise (fun a b _ _ => le_antisymm) (hsorted vals) (hsorted vals'))

/-- `MvReg::snapshot`. -/
def MvReg.snapshot (r : MvReg V A) : MvRegSnapshot V := MvRegSnapshot.fromUnsorted r.readValues

@[simp] lemma MvReg.mem_vals_snapshot {r : MvReg V A} {v : V} :
    v ∈ r.snapshot.vals ↔ v ∈ r.readValues :=
  MvRegSnapshot.mem_vals_fromUnsorted

/-- A write is all that is visible afterwards. -/
lemma MvReg.vals_snapshot_write (r : MvReg V A) (actor : A) (value : V) :
    (r.write actor value).snapshot.vals = [value] := by
  rw [snapshot, readValues, entries_write]
  rfl

theorem MvReg.snapshot_eq_iff {r s : MvReg V A} :
    r.snapshot = s.snapshot ↔ ∀ v, v ∈ r.readValues ↔ v ∈ s.readValues :=
  MvRegSnapshot.fromUnsorted_eq_iff

/-- Snapshots forget the order of the entries. -/
lemma MvReg.snapshot_eq_of_entrySet_eq {r s : MvReg V A} (h : r.entrySet = s.entrySet) :
    r.snapshot = s.snapshot := by
  rw [snapshot_eq_iff]
  intro v
  simp only [mem_readValues, ← mem_entrySet, h]

end Mantissa
