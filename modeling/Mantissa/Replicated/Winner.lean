import Mantissa.Store.Compaction
import Mantissa.Workload.Selection

/-!
# The winner of a register

A register may show several values, and every domain has a selector that picks one of them from the
sorted snapshot. Background compaction drops values by a rank of its own. The two agree as long as
the value that ranks highest is the one the selector picks.

A selector is described by the key it maximises (`Picks`). The loops of the source differ in what
they do with values that compare as equal: some keep the first and some take the last, and as
snapshots are sorted, the value itself is then part of the key (`picks_selectBest`).

`Picks.kept_iff` is the rule: compaction keeps the winner, down to any number of values, exactly if
no value ranks highest without having the greatest key.
-/

namespace Mantissa

open List

open Workload (selectBest selectBest_spec selectBest_eq_none)

variable {V A R K : Type*} [LinearOrder V] [LinearOrder A] [LinearOrder R] [LinearOrder K]

/-! ## Loops over a sorted list -/

omit [LinearOrder V] in
lemma selectBest_cons_cons (better : V → V → Bool) (v w : V) (values : List V) :
    selectBest better (v :: w :: values) =
      selectBest better ((if better v w then w else v) :: values) := by
  simp only [selectBest, foldl_cons]
  split_ifs <;> rfl

variable {better : V → V → Bool} {values : List V}

omit [LinearOrder V] in
/-- The loop compares earlier values with later ones only. -/
lemma selectBest_congr {better' : V → V → Bool} {before : V → V → Prop}
    (hsorted : values.Pairwise before) (h : ∀ a b, before a b → better a b = better' a b) :
    selectBest better values = selectBest better' values := by
  cases values with
  | nil => rfl
  | cons v values =>
    -- The head is the best value so far.
    induction values generalizing v with
    | nil => rfl
    | cons w values ih =>
      obtain ⟨hv, hrest⟩ := pairwise_cons.mp hsorted
      obtain ⟨hvw, hv⟩ := forall_mem_cons.mp hv
      obtain ⟨-, hvalues⟩ := pairwise_cons.mp hrest
      rw [selectBest_cons_cons, selectBest_cons_cons better', h v w hvw]
      split_ifs
      · exact ih w hrest
      · exact ih v (pairwise_cons.mpr ⟨hv, hvalues⟩)

omit [LinearOrder V] in
/-- What the loop returns it has seen, whatever it compares by. -/
lemma mem_of_selectBest {best : V} (h : selectBest better values = some best) : best ∈ values := by
  cases values with
  | nil => cases h
  | cons v values =>
    induction values generalizing v with
    | nil => exact mem_singleton.mpr (Option.some.inj h).symm
    | cons w values ih =>
      rw [selectBest_cons_cons] at h
      have hmem := ih _ h
      split_ifs at hmem
      · exact mem_cons_of_mem v hmem
      · rcases mem_cons.mp hmem with rfl | hmem
        · exact mem_cons_self ..
        · exact mem_cons_of_mem v (mem_cons_of_mem w hmem)

omit [LinearOrder V] in
/-- A value that beats all others is returned, wherever it stands. -/
lemma selectBest_of_beats_all {best : V} (hmem : best ∈ values)
    (hbeats : ∀ v ∈ values, v ≠ best → better v best = true ∧ better best v = false) :
    selectBest better values = some best := by
  cases values with
  | nil => cases hmem
  | cons v values =>
    induction values generalizing v with
    | nil => exact congrArg some (mem_singleton.mp hmem).symm
    | cons w values ih =>
      rw [selectBest_cons_cons]
      obtain ⟨hv, hw, hvalues⟩ : (v ≠ best → better v best = true ∧ better best v = false) ∧
          (w ≠ best → better w best = true ∧ better best w = false) ∧
          ∀ u ∈ values, u ≠ best → better u best = true ∧ better best u = false := by
        simpa only [forall_mem_cons] using hbeats
      by_cases hvbest : v = best
      · have hhead : (if better v w then w else v) = best := by
          by_cases hwbest : w = best
          · rw [hvbest, hwbest, ite_self]
          · rw [hvbest, if_neg (by rw [(hw hwbest).2]; exact Bool.false_ne_true)]
        refine ih _ (hhead ▸ mem_cons_self ..) ?_
        rw [hhead]
        exact forall_mem_cons.mpr ⟨absurd rfl, hvalues⟩
      · by_cases hwbest : w = best
        · have hhead : (if better v w then w else v) = best := by
            rw [hwbest, if_pos (hv hvbest).1]
          refine ih _ (hhead ▸ mem_cons_self ..) ?_
          rw [hhead]
          exact forall_mem_cons.mpr ⟨absurd rfl, hvalues⟩
        · have hrest : best ∈ values := by
            rcases mem_cons.mp hmem with h | h
            · exact absurd h.symm hvbest
            · exact (mem_cons.mp h).resolve_left fun h => hwbest h.symm
          refine ih _ (mem_cons_of_mem _ hrest) ?_
          refine forall_mem_cons.mpr ⟨?_, hvalues⟩
          split_ifs
          · exact hw
          · exact hv

/-- `Iterator::max_by`: of elements that compare as equal the last one. -/
def maxBy (cmp : V → V → Ordering) (values : List V) : Option V :=
  selectBest (fun current value => cmp current value != .gt) values

/-- The selector picks the value of a sorted list that has the greatest key. -/
def Picks (select : List V → Option V) (key : V → K) : Prop :=
  ∀ values : List V, values.Pairwise (· < ·) → ∀ best, select values = some best ↔
    best ∈ values ∧ ∀ v ∈ values, key v ≤ key best

/-- A loop that replaces what is strictly worse maximises an injective key. -/
lemma picks_of_injective {key : V → K} (hinj : Function.Injective key)
    (hkey : ∀ a b, a < b → (better a b = true ↔ key a < key b)) :
    Picks (selectBest better) key := by
  intro values hsorted best
  have hcongr : selectBest better values =
      selectBest (fun a b => decide (key a < key b)) values := by
    refine selectBest_congr hsorted fun a b hab => ?_
    rw [Bool.eq_iff_iff, hkey a b hab, decide_eq_true_eq]
  have hspec : ∀ {v}, selectBest (fun a b => decide (key a < key b)) values = some v →
      v ∈ values ∧ ∀ w ∈ values, key w ≤ key v :=
    selectBest_spec fun a b => decide_eq_true_iff
  rw [hcongr]
  refine ⟨hspec, ?_⟩
  rintro ⟨hmem, hbest⟩
  cases hselected : selectBest (fun a b => decide (key a < key b)) values with
  | none => exact absurd hmem (selectBest_eq_none.mp hselected ▸ not_mem_nil)
  | some v =>
    obtain ⟨hv, hle⟩ := hspec hselected
    exact congrArg some (hinj (le_antisymm (hbest v hv) (hle best hmem)))

/-- Of values with equal keys the first one stays, which is the smallest. -/
lemma picks_selectBest {key : V → K} (hkey : ∀ a b, better a b = true ↔ key a < key b) :
    Picks (selectBest better) fun v => toLex (key v, OrderDual.toDual v) := by
  refine picks_of_injective (fun a b h => ?_) fun a b hab => ?_
  · exact OrderDual.toDual_inj.mp (Prod.mk.inj (toLex.injective h)).2
  · rw [hkey, Prod.Lex.toLex_lt_toLex, or_iff_left]
    rintro ⟨-, hlt⟩
    exact hab.asymm (OrderDual.toDual_lt_toDual.mp hlt)

/-- The last value of a snapshot is the greatest. -/
lemma picks_getLast? : Picks (List.getLast? : List V → Option V) id := by
  intro values hsorted best
  rw [getLast?_eq_some_iff]
  constructor
  · rintro ⟨l, rfl⟩
    refine ⟨by simp, fun v hv => ?_⟩
    rcases mem_append.mp hv with hv | hv
    · exact ((pairwise_append.mp hsorted).2.2 v hv best (mem_singleton_self _)).le
    · exact (mem_singleton.mp hv).le
  · rintro ⟨hmem, hbest⟩
    obtain ⟨l, last, rfl⟩ : ∃ l last, values = l ++ [last] :=
      ⟨_, _, (dropLast_append_getLast (ne_nil_of_mem hmem)).symm⟩
    refine ⟨l, ?_⟩
    rcases mem_append.mp hmem with h | h
    · have hlt := (pairwise_append.mp hsorted).2.2 best h last (mem_singleton_self _)
      exact absurd (hbest last (by simp)) (not_le.mpr hlt)
    · rw [mem_singleton.mp h]

/-! ## Compaction -/

variable {select : List V → Option V} {key : V → K} {rank : V → R} {r : MvReg V A}

lemma MvReg.pairwise_vals_snapshot (r : MvReg V A) : r.snapshot.vals.Pairwise (· < ·) := by
  rw [snapshot, MvRegSnapshot.vals_fromUnsorted]
  have hsorted := (pairwise_insertionSort (· ≤ ·) r.readValues).sublist (dedup_sublist _)
  exact hsorted.imp₂ (fun a b hle hne => lt_of_le_of_ne hle hne) (nodup_dedup _)

/-- Two values in their order. -/
lemma MvReg.vals_snapshot_of_pair {v w : V} (h : r.readValues = [v, w])
    (hlt : v < w) : r.snapshot.vals = [v, w] := by
  rw [snapshot, h, MvRegSnapshot.vals_fromUnsorted]
  simp [List.insertionSort, hlt.le, hlt.ne]

/-- Two entries of a register as a register of their own. -/
def MvReg.pair (r : MvReg V A) {e f : MvRegEntry V A}
    (he : e ∈ r.entries) (hf : f ∈ r.entries) (hne : e ≠ f) : MvReg V A where
  entries := [e, f]
  normalized := by
    refine ⟨?_, ?_⟩
    · rw [List.pairwise_pair]
      exact r.normalized.1.forall he hf hne
    · intro g hg
      rcases List.mem_pair.mp hg with rfl | rfl
      · exact r.normalized.2 g he
      · exact r.normalized.2 g hf

/-- What a register's selector picks. -/
lemma Picks.snapshot_iff (hpicks : Picks select key) {best : V} :
    select r.snapshot.vals = some best ↔
      best ∈ r.readValues ∧ ∀ v ∈ r.readValues, key v ≤ key best := by
  simp [hpicks _ r.pairwise_vals_snapshot, MvReg.mem_vals_snapshot]

namespace MvReg.Compacts

variable {n : ℕ} {r r' : MvReg V A} {top : MvRegEntry V A}

omit [LinearOrder V] in
lemma top_mem_readValues (h : Compacts n r r' top) : top.value ∈ r'.readValues := by
  obtain ⟨e, he, hvalue, -⟩ := h.keeps_top
  exact mem_readValues.mpr ⟨e, he, hvalue⟩

omit [LinearOrder V] in
lemma readValues_subset (h : Compacts n r r' top) {v : V} (hv : v ∈ r'.readValues) :
    v ∈ r.readValues := by
  obtain ⟨e, he, rfl⟩ := mem_readValues.mp hv
  obtain ⟨f, hf, hvalue⟩ := h.value_mem e he
  exact mem_readValues.mpr ⟨f, hf, hvalue⟩

omit [LinearOrder V] in
/-- Compaction to one value leaves the best one. -/
lemma readValues_one (h : Compacts 1 r r' top) : r'.readValues = [top.value] := by
  obtain ⟨e, he, hvalue, -⟩ := h.keeps_top
  obtain ⟨f, hf⟩ := length_eq_one_iff.mp (le_antisymm h.length_le (length_pos_of_mem he))
  rw [hf, mem_singleton] at he
  rw [readValues, hf, map_singleton, ← he, hvalue]

end MvReg.Compacts

/-- No value ranks highest, ties broken by value, without having the greatest key. -/
def RanksAlike (rank : V → R) (key : V → K) (values : List V) : Prop :=
  ∀ v ∈ values, (∀ w ∈ values, toLex (rank w, w) ≤ toLex (rank v, v)) → ∀ w ∈ values, key w ≤ key v

variable (hpicks : Picks select key)

include hpicks

/-- If compaction to one value keeps the winner, the winner ranks highest. -/
lemma Picks.ranksAlike_of_kept_one
    (hkept : select (r.compactWith 1 fun e => rank e.value).1.snapshot.vals =
      select r.snapshot.vals) : RanksAlike rank key r.readValues := by
  intro v hv hbest w hw
  have hne : r.entries ≠ [] := by
    obtain ⟨e, he, -⟩ := MvReg.mem_readValues.mp hv
    exact ne_nil_of_mem he
  obtain ⟨top, htop, hcompacts⟩ := MvReg.compactWith_compacts (fun e => rank e.value)
    Nat.one_ne_zero hne
  -- `v` is the value compaction leaves, so it is the one selected before
  have htopv : top.value = v := by
    obtain ⟨e, he, rfl⟩ := MvReg.mem_readValues.mp hv
    have hle := hbest top.value (MvReg.mem_readValues.mpr ⟨top, hcompacts.top_mem, rfl⟩)
    exact (Prod.mk.inj (toLex.injective (le_antisymm hle (htop e he)))).2
  have hselected : select (r.compactWith 1 fun e => rank e.value).1.snapshot.vals = some v := by
    refine hpicks.snapshot_iff.mpr ?_
    rw [hcompacts.readValues_one, htopv]
    simp
  exact (hpicks.snapshot_iff.mp (hkept.symm.trans hselected)).2 w hw

lemma Picks.kept_of_ranksAlike (halike : RanksAlike rank key r.readValues) {n : ℕ} (hn : 1 ≤ n) :
    select (r.compactWith n fun e => rank e.value).1.snapshot.vals = select r.snapshot.vals := by
  by_cases hne : r.entries = []
  · rw [MvReg.compactWith, if_pos (.inr (by simp [hne]))]
  · obtain ⟨top, htop, hcompacts⟩ := MvReg.compactWith_compacts (fun e => rank e.value)
      (Nat.one_le_iff_ne_zero.mp hn) hne
    have hbest : ∀ w ∈ r.readValues, key w ≤ key top.value := by
      refine halike top.value (MvReg.mem_readValues.mpr ⟨top, hcompacts.top_mem, rfl⟩) ?_
      intro w hw
      obtain ⟨e, he, rfl⟩ := MvReg.mem_readValues.mp hw
      exact htop e he
    have hafter := hpicks.snapshot_iff.mpr ⟨hcompacts.top_mem_readValues, fun v hv =>
      hbest v (hcompacts.readValues_subset hv)⟩
    exact hafter.trans
      (hpicks.snapshot_iff.mpr ⟨MvReg.mem_readValues.mpr ⟨_, hcompacts.top_mem, rfl⟩, hbest⟩).symm

/-- **When compaction keeps the winner.** -/
theorem Picks.kept_iff (r : MvReg V A) :
    (∀ n, 1 ≤ n → select (r.compactWith n fun e => rank e.value).1.snapshot.vals =
      select r.snapshot.vals) ↔ RanksAlike rank key r.readValues :=
  ⟨fun hkept => hpicks.ranksAlike_of_kept_one (hkept 1 le_rfl),
    fun halike _ hn => hpicks.kept_of_ranksAlike halike hn⟩

end Mantissa
