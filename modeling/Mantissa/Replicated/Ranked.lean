import Mantissa.Replicated.Winner
import Mantissa.Store.SortedCompaction

/-!
# Selectors and ranks that are comparisons

Most domains write their selector and their rank as one chain of comparisons. Where the chain
decides between any two values, the selector returns the greatest (`PicksGreatest`), and compaction
by a rank that never puts a smaller value first keeps it (`PicksGreatest.kept`).

The chains end in a tie-break by the value. A loop that replaces only what is strictly worse keeps
the first of several equals, which in a sorted snapshot is the smallest; the rank then ends in
`Reverse(value)` (`tiesReversed`). `Iterator::max_by` takes the last one, the greatest.
-/

namespace Mantissa

open MvReg

open Workload (selectBest selectBest_unbeaten selectBest_eq_none)

variable {V A : Type*} [LinearOrder V] [LinearOrder A] {cmp : V → V → Ordering}

/-! ## Ties -/

/-- Ranked by the comparison, with ties going to the smaller value. -/
def tiesReversed (cmp : V → V → Ordering) (left right : V) : Ordering :=
  (cmp left right).then (ordCmp right left)

lemma tiesReversed_swap (hswap : ∀ a b, cmp b a = (cmp a b).swap) (a b : V) :
    tiesReversed cmp b a = (tiesReversed cmp a b).swap := by
  have hvalue : ordCmp a b = (ordCmp b a).swap := by
    rw [ordCmp_eq_compare, ordCmp_eq_compare]
    exact Std.OrientedCmp.eq_swap
  rw [tiesReversed, tiesReversed, Ordering.swap_then, hswap a b, hvalue]

lemma eq_of_tiesReversed {a b : V} (h : tiesReversed cmp a b = .eq) : a = b := by
  rw [tiesReversed, Ordering.then_eq_eq, ordCmp_eq_compare, compare_eq_iff_eq] at h
  exact h.2.symm

instance instTransCmpThen {α : Type*} {cmp cmp' : α → α → Ordering} [Std.TransCmp cmp]
    [Std.TransCmp cmp'] : Std.TransCmp fun a b => (cmp a b).then (cmp' a b) :=
  inferInstanceAs (Std.TransCmp (compareLex cmp cmp'))

instance instTransCmpField {α β : Type*} [Ord β] [Std.TransOrd β] (field : α → β) :
    Std.TransCmp fun a b => compare (field a) (field b) :=
  inferInstanceAs (Std.TransCmp (compareOn field))

instance instTransCmpOrdCmp {α : Type*} [LinearOrder α] :
    Std.TransCmp (ordCmp : α → α → Ordering) := by
  have hcmp : (ordCmp : α → α → Ordering) = fun a b => compare a b := funext₂ ordCmp_eq_compare
  rw [hcmp]
  infer_instance

instance instTransCmpTiesReversed [Std.TransCmp cmp] : Std.TransCmp (tiesReversed cmp) :=
  inferInstanceAs (Std.TransCmp (compareLex cmp fun a b => ordCmp b a))

instance instLawfulEqCmpTiesReversed [Std.TransCmp cmp] : Std.LawfulEqCmp (tiesReversed cmp) where
  eq_of_compare := eq_of_tiesReversed

/-! ## Selectors -/

variable {select : List V → Option V} {order : V → V → Ordering}

/-- The selector returns the greatest value of a sorted list. -/
def PicksGreatest (select : List V → Option V) (order : V → V → Ordering) : Prop :=
  ∀ values : List V, values.Pairwise (· < ·) → ∀ best, select values = some best ↔
    best ∈ values ∧ ∀ v ∈ values, order v best ≠ .gt

/-- A loop over a sorted list that replaces a value by a greater one ends with the greatest. -/
lemma picksGreatest_selectBest [Std.TransCmp order] [Std.LawfulEqCmp order] {better : V → V → Bool}
    (hloop : ∀ a b, a < b → better a b = (order b a == .gt)) :
    PicksGreatest (selectBest better) order := by
  intro values hsorted best
  rw [selectBest_congr hsorted hloop]
  have hspec : ∀ {v}, selectBest (fun a b => order b a == .gt) values = some v →
      v ∈ values ∧ ∀ w ∈ values, order w v ≠ .gt := by
    intro v hv
    have htrans : ∀ a ∈ Set.univ, ∀ b ∈ Set.univ, ∀ c ∈ Set.univ, (order b a == .gt) = true →
        (order c b == .gt) = true → (order c a == .gt) = true := by
      intro a _ b _ c _ hab hbc
      rw [beq_iff_eq] at hab hbc ⊢
      exact Std.TransCmp.gt_trans hbc hab
    have hirrefl : ∀ a ∈ Set.univ, ¬ (order a a == .gt) = true := by
      intro a _
      have hself : order a a = .eq := Std.ReflCmp.compare_self
      rw [hself]
      decide
    obtain ⟨hmem, hbest⟩ := selectBest_unbeaten htrans hirrefl (fun w _ => Set.mem_univ w) hv
    exact ⟨hmem, fun w hw hgt => hbest w hw (beq_iff_eq.mpr hgt)⟩
  refine ⟨hspec, ?_⟩
  rintro ⟨hmem, hbest⟩
  cases hselected : selectBest (fun a b => order b a == .gt) values with
  | none => exact absurd hmem (selectBest_eq_none.mp hselected ▸ List.not_mem_nil)
  | some v =>
    obtain ⟨hv, hle⟩ := hspec hselected
    have hvbest := hbest v hv
    have hbestv := hle best hmem
    rw [ne_eq, Ordering.ne_gt_iff_isLE] at hvbest hbestv
    exact congrArg some (Std.LawfulEqCmp.eq_of_compare
      (Std.OrientedCmp.isLE_antisymm hvbest hbestv))

/-- A loop that replaces what is strictly worse. -/
lemma picksGreatest_strict [Std.TransCmp cmp] :
    PicksGreatest (selectBest fun current value => cmp value current == .gt)
      (tiesReversed cmp) := by
  refine picksGreatest_selectBest fun a b hab => ?_
  have hlt : ordCmp a b = .lt := (cmp_eq_lt_iff a b).mpr hab
  rw [tiesReversed, hlt]
  cases cmp b a <;> rfl

/-- `Iterator::max_by` with a comparison that tells all values apart. -/
lemma picksGreatest_maxBy [Std.TransCmp cmp] [Std.LawfulEqCmp cmp] :
    PicksGreatest (maxBy cmp) cmp := by
  refine picksGreatest_selectBest fun a b hab => ?_
  have hswap : cmp a b = (cmp b a).swap := Std.OrientedCmp.eq_swap
  rw [hswap]
  cases hcmp : cmp b a with
  | lt => rfl
  | gt => rfl
  | eq => exact absurd (Std.LawfulEqCmp.eq_of_compare hcmp) hab.ne'

/-- The last value of a snapshot. -/
lemma picksGreatest_getLast? : PicksGreatest (List.getLast? : List V → Option V) ordCmp := by
  intro values hsorted best
  simp only [ordCmp_ne_gt]
  exact picks_getLast? values hsorted best

/-! ## Compaction -/

/-- **Compaction keeps the winner** if it never ranks a smaller value higher. -/
theorem PicksGreatest.kept (hpicks : PicksGreatest select order) {rankCmp : V → V → Ordering}
    [Std.TransCmp rankCmp] (hrank : ∀ v w, (rankCmp v w).then (ordCmp v w) ≠ .gt → order v w ≠ .gt)
    (r : MvReg V A) (sort : SliceSort (MvRegEntry V A × ℕ)) {n : ℕ} (hn : 1 ≤ n) :
    select (r.compactBy sort rankCmp ordCmp n).snapshot.vals = select r.snapshot.vals := by
  by_cases hne : r.entries = []
  · rw [compactBy, if_pos (.inr (by simp [hne]))]
  obtain ⟨top, hcompacts, htop⟩ := compactBy_compacts sort (Nat.one_le_iff_ne_zero.mp hn) hne
  have hbest : ∀ v ∈ r.readValues, order v top.value ≠ .gt := fun v hv =>
    hrank v top.value (htop (totalOn_of_transCmp rankCmp _) (totalOn_ordCmp _) v hv)
  have hafter : select (r.compactBy sort rankCmp ordCmp n).snapshot.vals = some top.value := by
    refine (hpicks _ (pairwise_vals_snapshot _) _).mpr
      ⟨mem_vals_snapshot.mpr hcompacts.top_mem_readValues, fun v hv => ?_⟩
    exact hbest v (hcompacts.readValues_subset (mem_vals_snapshot.mp hv))
  have hbefore : select r.snapshot.vals = some top.value := by
    refine (hpicks _ (pairwise_vals_snapshot _) _).mpr
      ⟨mem_vals_snapshot.mpr (mem_readValues.mpr ⟨top, hcompacts.top_mem, rfl⟩), fun v hv => ?_⟩
    exact hbest v (mem_vals_snapshot.mp hv)
  rw [hafter, hbefore]

/-- A rank that is the selector's own order. -/
lemma PicksGreatest.kept_of_eq [Std.TransCmp order] (hpicks : PicksGreatest select order)
    (r : MvReg V A) (sort : SliceSort (MvRegEntry V A × ℕ)) {n : ℕ} (hn : 1 ≤ n) :
    select (r.compactBy sort order ordCmp n).snapshot.vals = select r.snapshot.vals := by
  refine hpicks.kept (fun v w hle hgt => hle ?_) r sort hn
  rw [hgt, Ordering.gt_then]

end Mantissa
