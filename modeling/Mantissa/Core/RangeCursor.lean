import Mathlib

/-!
# Matching ascending keys against sorted ranges

A scan visits keys in ascending order and keeps those that lie in one of a set of inclusive ranges.
Instead of asking every range for every key, it walks the ranges, sorted by their start, with a
cursor that only moves forward: a range is left behind once a key has passed its end.

Ranges may overlap, so a range that starts early can end late; what makes the cursor right is that
the keys ascend. `scanWith_eq_filter` says so: the scan keeps exactly the keys some range contains.
-/

namespace Mantissa

open List

variable {R B X : Type*} [LinearOrder B] (start stop : R → B)

/-- Ask the cursor for one key: the answer, and the ranges it still has to look at. -/
def cursorContains : List R → B → Bool × List R
  | [], _ => (false, [])
  | range :: ranges, key =>
    if key < start range then (false, range :: ranges)
    else if key ≤ stop range then (true, range :: ranges)
    else cursorContains ranges key

/-- Keep the items whose keys the ranges contain, moving the cursor along. -/
def scanWith (key : X → B) : List R → List X → List X
  | _, [] => []
  | ranges, item :: items =>
    let (hit, rest) := cursorContains start stop ranges (key item)
    if hit then item :: scanWith key rest items else scanWith key rest items

variable {start stop}

/-- Sorted ranges: the cursor finds a range that contains the key if there is one. -/
theorem cursorContains_fst (key : B) : ∀ {ranges : List R},
    ranges.Pairwise (fun r r' => start r ≤ start r') →
      ((cursorContains start stop ranges key).1 = true ↔ ∃ r ∈ ranges, start r ≤ key ∧ key ≤ stop r)
  | [], _ => by simp [cursorContains]
  | range :: ranges, hsorted => by
    rw [pairwise_cons] at hsorted
    have ih := cursorContains_fst key hsorted.2
    simp only [cursorContains, exists_mem_cons_iff]
    split_ifs with hbefore hin
    · -- every later range starts later still
      have hnone : ∀ r ∈ ranges, ¬ start r ≤ key := fun r hr =>
        not_le_of_gt (hbefore.trans_le (hsorted.1 r hr))
      simp only [false_iff, not_or]
      refine ⟨fun h => not_le_of_gt hbefore h.1, ?_⟩
      rintro ⟨r, hr, hle, -⟩
      exact hnone r hr hle
    · simp only [true_iff]
      exact .inl ⟨not_lt.mp hbefore, hin⟩
    · rw [ih]
      exact (or_iff_right fun h => hin h.2).symm

/-- The ranges left behind end before the key. -/
lemma cursorContains_snd (start stop : R → B) (key : B) : ∀ ranges : List R,
    ∃ dropped, ranges = dropped ++ (cursorContains start stop ranges key).2 ∧
      ∀ r ∈ dropped, stop r < key
  | [] => ⟨[], rfl, by simp⟩
  | range :: ranges => by
    simp only [cursorContains]
    split_ifs with hbefore hin
    · exact ⟨[], rfl, by simp⟩
    · exact ⟨[], rfl, by simp⟩
    · obtain ⟨dropped, heq, hpast⟩ := cursorContains_snd start stop key ranges
      refine ⟨range :: dropped, congrArg (List.cons range) heq, ?_⟩
      rintro r (_ | ⟨_, hr⟩)
      · exact not_le.mp hin
      · exact hpast r hr

/-- **The scan is a filter**, for items whose keys ascend. -/
theorem scanWith_eq_filter {key : X → B} : ∀ (items : List X) {ranges : List R},
    items.Pairwise (fun x y => key x < key y) → ranges.Pairwise (fun r r' => start r ≤ start r') →
      scanWith start stop key ranges items =
        items.filter fun x => ranges.any fun r => decide (start r ≤ key x ∧ key x ≤ stop r)
  | [], _, _, _ => rfl
  | item :: items, ranges, hitems, hranges => by
    rw [pairwise_cons] at hitems
    obtain ⟨dropped, heq, hpast⟩ := cursorContains_snd start stop (key item) ranges
    set rest := (cursorContains start stop ranges (key item)).2 with hrest
    have hsorted : rest.Pairwise fun r r' => start r ≤ start r' := by
      rw [heq] at hranges
      exact (pairwise_append.mp hranges).2.1
    have ih := scanWith_eq_filter items hitems.2 hsorted
    -- a range left behind contains no later key
    have hlater : ∀ x ∈ items, (ranges.any fun r => decide (start r ≤ key x ∧ key x ≤ stop r)) =
        rest.any fun r => decide (start r ≤ key x ∧ key x ≤ stop r) := by
      intro x hx
      have hdropped : (dropped.any fun r => decide (start r ≤ key x ∧ key x ≤ stop r)) = false := by
        rw [any_eq_false]
        intro r hr
        have hlt := (hpast r hr).trans (hitems.1 x hx)
        simp [not_le_of_gt hlt]
      rw [heq, any_append, hdropped, Bool.false_or]
    have hfilter := filter_congr hlater
    have hhit : (cursorContains start stop ranges (key item)).1 =
        ranges.any fun r => decide (start r ≤ key item ∧ key item ≤ stop r) := by
      rw [Bool.eq_iff_iff, cursorContains_fst (key item) hranges, any_eq_true]
      simp
    simp only [scanWith, filter_cons, hhit, ← hrest, ih, hfilter]

end Mantissa
