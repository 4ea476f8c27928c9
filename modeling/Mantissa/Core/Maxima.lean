import Mathlib

/-!
# Maximal elements under a stamp

Elements carry a stamp from a partial order — a vector clock, a version — and a replica keeps the
ones nothing it has seen lies strictly above. `maxima stamp s` is that set. Two facts make it a
join: taking maxima early loses nothing (`maxima_union_maxima`), and on a set where a stamp
determines its element, the two one-sided filters a merge runs keep exactly the maxima of the
union (`mergeMaxima_eq_maxima`).

Nothing here mentions registers or replicas.
-/

namespace Mantissa

variable {E P : Type*} [PartialOrder P] (stamp : E → P)

/-- The elements of `s` that no element of `s` lies strictly above. -/
def maxima (s : Set E) : Set E := {e | e ∈ s ∧ ∀ f ∈ s, ¬ stamp e < stamp f}

variable {stamp} {s t : Set E} {e : E}

lemma maxima_subset : maxima stamp s ⊆ s := fun _ h => h.1

/-- In a finite set every element lies below a maximal one. -/
lemma exists_mem_maxima_ge (hs : s.Finite) (he : e ∈ s) :
    ∃ m ∈ maxima stamp s, stamp e ≤ stamp m := by
  have hfin : {f ∈ s | stamp e ≤ stamp f}.Finite := hs.subset fun _ h => h.1
  obtain ⟨m, ⟨hm, hem⟩, hmax⟩ := hfin.exists_maximalFor stamp _ ⟨e, he, le_rfl⟩
  refine ⟨m, ⟨hm, fun f hf hlt => ?_⟩, hem⟩
  exact absurd (hmax ⟨hf, hem.trans hlt.le⟩ hlt.le) (not_le_of_gt hlt)

/-- Whatever is dominated by an element of a finite set is dominated by a maximal one. -/
lemma exists_mem_maxima_gt (hs : s.Finite) {f : E} (hf : f ∈ s) (hlt : stamp e < stamp f) :
    ∃ m ∈ maxima stamp s, stamp e < stamp m := by
  obtain ⟨m, hm, hle⟩ : ∃ m ∈ maxima stamp s, stamp f ≤ stamp m := exists_mem_maxima_ge hs hf
  exact ⟨m, hm, hlt.trans_le hle⟩

/-- Taking maxima of the parts first does not change the maxima of the union. -/
theorem maxima_union_maxima (hs : s.Finite) (ht : t.Finite) :
    maxima stamp (maxima stamp s ∪ maxima stamp t) = maxima stamp (s ∪ t) := by
  ext e
  constructor
  · rintro ⟨he, hmax⟩
    refine ⟨he.imp (fun h => h.1) (fun h => h.1), fun f hf hlt => ?_⟩
    rcases hf with hf | hf
    · obtain ⟨m, hm, hem⟩ := exists_mem_maxima_gt hs hf hlt
      exact hmax m (.inl hm) hem
    · obtain ⟨m, hm, hem⟩ := exists_mem_maxima_gt ht hf hlt
      exact hmax m (.inr hm) hem
  · rintro ⟨he, hmax⟩
    refine ⟨?_, fun f hf => hmax f (hf.imp (fun h => h.1) (fun h => h.1))⟩
    exact he.imp (fun h => ⟨h, fun f hf => hmax f (.inl hf)⟩)
      (fun h => ⟨h, fun f hf => hmax f (.inr hf)⟩)

/-- What two one-sided filters keep: of `s` everything no element of `t` dominates, of `t`
everything no element of `s` dominates and whose stamp `s` does not already carry. -/
def mergeMaxima (stamp : E → P) (s t : Set E) : Set E :=
  {e | e ∈ s ∧ ∀ f ∈ t, ¬ stamp e < stamp f} ∪
    {f | f ∈ t ∧ (∀ e ∈ s, ¬ stamp f < stamp e) ∧ ∀ e ∈ s, stamp f ≠ stamp e}

/-- Where a stamp determines its element, the filters keep exactly the maxima of the union. -/
theorem mergeMaxima_eq_maxima (hs : maxima stamp s = s) (ht : maxima stamp t = t)
    (hinj : Set.InjOn stamp (s ∪ t)) : mergeMaxima stamp s t = maxima stamp (s ∪ t) := by
  have hs' : ∀ e ∈ s, ∀ f ∈ s, ¬ stamp e < stamp f := fun e he => by
    rw [← hs] at he
    exact he.2
  have ht' : ∀ e ∈ t, ∀ f ∈ t, ¬ stamp e < stamp f := fun e he => by
    rw [← ht] at he
    exact he.2
  ext e
  constructor
  · rintro (⟨he, hmax⟩ | ⟨he, hmax, -⟩)
    · exact ⟨.inl he, fun f hf => hf.elim (hs' e he f) (hmax f)⟩
    · exact ⟨.inr he, fun f hf => hf.elim (hmax f) (ht' e he f)⟩
  · rintro ⟨he, hmax⟩
    by_cases hes : e ∈ s
    · exact .inl ⟨hes, fun f hf => hmax f (.inr hf)⟩
    · have het : e ∈ t := he.resolve_left hes
      refine .inr ⟨het, fun f hf => hmax f (.inl hf), fun f hf heq => hes ?_⟩
      -- an equal stamp on the left would make `e` itself an element of the left
      rw [hinj (.inr het) (.inl hf) heq]
      exact hf

end Mantissa
