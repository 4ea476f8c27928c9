import Mathlib

/-!
# Sorting by a comparison that may not be an order

`slice::sort_by` asks for a total order. Given one, it sorts; given anything else it may leave the
elements in any order. `SliceSort` is that contract: a reordering, and a sorted one where the
comparison is total on the elements (`TotalOn`). What holds for every `SliceSort` holds for the
real one.

`TotalOn` is about the elements at hand. It is kept by a second comparison that breaks ties
(`TotalOn.andThen`), and a comparison by a key has it (`totalOn_compare`). There is always a sort
(`SliceSort.insertion`), and where the comparison is not total, one that starts with any given
element (`SliceSort.startingWith`).
-/

namespace Mantissa

open List

variable {α K : Type*} [LinearOrder K]

/-- The comparison of a pair does not depend on its order, and "not greater" is transitive. -/
structure TotalOn (cmp : α → α → Ordering) (l : List α) : Prop where
  swap : ∀ a ∈ l, ∀ b ∈ l, cmp b a = (cmp a b).swap
  trans : ∀ a ∈ l, ∀ b ∈ l, ∀ c ∈ l, cmp a b ≠ .gt → cmp b c ≠ .gt → cmp a c ≠ .gt

/-- `slice::sort_by`. -/
structure SliceSort (α : Type*) where
  sortBy : (α → α → Ordering) → List α → List α
  perm : ∀ cmp l, (sortBy cmp l).Perm l
  sorted : ∀ cmp l, TotalOn cmp l → (sortBy cmp l).Pairwise fun a b => cmp a b ≠ .gt

variable {cmp cmp' : α → α → Ordering} {l : List α} {a b c : α}

/-! ## Comparisons -/

lemma totalOn_compare (key : α → K) (l : List α) :
    TotalOn (fun a b => compare (key a) (key b)) l where
  swap a _ b _ := (Std.OrientedCmp.eq_swap).trans rfl
  trans a _ b _ c _ hab hbc := by
    rw [compare_le_iff_le] at hab hbc ⊢
    exact hab.trans hbc

/-- Of two elements nothing is asked but that their order does not matter. -/
lemma totalOn_pair (hswap : ∀ a b, cmp b a = (cmp a b).swap) (a b : α) : TotalOn cmp [a, b] where
  swap u _ v _ := hswap u v
  trans u hu v hv w hw huv hvw := by
    have hself : ∀ x, cmp x x ≠ .gt := by
      intro x hgt
      have hsame := hswap x x
      rw [hgt] at hsame
      cases hsame
    rcases mem_pair.mp hu with rfl | rfl <;> rcases mem_pair.mp hv with rfl | rfl <;>
      rcases mem_pair.mp hw with rfl | rfl <;> first | exact hself _ | assumption

lemma totalOn_of_transCmp (cmp : α → α → Ordering) [Std.TransCmp cmp] (l : List α) :
    TotalOn cmp l where
  swap _ _ _ _ := Std.OrientedCmp.eq_swap
  trans _ _ _ _ _ _ hab hbc := by
    rw [ne_eq, Ordering.ne_gt_iff_isLE] at hab hbc ⊢
    exact Std.TransCmp.isLE_trans hab hbc

namespace TotalOn

variable (h : TotalOn cmp l)

include h

lemma refl (ha : a ∈ l) : cmp a a = .eq := by
  have hswap := h.swap a ha a ha
  cases hcmp : cmp a a <;> rw [hcmp] at hswap <;> simp_all

lemma eq_trans (ha : a ∈ l) (hb : b ∈ l) (hc : c ∈ l) (hab : cmp a b = .eq)
    (hbc : cmp b c = .eq) : cmp a c = .eq := by
  have hac := h.trans a ha b hb c hc (by simp [hab]) (by simp [hbc])
  have hca := h.trans c hc b hb a ha (by simp [h.swap b hb c hc, hbc])
      (by simp [h.swap a ha b hb, hab])
  rw [h.swap a ha c hc] at hca
  cases hcmp : cmp a c <;> simp_all

/-- A comparison that goes one step down and does not go up again ends below. -/
lemma lt_of_lt_of_ne_gt (ha : a ∈ l) (hb : b ∈ l) (hc : c ∈ l)
    (hab : cmp a b = .lt) (hbc : cmp b c ≠ .gt) : cmp a c = .lt := by
  by_contra hac
  have hca : cmp c a ≠ .gt := by
    rw [h.swap a ha c hc]
    cases hcmp : cmp a c <;> simp_all
  have hba := h.trans b hb c hc a ha hbc hca
  rw [h.swap a ha b hb, hab] at hba
  exact hba rfl

lemma lt_of_ne_gt_of_lt (ha : a ∈ l) (hb : b ∈ l) (hc : c ∈ l)
    (hab : cmp a b ≠ .gt) (hbc : cmp b c = .lt) : cmp a c = .lt := by
  by_contra hac
  have hca : cmp c a ≠ .gt := by
    rw [h.swap a ha c hc]
    cases hcmp : cmp a c <;> simp_all
  have hcb := h.trans c hc a ha b hb hca hab
  rw [h.swap b hb c hc, hbc] at hcb
  exact hcb rfl

/-- Ties may be broken by another comparison. -/
lemma andThen (h' : TotalOn cmp' l) : TotalOn (fun a b => (cmp a b).then (cmp' a b)) l where
  swap a ha b hb := by rw [h.swap a ha b hb, h'.swap a ha b hb, Ordering.swap_then]
  trans a ha b hb c hc hab hbc := by
    have hfirst : ∀ {x y}, (cmp x y).then (cmp' x y) ≠ .gt → cmp x y ≠ .gt := by
      intro x y hxy hgt
      exact hxy (by simp [hgt])
    cases h₁ : cmp a b with
    | gt => exact absurd h₁ (hfirst hab)
    | lt =>
      have := h.lt_of_lt_of_ne_gt ha hb hc h₁ (hfirst hbc)
      simp [this]
    | eq =>
      cases h₂ : cmp b c with
      | gt => exact absurd h₂ (hfirst hbc)
      | lt =>
        have := h.lt_of_ne_gt_of_lt ha hb hc (by simp [h₁]) h₂
        simp [this]
      | eq =>
        rw [h₁, Ordering.eq_then] at hab
        rw [h₂, Ordering.eq_then] at hbc
        rw [h.eq_trans ha hb hc h₁ h₂, Ordering.eq_then]
        exact h'.trans a ha b hb c hc hab hbc

/-- The other way round. -/
lemma flip : TotalOn (fun a b => cmp b a) l where
  swap _ ha _ hb := h.swap _ hb _ ha
  trans _ ha _ hb _ hc hab hbc := h.trans _ hc _ hb _ ha hbc hab

omit h

/-- Elements may be compared by what they contain. -/
lemma comap {β : Type*} {f : β → α} {l : List β} (h : TotalOn cmp (l.map f)) :
    TotalOn (fun a b => cmp (f a) (f b)) l where
  swap _ ha _ hb := h.swap _ (mem_map_of_mem ha) _ (mem_map_of_mem hb)
  trans _ ha _ hb _ hc := h.trans _ (mem_map_of_mem ha) _ (mem_map_of_mem hb) _ (mem_map_of_mem hc)

end TotalOn

/-! ## Sorts -/

namespace SliceSort

variable (sort : SliceSort α)

lemma mem_sortBy : a ∈ sort.sortBy cmp l ↔ a ∈ l := (sort.perm cmp l).mem_iff

/-- The first element of a sorted list is greater than none. -/
lemma head_ne_gt {rest : List α} (htotal : TotalOn cmp l)
    (h : sort.sortBy cmp l = a :: rest) (hb : b ∈ l) : cmp a b ≠ .gt := by
  have hsorted := sort.sorted cmp l htotal
  rw [h] at hsorted
  rcases mem_cons.mp (h ▸ sort.mem_sortBy.mpr hb) with rfl | hmem
  · rw [htotal.refl hb]
    decide
  · exact (pairwise_cons.mp hsorted).1 b hmem

/-- Sorting by an injective key leaves no choice. -/
lemma sortBy_eq {key : α → K} {sorted : List α} (htotal : TotalOn cmp l)
    (hkey : ∀ a b, cmp a b ≠ .gt ↔ key a ≤ key b)
    (hinj : ∀ a ∈ l, ∀ b ∈ l, key a = key b → a = b) (hperm : sorted.Perm l)
    (hsorted : sorted.Pairwise fun a b => key a ≤ key b) : sort.sortBy cmp l = sorted := by
  have hpairwise : (sort.sortBy cmp l).Pairwise fun a b => key a ≤ key b :=
    (sort.sorted cmp l htotal).imp fun {a b} => (hkey a b).mp
  refine ((sort.perm cmp l).trans hperm.symm).eq_of_pairwise ?_ hpairwise hsorted
  intro a b ha hb hab hba
  exact hinj a (sort.mem_sortBy.mp ha) b (hperm.mem_iff.mp hb) (le_antisymm hab hba)

/-- A sort to have one. -/
def insertion (α : Type*) : SliceSort α where
  sortBy cmp l := l.insertionSort fun a b => cmp a b ≠ .gt
  perm cmp l := perm_insertionSort _ l
  sorted cmp l htotal := by
    -- on the elements of the list the comparison is a total preorder
    have htotal' : Std.Total fun a b : {a // a ∈ l} => cmp a.1 b.1 ≠ .gt := by
      refine ⟨fun a b => ?_⟩
      by_contra hnot
      push Not at hnot
      rw [htotal.swap a.1 a.2 b.1 b.2, hnot.1] at hnot
      exact absurd hnot.2 (by decide)
    have htrans : IsTrans {a // a ∈ l} fun a b => cmp a.1 b.1 ≠ .gt :=
      ⟨fun a b c => htotal.trans a.1 a.2 b.1 b.2 c.1 c.2⟩
    have hmap : (l.attach.insertionSort fun a b => cmp a.1 b.1 ≠ .gt).map Subtype.val =
        l.insertionSort fun a b => cmp a b ≠ .gt := by
      rw [map_insertionSort _ (fun a b => cmp a b ≠ .gt) _ _ fun _ _ _ _ => Iff.rfl,
        attach_map_subtype_val]
    rw [← hmap, pairwise_map]
    exact pairwise_insertionSort _ _

open Classical in
/-- A sort that puts one element first where the comparison is not total. -/
noncomputable def startingWith (first : α) : SliceSort α where
  sortBy cmp l :=
    if TotalOn cmp l then (insertion α).sortBy cmp l
    else if first ∈ l then first :: l.erase first else l
  perm cmp l := by
    split_ifs with htotal hmem
    · exact (insertion α).perm cmp l
    · exact (perm_cons_erase hmem).symm
    · rfl
  sorted cmp l htotal := by
    rw [if_pos htotal]
    exact (insertion α).sorted cmp l htotal

lemma startingWith_sortBy (htotal : ¬ TotalOn cmp l) (ha : a ∈ l) :
    ∃ rest, (startingWith a).sortBy cmp l = a :: rest := by
  classical
  exact ⟨l.erase a, by simp [startingWith, if_neg htotal, if_pos ha]⟩

end SliceSort

end Mantissa
