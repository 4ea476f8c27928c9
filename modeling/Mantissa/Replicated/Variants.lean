import Mantissa.Replicated.Ranked

/-!
# Values that differ in what their order leaves out

Some values are compared by part of their fields only, so a register may show variants of one value.
The snapshot sorts by that comparison and keeps the first variant of each value in the order of the
entries; the others are never looked at. Compaction looks at every entry. If the rank depends on a
field that the comparison leaves out, the two may see different variants of a value.

The order of the entries is the order in which merges happened to deliver them. `variants_kept_iff`
says when compaction keeps the winner for every such order: every variant of the value that ranks
highest ranks above every other value.
-/

namespace Mantissa

open List

open Workload (selectBest selectBest_unbeaten selectBest_eq_none)

variable {V A : Type*} [LinearOrder A] {valueCmp preference : V → V → Ordering}

/-! ## Snapshots -/

/-- `MvRegSnapshot::from_unsorted` with a comparison of values: a stable sort, and of neighbours
that compare as equal the first. -/
def snapshotBy (valueCmp : V → V → Ordering) (values : List V) : List V :=
  (values.insertionSort fun a b => valueCmp a b ≠ .gt).destutter fun a b => valueCmp a b ≠ .eq

variable {values : List V}

lemma mem_of_mem_snapshotBy {v : V} (h : v ∈ snapshotBy valueCmp values) : v ∈ values :=
  mem_insertionSort _ |>.mp ((destutter_sublist _ _).subset h)

section Laws

variable [Std.TransCmp valueCmp]

/-- Nothing goes before a value that compares as equal to it. -/
lemma find?_orderedInsert (v a : V) (values : List V) :
    (values.orderedInsert (fun a b => valueCmp a b ≠ .gt) a).find? (fun w => valueCmp v w == .eq) =
      (a :: values).find? fun w => valueCmp v w == .eq := by
  induction values with
  | nil => rfl
  | cons b values ih =>
    rw [orderedInsert_cons]
    split_ifs with hab
    · rfl
    · -- `b` stays in front, so it is smaller than `a`
      rw [find?_cons, ih]
      rw [not_not] at hab
      simp only [find?_cons]
      cases hb : valueCmp v b == .eq with
      | false => rfl
      | true =>
        have ha : (valueCmp v a == .eq) = false := by
          rw [beq_iff_eq] at hb
          rw [beq_eq_false_iff_ne]
          intro heq
          have hab' : valueCmp a b = .eq := Std.TransCmp.eq_trans (Std.OrientedCmp.eq_symm heq) hb
          rw [hab'] at hab
          cases hab
        rw [ha]

lemma find?_insertionSort (v : V) (values : List V) :
    (values.insertionSort fun a b => valueCmp a b ≠ .gt).find? (fun w => valueCmp v w == .eq) =
      values.find? fun w => valueCmp v w == .eq := by
  induction values with
  | nil => rfl
  | cons a values ih =>
    rw [insertionSort_cons, find?_orderedInsert, find?_cons, find?_cons, ih]

lemma find?_destutter' (v a : V) (values : List V) :
    (values.destutter' (fun a b => valueCmp a b ≠ .eq) a).find? (fun w => valueCmp v w == .eq) =
      (a :: values).find? fun w => valueCmp v w == .eq := by
  induction values generalizing a with
  | nil => rfl
  | cons b values ih =>
    rw [List.destutter'_cons]
    split_ifs with hab
    · rw [find?_cons, ih b]
      rfl
    · rw [ih a]
      rw [not_not] at hab
      simp only [find?_cons]
      have hsame : (valueCmp v b == .eq) = (valueCmp v a == .eq) := by
        rw [Std.TransCmp.congr_right hab]
      rw [hsame]
      cases valueCmp v a == .eq <;> rfl

/-- **The snapshot has the first variant of each value.** -/
lemma find?_snapshotBy (v : V) (values : List V) :
    (snapshotBy valueCmp values).find? (fun w => valueCmp v w == .eq) =
      values.find? fun w => valueCmp v w == .eq := by
  rw [← find?_insertionSort v values, snapshotBy]
  cases values.insertionSort fun a b => valueCmp a b ≠ .gt with
  | nil => rfl
  | cons a values => exact find?_destutter' v a values

/-- Every value has a variant in the snapshot. -/
lemma exists_mem_snapshotBy (valueCmp : V → V → Ordering) [Std.TransCmp valueCmp]
    {v : V} (h : v ∈ values) : ∃ w ∈ snapshotBy valueCmp values, valueCmp v w = .eq := by
  have hself : valueCmp v v = .eq := Std.ReflCmp.compare_self
  cases hfind : (snapshotBy valueCmp values).find? fun w => valueCmp v w == .eq with
  | some w =>
    have hw := find?_some hfind
    exact ⟨w, mem_of_find?_eq_some hfind, beq_iff_eq.mp hw⟩
  | none =>
    rw [find?_snapshotBy, find?_eq_none] at hfind
    exact absurd (beq_iff_eq.mpr hself) (hfind v h)

/-- Snapshots are sorted, and no two values of one are variants. -/
lemma pairwise_snapshotBy (values : List V) :
    (snapshotBy valueCmp values).Pairwise fun a b => valueCmp a b = .lt := by
  have hsorted : (snapshotBy valueCmp values).Pairwise fun a b => valueCmp a b ≠ .gt :=
    ((SliceSort.insertion V).sorted valueCmp values (totalOn_of_transCmp valueCmp values)).sublist
      (destutter_sublist _ _)
  have hchain : (snapshotBy valueCmp values).IsChain fun a b => valueCmp a b ≠ .eq :=
    isChain_destutter _ _
  have hlt : (snapshotBy valueCmp values).IsChain fun a b => valueCmp a b = .lt := by
    refine isChain_iff_getElem.mpr fun i hi => ?_
    have hle := isChain_iff_getElem.mp hsorted.isChain i hi
    have hne := isChain_iff_getElem.mp hchain i hi
    cases hcmp : valueCmp (snapshotBy valueCmp values)[i] (snapshotBy valueCmp values)[i + 1] with
    | lt => rfl
    | eq => exact absurd hcmp hne
    | gt => exact absurd hcmp hle
  have htrans : Trans (fun a b => valueCmp a b = .lt) (fun a b => valueCmp a b = .lt)
      (fun a b => valueCmp a b = .lt) := ⟨fun hab hbc => Std.TransCmp.lt_trans hab hbc⟩
  exact isChain_iff_pairwise.mp hlt

lemma eq_of_mem_snapshotBy {v w : V} (hv : v ∈ snapshotBy valueCmp values)
    (hw : w ∈ snapshotBy valueCmp values) (h : valueCmp v w = .eq) : v = w := by
  by_contra hne
  have hsymm : Std.Symm fun a b => valueCmp a b ≠ .eq :=
    ⟨fun _ _ hab hba => hab (Std.OrientedCmp.eq_symm hba)⟩
  have hpair : (snapshotBy valueCmp values).Pairwise fun a b => valueCmp a b ≠ .eq := by
    refine (pairwise_snapshotBy values).imp fun hlt heq => ?_
    rw [hlt] at heq
    cases heq
  exact hpair.forall hv hw hne h

end Laws

/-! ## The winner -/

/-- The rank: what is preferred, and of what is preferred alike the smaller value. -/
def variantRank (valueCmp preference : V → V → Ordering) (left right : V) : Ordering :=
  (preference left right).then (valueCmp right left)

instance instTransCmpVariantRank [Std.TransCmp valueCmp] [Std.TransCmp preference] :
    Std.TransCmp (variantRank valueCmp preference) :=
  inferInstanceAs (Std.TransCmp (compareLex preference fun a b => valueCmp b a))

/-- What is selected of a register's values: the loop replaces what is strictly less preferred. -/
def selectVariant (valueCmp preference : V → V → Ordering) (values : List V) : Option V :=
  selectBest (fun current value => preference value current == .gt) (snapshotBy valueCmp values)

variable [Std.TransCmp valueCmp] {values : List V}

/-- Values that rank alike are variants of one value. -/
lemma eq_of_variantRank {a b : V} (h : variantRank valueCmp preference a b = .eq) :
    valueCmp a b = .eq := by
  rw [variantRank, Ordering.then_eq_eq] at h
  exact Std.OrientedCmp.eq_symm h.2

variable [Std.TransCmp preference]

variable (valueCmp preference) in
/-- The value selected ranks highest in the snapshot. -/
lemma exists_selectVariant (hne : values ≠ []) :
    ∃ best, selectVariant valueCmp preference values = some best ∧
      best ∈ snapshotBy valueCmp values ∧ ∀ v ∈ snapshotBy valueCmp values,
        variantRank valueCmp preference v best ≠ .gt := by
  have hloop : selectVariant valueCmp preference values = selectBest
      (fun a b => variantRank valueCmp preference b a == .gt) (snapshotBy valueCmp values) := by
    refine selectBest_congr (pairwise_snapshotBy values) fun a b hab => ?_
    rw [variantRank, hab]
    cases preference b a <;> rfl
  have htrans : ∀ a ∈ Set.univ, ∀ b ∈ Set.univ, ∀ c ∈ Set.univ,
      (variantRank valueCmp preference b a == .gt) = true →
      (variantRank valueCmp preference c b == .gt) = true →
      (variantRank valueCmp preference c a == .gt) = true := by
    intro a _ b _ c _ hab hbc
    rw [beq_iff_eq] at hab hbc ⊢
    exact Std.TransCmp.gt_trans hbc hab
  have hirrefl : ∀ a ∈ Set.univ, ¬ (variantRank valueCmp preference a a == .gt) = true := by
    intro a _
    have hself : variantRank valueCmp preference a a = .eq := Std.ReflCmp.compare_self
    rw [hself]
    decide
  rw [hloop]
  cases hselected : selectBest (fun a b => variantRank valueCmp preference b a == .gt)
      (snapshotBy valueCmp values) with
  | none =>
    obtain ⟨v, hv⟩ := exists_mem_of_ne_nil values hne
    obtain ⟨w, hw, -⟩ := exists_mem_snapshotBy valueCmp hv
    exact absurd hw (selectBest_eq_none.mp hselected ▸ not_mem_nil)
  | some best =>
    obtain ⟨hmem, hbest⟩ := selectBest_unbeaten htrans hirrefl (fun w _ => Set.mem_univ w) hselected
    exact ⟨best, rfl, hmem, fun v hv hgt => hbest v hv (beq_iff_eq.mpr hgt)⟩

/-- Every variant of the value that ranks highest ranks above every other value. -/
def VariantsTogether (valueCmp preference : V → V → Ordering) (values : List V) : Prop :=
  ∀ top ∈ values, (∀ v ∈ values, variantRank valueCmp preference v top ≠ .gt) →
    ∀ variant ∈ values, valueCmp variant top = .eq → ∀ other ∈ values, valueCmp other top ≠ .eq →
      variantRank valueCmp preference other variant = .lt

/-- Then that value is selected from any part of the values that has a variant of it. -/
lemma VariantsTogether.selectVariant (h : VariantsTogether valueCmp preference values) {top : V}
    (htop : top ∈ values) (hbest : ∀ v ∈ values, variantRank valueCmp preference v top ≠ .gt)
    {part : List V} (hmem : top ∈ part) (hsub : ∀ v ∈ part, v ∈ values) :
    ∃ best, selectVariant valueCmp preference part = some best ∧ valueCmp best top = .eq := by
  obtain ⟨best, hselected, hin, hgreatest⟩ :=
    exists_selectVariant valueCmp preference (ne_nil_of_mem hmem)
  refine ⟨best, hselected, ?_⟩
  by_contra hne
  obtain ⟨variant, hvariant, hsame⟩ := exists_mem_snapshotBy valueCmp hmem
  have hlt := h top htop hbest variant (hsub _ (mem_of_mem_snapshotBy hvariant))
    (Std.OrientedCmp.eq_symm hsame) best (hsub _ (mem_of_mem_snapshotBy hin)) hne
  exact hgreatest variant hvariant (Std.OrientedCmp.gt_of_lt hlt)

/-! ## Compaction -/

/-- The entries of a register in another order. -/
def MvReg.reorder (r : MvReg V A) (entries : List (MvRegEntry V A)) (h : entries.Perm r.entries) :
    MvReg V A where
  entries := entries
  normalized := ⟨h.symm.pairwise r.normalized.1 fun hc => Std.Symm.symm _ _ hc,
    fun e he => r.normalized.2 e (h.subset he)⟩

variable {r : MvReg V A}

variable (valueCmp preference) in
/-- Compaction keeps an entry that ranks highest. -/
lemma exists_compactBy_variantRank (sort : SliceSort (MvRegEntry V A × ℕ)) {n : ℕ} (hn : n ≠ 0)
    (hne : r.entries ≠ []) : ∃ top,
      MvReg.Compacts n r (r.compactBy sort (variantRank valueCmp preference) valueCmp n) top ∧
      ∀ v ∈ r.readValues, variantRank valueCmp preference v top.value ≠ .gt := by
  obtain ⟨top, hcompacts, htop⟩ := MvReg.compactBy_compacts sort hn hne
  refine ⟨top, hcompacts, fun v hv hgt => ?_⟩
  refine htop (totalOn_of_transCmp (variantRank valueCmp preference) _)
    (totalOn_of_transCmp valueCmp _) v hv ?_
  rw [hgt, Ordering.gt_then]

/-- Variants that rank on their own keep the winner. -/
lemma VariantsTogether.kept (h : VariantsTogether valueCmp preference r.readValues)
    (sort : SliceSort (MvRegEntry V A × ℕ)) {n : ℕ} (hn : 1 ≤ n) :
    Option.Rel (fun a b => valueCmp a b = .eq) (Mantissa.selectVariant valueCmp preference
        (r.compactBy sort (variantRank valueCmp preference) valueCmp n).readValues)
      (Mantissa.selectVariant valueCmp preference r.readValues) := by
  by_cases hne : r.entries = []
  · rw [MvReg.compactBy, if_pos (.inr (by simp [hne])), MvReg.readValues, hne]
    exact .none
  obtain ⟨top, hcompacts, hbest⟩ := exists_compactBy_variantRank valueCmp preference sort
    (Nat.one_le_iff_ne_zero.mp hn) hne
  have hmem : top.value ∈ r.readValues := MvReg.mem_readValues.mpr ⟨top, hcompacts.top_mem, rfl⟩
  obtain ⟨after, hafter, heq⟩ := h.selectVariant hmem hbest hcompacts.top_mem_readValues
    fun v hv => hcompacts.readValues_subset hv
  obtain ⟨before, hbefore, heq'⟩ := h.selectVariant hmem hbest hmem fun v hv => hv
  rw [hafter, hbefore]
  exact .some (Std.TransCmp.eq_trans heq (Std.OrientedCmp.eq_symm heq'))

/-- A weak variant and a value above it, seen first, hide the value that ranks highest. -/
lemma not_selected_of_variant_first {top variant other : V} {rest : List V}
    (hvariant : valueCmp variant top = .eq) (hother : valueCmp other top ≠ .eq)
    (hrank : variantRank valueCmp preference other variant = .gt) {best : V}
    (h : selectVariant valueCmp preference (variant :: other :: rest) = some best) :
    valueCmp best top ≠ .eq := by
  intro hbest
  obtain ⟨best', hselected, hmem, hgreatest⟩ :=
    exists_selectVariant valueCmp preference (cons_ne_nil variant (other :: rest))
  obtain rfl := Option.some.inj (h.symm.trans hselected)
  have hself : ∀ v : V, (valueCmp v v == .eq) = true :=
    fun v => beq_iff_eq.mpr Std.ReflCmp.compare_self
  have hvmem : variant ∈ snapshotBy valueCmp (variant :: other :: rest) := by
    refine mem_of_find?_eq_some ((find?_snapshotBy variant _).trans ?_)
    rw [find?_cons, hself]
  have homem : other ∈ snapshotBy valueCmp (variant :: other :: rest) := by
    refine mem_of_find?_eq_some ((find?_snapshotBy other _).trans ?_)
    have hne : (valueCmp other variant == .eq) = false := by
      rw [beq_eq_false_iff_ne]
      exact fun heq => hother (Std.TransCmp.eq_trans heq hvariant)
    rw [find?_cons, hne, find?_cons, hself]
  -- the snapshot has one variant of the value, so that is the one selected
  obtain rfl : best = variant := eq_of_mem_snapshotBy hmem hvmem
    (Std.TransCmp.eq_trans hbest (Std.OrientedCmp.eq_symm hvariant))
  exact hgreatest other homem hrank

/-- **Compaction keeps the winner whatever the order of the entries** if and only if every variant
of the value that ranks highest ranks above every other value. -/
theorem variants_kept_iff : (∀ r' : MvReg V A, r'.entries.Perm r.entries →
      ∀ (sort : SliceSort (MvRegEntry V A × ℕ)) (n : ℕ), 1 ≤ n →
        Option.Rel (fun a b => valueCmp a b = .eq) (selectVariant valueCmp preference
            (r'.compactBy sort (variantRank valueCmp preference) valueCmp n).readValues)
          (selectVariant valueCmp preference r'.readValues)) ↔
      VariantsTogether valueCmp preference r.readValues := by
  classical
  constructor
  · intro hkept top htop hbest variant hvariant hsame other hother hdiff
    by_contra hnot
    have hrank : variantRank valueCmp preference other variant = .gt := by
      cases hcmp : variantRank valueCmp preference other variant with
      | lt => exact absurd hcmp hnot
      | gt => rfl
      | eq => exact absurd (Std.TransCmp.eq_trans (eq_of_variantRank hcmp) hsame) hdiff
    obtain ⟨e, he, rfl⟩ := MvReg.mem_readValues.mp hvariant
    obtain ⟨f, hf, rfl⟩ := MvReg.mem_readValues.mp hother
    -- the two entries come first
    have hfe : f ∈ r.entries.erase e := by
      refine (mem_erase_of_ne ?_).mpr hf
      rintro rfl
      exact hdiff hsame
    have hperm : (e :: f :: (r.entries.erase e).erase f).Perm r.entries :=
      ((perm_cons_erase hfe).symm.cons e).trans (perm_cons_erase he).symm
    let r' := r.reorder _ hperm
    have hmem : ∀ v, v ∈ r'.readValues ↔ v ∈ r.readValues := fun v => (hperm.map _).mem_iff
    obtain ⟨kept, hcompacts, hgreatest⟩ :=
      exists_compactBy_variantRank (r := r') valueCmp preference
      (SliceSort.insertion _) Nat.one_ne_zero (cons_ne_nil e _)
    have hkepttop : valueCmp kept.value top = .eq := by
      have hkept := hbest kept.value
        ((hmem _).mp (MvReg.mem_readValues.mpr ⟨kept, hcompacts.top_mem, rfl⟩))
      have htop' := hgreatest top ((hmem _).mpr htop)
      rw [ne_eq, Ordering.ne_gt_iff_isLE] at hkept htop'
      exact eq_of_variantRank (Std.OrientedCmp.isLE_antisymm hkept htop')
    have hsame' := hkept r' hperm (SliceSort.insertion _) 1 le_rfl
    rw [hcompacts.readValues_one] at hsame'
    cases hbefore : selectVariant valueCmp preference r'.readValues with
    | none =>
      rw [hbefore] at hsame'
      cases hsame'
    | some best =>
      rw [hbefore] at hsame'
      cases hsame' with
      | some heq =>
        refine not_selected_of_variant_first hsame hdiff hrank hbefore ?_
        exact Std.TransCmp.eq_trans (Std.OrientedCmp.eq_symm heq) hkepttop
  · intro h r' hperm sort n hn
    have hvalues : VariantsTogether valueCmp preference r'.readValues := by
      have hmem : ∀ v, v ∈ r'.readValues ↔ v ∈ r.readValues := fun v => (hperm.map _).mem_iff
      simpa only [VariantsTogether, hmem] using h
    exact hvalues.kept sort hn

end Mantissa
