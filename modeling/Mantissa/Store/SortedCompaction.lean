import Mantissa.Core.SliceSort
import Mantissa.Store.Compaction

/-!
# Compaction by a comparison

Some ranks of the source compare time stamps as instants where both parse and as texts otherwise,
which is not transitive, and one domain compares values as equal although they differ in their time
stamps. For these `compactBy` takes the comparisons of ranks and values as they are, and whatever
sort there is.

`compactBy_compacts` says what is left for certain, and which entry is kept where the comparisons
are total on the entries. Where ranks are compared by a linear order, every sort gives what
`compactWith` gives (`compactBy_eq_compactWith`).
-/

namespace Mantissa

open List

variable {V A R : Type*} [LinearOrder A] [LinearOrder R]

lemma ordCmp_eq_compare {α : Type*} [LinearOrder α] (a b : α) : ordCmp a b = compare a b :=
  cmp_eq_compare a b

lemma totalOn_ordCmp {α : Type*} [LinearOrder α] (l : List α) : TotalOn ordCmp l := by
  have hcmp : (ordCmp : α → α → Ordering) = fun a b => compare a b := funext₂ ordCmp_eq_compare
  rw [hcmp]
  exact totalOn_compare id l

/-- `compare_ranked_entries_desc` on entries and their positions, given how ranks and values are
compared. -/
def compareEntriesDesc (rankCmp valueCmp : V → V → Ordering) (left right : MvRegEntry V A × ℕ) :
    Ordering :=
  (rankCmp right.1.value left.1.value).then <| (valueCmp right.1.value left.1.value).then <|
    (totalClockCmpDesc left.1.clock right.1.clock).then <| ordCmp left.2 right.2

variable {rankCmp valueCmp : V → V → Ordering} {entries : List (MvRegEntry V A × ℕ)}

lemma totalOn_compareEntriesDesc (hrank : TotalOn rankCmp (entries.map fun p => p.1.value))
    (hvalue : TotalOn valueCmp (entries.map fun p => p.1.value)) :
    TotalOn (compareEntriesDesc rankCmp valueCmp) entries := by
  have hclock : TotalOn (fun left right : MvRegEntry V A × ℕ =>
      totalClockCmpDesc left.1.clock right.1.clock) entries := by
    simp only [totalClockCmpDesc, ordCmp_eq_compare]
    exact (totalOn_compare (fun p : MvRegEntry V A × ℕ => p.1.clock.iter.map toLex) entries).flip
  have hindex : TotalOn (fun left right : MvRegEntry V A × ℕ => ordCmp left.2 right.2) entries := by
    simp only [ordCmp_eq_compare]
    exact totalOn_compare Prod.snd entries
  exact hrank.comap.flip.andThen (hvalue.comap.flip.andThen (hclock.andThen hindex))

/-- Where different values have different ranks, sorting entries is sorting their ranks. -/
lemma TotalOn.of_compareEntriesDesc
    (hswap : ∀ v w, rankCmp w v = (rankCmp v w).swap) (heq : ∀ v w, rankCmp v w = .eq → v = w)
    (h : TotalOn (compareEntriesDesc rankCmp valueCmp) entries) :
    TotalOn rankCmp (entries.map fun p => p.1.value) where
  swap v _ w _ := hswap v w
  trans := by
    have hfirst : ∀ {p q : MvRegEntry V A × ℕ} {o}, rankCmp q.1.value p.1.value = o → o ≠ .eq →
        compareEntriesDesc rankCmp valueCmp p q = o := by
      rintro p q o rfl ho
      unfold compareEntriesDesc
      cases hrank : rankCmp q.1.value p.1.value with
      | eq => exact absurd hrank ho
      | lt => rfl
      | gt => rfl
    simp only [forall_mem_map]
    intro p hp q hq s hs hpq hqs hps
    cases hrank : rankCmp p.1.value q.1.value with
    | gt => exact hpq hrank
    | eq => exact hqs (heq _ _ hrank ▸ hps)
    | lt =>
      cases hrank' : rankCmp q.1.value s.1.value with
      | gt => exact hqs hrank'
      | eq => exact hpq (heq _ _ hrank' ▸ hps)
      | lt =>
        refine h.trans s hs q hq p hp ?_ ?_ (hfirst hps (by decide))
        · rw [hfirst hrank' (by decide)]
          decide
        · rw [hfirst hrank (by decide)]
          decide

namespace MvReg

/-- `MvReg::compact_with`, with the sort and the comparisons as parameters. -/
def compactBy (sort : SliceSort (MvRegEntry V A × ℕ)) (rankCmp valueCmp : V → V → Ordering)
    (r : MvReg V A) (maxValues : ℕ) : MvReg V A :=
  if maxValues = 0 ∨ r.entries.length ≤ maxValues then r
  else r.keepFirst maxValues
    ((sort.sortBy (compareEntriesDesc rankCmp valueCmp) r.entries.zipIdx).map Prod.snd)

variable {sort : SliceSort (MvRegEntry V A × ℕ)} {r : MvReg V A} {n : ℕ}

lemma map_value_zipIdx (r : MvReg V A) : (r.entries.zipIdx.map fun p => p.1.value) =
    r.readValues := by
  calc (r.entries.zipIdx.map fun p => p.1.value)
      = (r.entries.zipIdx.map Prod.fst).map MvRegEntry.value := (map_map ..).symm
    _ = r.readValues := by rw [zipIdx_map_fst, readValues]

/-- The entry that is sorted first is kept. -/
lemma compactBy_compacts_of_head (hn : n ≠ 0) {top : MvRegEntry V A} {i : ℕ}
    {rest : List (MvRegEntry V A × ℕ)}
    (h : sort.sortBy (compareEntriesDesc rankCmp valueCmp) r.entries.zipIdx = (top, i) :: rest) :
    Compacts n r (r.compactBy sort rankCmp valueCmp n) top := by
  have htop : (top, i) ∈ r.entries.zipIdx := sort.mem_sortBy.mp (h ▸ mem_cons_self ..)
  unfold compactBy
  split_ifs with hskip
  · exact Compacts.of_length_le (hskip.resolve_left hn) (fst_mem_of_mem_zipIdx htop)
  · rw [h, map_cons]
    exact keepFirst_compacts hn htop

/-- **What compaction by comparisons leaves**, and that it keeps an entry that no other one compares
greater than, where the comparisons are total. -/
theorem compactBy_compacts (sort : SliceSort (MvRegEntry V A × ℕ)) (hn : n ≠ 0)
    (hne : r.entries ≠ []) : ∃ top, Compacts n r (r.compactBy sort rankCmp valueCmp n) top ∧
      (TotalOn rankCmp r.readValues → TotalOn valueCmp r.readValues → ∀ v ∈ r.readValues,
        (rankCmp v top.value).then (valueCmp v top.value) ≠ .gt) := by
  obtain ⟨⟨top, i⟩, rest, hsort⟩ : ∃ first rest,
      sort.sortBy (compareEntriesDesc rankCmp valueCmp) r.entries.zipIdx = first :: rest := by
    refine exists_cons_of_ne_nil fun hnil => ?_
    have hperm := sort.perm (compareEntriesDesc rankCmp valueCmp) r.entries.zipIdx
    rw [hnil] at hperm
    exact hne (zipIdx_eq_nil_iff.mp hperm.symm.eq_nil)
  refine ⟨top, compactBy_compacts_of_head hn hsort, fun hrank hvalue v hv => ?_⟩
  obtain ⟨e, he, rfl⟩ := mem_readValues.mp hv
  obtain ⟨j, hj⟩ := mem_iff_getElem?.mp he
  have htotal : TotalOn (compareEntriesDesc rankCmp valueCmp) r.entries.zipIdx :=
    totalOn_compareEntriesDesc (r.map_value_zipIdx ▸ hrank) (r.map_value_zipIdx ▸ hvalue)
  have hmem : (e, j) ∈ r.entries.zipIdx := mem_zipIdx_iff_getElem?.mpr hj
  have hle := sort.head_ne_gt htotal hsort hmem
  intro hgt
  refine hle ?_
  rw [compareEntriesDesc, ← Ordering.then_assoc]
  rw [hgt, Ordering.gt_then]

/-- Where the comparison is not total, any entry may be the one that is kept. -/
lemma exists_compactBy_compacts (hn : n ≠ 0) {e : MvRegEntry V A} (he : e ∈ r.entries)
    (htotal : ¬ TotalOn (compareEntriesDesc rankCmp valueCmp) r.entries.zipIdx) :
    ∃ sort, Compacts n r (r.compactBy sort rankCmp valueCmp n) e := by
  obtain ⟨i, hi⟩ := mem_iff_getElem?.mp he
  have hmem : (e, i) ∈ r.entries.zipIdx := mem_zipIdx_iff_getElem?.mpr hi
  obtain ⟨rest, hsort⟩ := SliceSort.startingWith_sortBy htotal hmem
  exact ⟨_, compactBy_compacts_of_head hn hsort⟩

/-- **Where ranks and values have a linear order, no sort has a choice.** -/
theorem compactBy_eq_compactWith [LinearOrder V] (sort : SliceSort (MvRegEntry V A × ℕ))
    (rank : V → R) (r : MvReg V A) (n : ℕ) :
    r.compactBy sort (fun v w => ordCmp (rank v) (rank w)) ordCmp n =
      (r.compactWith n fun e => rank e.value).1 := by
  unfold compactBy
  split_ifs with hskip
  · rw [compactWith, if_pos hskip]
  push Not at hskip
  rw [compactWith_eq _ hskip.1 hskip.2]
  -- both sort the entries by the same injective key
  let ranked (p : MvRegEntry V A × ℕ) : RankedEntry R V A :=
    ⟨p.2, rank p.1.value, p.1.value, p.1.clock⟩
  have hkey : ∀ p q, compareEntriesDesc (fun v w => ordCmp (rank v) (rank w)) ordCmp p q ≠ .gt ↔
      (ranked p).sortKey ≤ (ranked q).sortKey :=
    fun p q => (compareRankedEntriesDesc_ne_gt :
      compareRankedEntriesDesc (ranked p) (ranked q) ≠ .gt ↔ _)
  have htotal : TotalOn (compareEntriesDesc (fun v w => ordCmp (rank v) (rank w)) ordCmp)
      r.entries.zipIdx := by
    refine totalOn_compareEntriesDesc ?_ ?_
    · simp only [ordCmp_eq_compare]
      exact totalOn_compare rank _
    · exact totalOn_ordCmp _
  have hinj : ∀ p ∈ r.entries.zipIdx, ∀ q ∈ r.entries.zipIdx,
      (ranked p).sortKey = (ranked q).sortKey → p = q := by
    intro p hp q hq h
    have hindex : p.2 = q.2 := congrArg (fun k => (ofLex (ofLex (ofLex k).2).2).2) h
    exact Prod.ext ((index_eq_iff hp hq).mp hindex) hindex
  rw [sort.sortBy_eq htotal hkey hinj (perm_insertionSort
    (fun p q => (ranked p).sortKey ≤ (ranked q).sortKey) _) (pairwise_insertionSort _ _)]
  have hmap : (r.entries.zipIdx.insertionSort fun p q =>
      (ranked p).sortKey ≤ (ranked q).sortKey).map ranked = r.rankedEntries fun e => rank e.value :=
    map_insertionSort _ _ _ _ fun p _ q _ => compareRankedEntriesDesc_ne_gt.symm
  rw [← hmap, map_map]
  rfl

end MvReg

end Mantissa
