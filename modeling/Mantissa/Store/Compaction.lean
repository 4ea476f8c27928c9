import Mantissa.Store.MvReg

/-!
# Register compaction

`MvReg::compact_with` keeps the `max_values` highest-ranked entries of a register and merges the
clocks of the dropped ones into the best kept entry. The source works with positions: it ranks
the entries with their index, sorts, keeps the indices of the first `max_values`, and absorbs into
the entry at the first index. `compactWith` follows it.

`compactWith_spec` says what comes out in terms of entries, which is all later files use: the
entries split into kept and dropped ones, the best entry is kept and takes the dropped clocks, and
the rest is put back unchanged. From it follow that compaction keeps the merged clock
(`clock_compactWith`) and where every compacted entry comes from (`mem_compactWith`).

Registers whose ranks are not compared by one linear order are compacted elsewhere with the same
last part, `keepFirst`; `Compacts` is what both promise, and `compactWith_safe` sums it up.
-/

namespace Mantissa

open VectorClock List

variable {V A R : Type*} [LinearOrder V] [LinearOrder A] [LinearOrder R]

/-! ## Putting a list of entries back -/

namespace MvReg

omit [LinearOrder V]

variable {e : MvRegEntry V A} {c : VectorClock A}

lemma mem_of_mem_applyPut {r : MvReg V A} {v : V}
    (he : e ∈ (r.applyPut c v).entries) : e ∈ r.entries ∨ e = ⟨c, v⟩ := by
  change e ∈ putEntries r.entries c v at he
  by_cases hc : c = ⊥
  · rw [putEntries, if_pos (isEmpty_iff_eq_bot.mpr hc)] at he
    exact .inl he
  · rcases (mem_putEntries hc).mp he with h | h
    · exact .inl h.1
    · exact .inr h.1

/-- A put loses no causal information: its clock and every old clock stay below some entry. -/
lemma exists_ge_applyPut {r : MvReg V A} {v : V} {d : VectorClock A}
    (hd : d = c ∨ ∃ e ∈ r.entries, e.clock = d) (hne : d ≠ ⊥) :
    ∃ e ∈ (r.applyPut c v).entries, d ≤ e.clock := by
  change ∃ e ∈ putEntries r.entries c v, d ≤ e.clock
  by_cases hc : c = ⊥
  · rw [putEntries, if_pos (isEmpty_iff_eq_bot.mpr hc)]
    rcases hd with rfl | ⟨e, he, rfl⟩
    · exact absurd hc hne
    · exact ⟨e, he, le_rfl⟩
  · have hput : ∃ e ∈ putEntries r.entries c v, c ≤ e.clock := by
      by_cases hadd : ∀ f ∈ r.entries, ¬ c < f.clock
      · exact ⟨⟨c, v⟩, (mem_putEntries hc).mpr (.inr ⟨rfl, hadd⟩), le_rfl⟩
      · push Not at hadd
        obtain ⟨f, hf, hlt⟩ := hadd
        exact ⟨f, (mem_putEntries hc).mpr (.inl ⟨hf, not_le_of_gt hlt⟩), hlt.le⟩
    rcases hd with rfl | ⟨e, he, rfl⟩
    · exact hput
    · by_cases hle : e.clock ≤ c
      · obtain ⟨f, hf, hcf⟩ := hput
        exact ⟨f, hf, hle.trans hcf⟩
      · exact ⟨e, (mem_putEntries hc).mpr (.inl ⟨he, hle⟩), le_rfl⟩

lemma mem_of_mem_foldl_applyPut : ∀ (l : List (MvRegEntry V A)) (r : MvReg V A),
      e ∈ (l.foldl (fun reg entry => reg.applyPut entry.clock entry.value) r).entries →
      e ∈ r.entries ∨ e ∈ l
  | [], _, he => .inl he
  | f :: l, r, he => by
    rcases mem_of_mem_foldl_applyPut l _ he with h | h
    · rcases mem_of_mem_applyPut h with h | h
      · exact .inl h
      · exact .inr (h ▸ mem_cons_self ..)
    · exact .inr (mem_cons_of_mem f h)

lemma exists_ge_foldl_applyPut {d : VectorClock A} (hne : d ≠ ⊥) :
    ∀ (l : List (MvRegEntry V A)) (r : MvReg V A),
      ((∃ e ∈ r.entries, d ≤ e.clock) ∨ ∃ e ∈ l, e.clock = d) →
      ∃ e ∈ (l.foldl (fun reg entry => reg.applyPut entry.clock entry.value) r).entries, d ≤ e.clock
  | [], _, h => h.resolve_right (by simp)
  | f :: l, r, h => by
    refine exists_ge_foldl_applyPut hne l _ ?_
    rcases h with ⟨e, he, hle⟩ | ⟨e, he, rfl⟩
    · have hene : e.clock ≠ ⊥ := r.normalized.2 e he
      obtain ⟨g, hg, heg⟩ := exists_ge_applyPut (c := f.clock) (v := f.value)
        (.inr ⟨e, he, rfl⟩) hene
      exact .inl ⟨g, hg, hle.trans heg⟩
    · rcases mem_cons.mp he with rfl | he
      · exact .inl (exists_ge_applyPut (.inl rfl) hne)
      · exact .inr ⟨e, he, rfl⟩

lemma mem_of_mem_fromEntries {l : List (MvRegEntry V A)} (he : e ∈ (fromEntries l).entries) :
    e ∈ l :=
  (mem_of_mem_foldl_applyPut l new he).resolve_left (by simp)

/-- Rebuilding a register from entries keeps the join of their clocks. -/
lemma clock_fromEntries_le_iff {l : List (MvRegEntry V A)} :
    (fromEntries l).clock ≤ c ↔ ∀ e ∈ l, e.clock ≤ c := by
  rw [clock_le_iff]
  constructor
  · intro h e he
    by_cases hne : e.clock = ⊥
    · rw [hne]
      exact bot_le
    · obtain ⟨f, hf, hle⟩ := exists_ge_foldl_applyPut hne l new (.inr ⟨e, he, rfl⟩)
      exact hle.trans (h f hf)
  · exact fun h e he => h e (mem_of_mem_fromEntries he)

end MvReg

/-! ## Ranking -/

/-- `Ord::cmp`. -/
def ordCmp {α : Type*} [LinearOrder α] (a b : α) : Ordering := cmp a b

lemma ordCmp_ne_gt {α : Type*} [LinearOrder α] {a b : α} : ordCmp a b ≠ .gt ↔ a ≤ b := by
  rw [ordCmp, ne_eq, cmp_eq_gt_iff, not_lt]

lemma ordCmp_then_ne_gt {α : Type*} [LinearOrder α] {a b : α} {o : Ordering} :
    (ordCmp a b).then o ≠ .gt ↔ a < b ∨ (a = b ∧ o ≠ .gt) := by
  unfold ordCmp
  rcases lt_trichotomy a b with h | h | h
  · simp [(cmp_eq_lt_iff a b).mpr h, h]
  · simp [h]
  · simp [(cmp_eq_gt_iff a b).mpr h, h.ne', h.not_gt]

/-- `RankedEntry`: the ranking data of one entry and its position. -/
structure RankedEntry (R V A : Type*) [LinearOrder A] where
  index : ℕ
  rank : R
  value : V
  clock : VectorClock A

/-- `total_clock_cmp_desc`: clocks compared as sorted maps, the other way round. -/
def totalClockCmpDesc (left right : VectorClock A) : Ordering :=
  ordCmp (right.iter.map toLex) (left.iter.map toLex)

/-- `compare_ranked_entries_desc`: higher rank first, then higher value, then the clock, then the
position. -/
def compareRankedEntriesDesc (left right : RankedEntry R V A) : Ordering :=
  (ordCmp right.rank left.rank).then <| (ordCmp right.value left.value).then <|
    (totalClockCmpDesc left.clock right.clock).then <| ordCmp left.index right.index

/-- What the comparison orders by. -/
def RankedEntry.sortKey (e : RankedEntry R V A) : Rᵒᵈ ×ₗ Vᵒᵈ ×ₗ (List (A ×ₗ ℕ))ᵒᵈ ×ₗ ℕ :=
  toLex (OrderDual.toDual e.rank, toLex (OrderDual.toDual e.value,
    toLex (OrderDual.toDual (e.clock.iter.map toLex), e.index)))

variable {left right : RankedEntry R V A}

lemma compareRankedEntriesDesc_ne_gt :
    compareRankedEntriesDesc left right ≠ .gt ↔ left.sortKey ≤ right.sortKey := by
  simp only [compareRankedEntriesDesc, totalClockCmpDesc, ordCmp_then_ne_gt, ordCmp_ne_gt]
  simp only [RankedEntry.sortKey, Prod.Lex.toLex_le_toLex, OrderDual.toDual_lt_toDual,
    OrderDual.toDual_inj, eq_comm]

instance : IsTrans (RankedEntry R V A) fun l r => compareRankedEntriesDesc l r ≠ .gt :=
  ⟨fun _ _ _ h h' => compareRankedEntriesDesc_ne_gt.mpr
    ((compareRankedEntriesDesc_ne_gt.mp h).trans (compareRankedEntriesDesc_ne_gt.mp h'))⟩

instance : Std.Total fun l r : RankedEntry R V A => compareRankedEntriesDesc l r ≠ .gt :=
  ⟨fun l r => (le_total l.sortKey r.sortKey).imp compareRankedEntriesDesc_ne_gt.mpr
    compareRankedEntriesDesc_ne_gt.mpr⟩

/-! ## Compaction -/

namespace MvReg

variable (r : MvReg V A)

/-- The entries with their rank and position, best first. -/
def rankedEntries (rank : MvRegEntry V A → R) : List (RankedEntry R V A) :=
  (r.entries.zipIdx.map fun p => ⟨p.2, rank p.1, p.1.value, p.1.clock⟩).insertionSort
    fun left right => compareRankedEntriesDesc left right ≠ .gt

/-- `MvReg::compact_with`, with the flag telling whether anything was dropped. -/
def compactWith (maxValues : ℕ) (rank : MvRegEntry V A → R) : MvReg V A × Bool :=
  if maxValues = 0 ∨ r.entries.length ≤ maxValues then (r, false)
  else
    let ranked := r.rankedEntries rank
    let absorbIndex := ranked.head?.map RankedEntry.index
    let retained := (ranked.take maxValues).map RankedEntry.index
    let kept := r.entries.zipIdx.filter fun p => decide (p.2 ∈ retained)
    let dropped := r.entries.zipIdx.filter fun p => decide (p.2 ∉ retained)
    let absorbedClock := joinClocks (dropped.map Prod.fst)
    let compacted := kept.map fun p =>
      if some p.2 = absorbIndex then ⟨p.1.clock.merge absorbedClock, p.1.value⟩ else p.1
    (fromEntries compacted, true)

variable {r : MvReg V A}

lemma mem_rankedEntries {rank : MvRegEntry V A → R} {x : RankedEntry R V A} :
    x ∈ r.rankedEntries rank ↔
      ∃ e i, (e, i) ∈ r.entries.zipIdx ∧ x = ⟨i, rank e, e.value, e.clock⟩ := by
  simp only [rankedEntries, mem_insertionSort, mem_map, Prod.exists, eq_comm]

omit [LinearOrder V] in
/-- A register's entries and their positions determine each other. -/
lemma index_eq_iff {e f : MvRegEntry V A} {i j : ℕ}
    (he : (e, i) ∈ r.entries.zipIdx) (hf : (f, j) ∈ r.entries.zipIdx) : i = j ↔ e = f := by
  rw [mem_zipIdx_iff_getElem?] at he hf
  constructor
  · rintro rfl
    exact Option.some.inj (he.symm.trans hf)
  · rintro rfl
    obtain ⟨hi, hei⟩ := List.getElem?_eq_some_iff.mp he
    exact r.normalized.nodup.getElem_inj_iff.mp (hei.trans (List.getElem?_eq_some_iff.mp hf).2.symm)

/-- The rest of `compact_with` once the entries are ranked, given their positions best first: the
first `maxValues` stay, and the best of them takes over the clocks of the others. -/
def keepFirst (r : MvReg V A) (maxValues : ℕ) (order : List ℕ) : MvReg V A :=
  let retained := order.take maxValues
  let kept := r.entries.zipIdx.filter fun p => decide (p.2 ∈ retained)
  let dropped := r.entries.zipIdx.filter fun p => decide (p.2 ∉ retained)
  let absorbedClock := joinClocks (dropped.map Prod.fst)
  fromEntries (kept.map fun p =>
    if some p.2 = order.head? then ⟨p.1.clock.merge absorbedClock, p.1.value⟩ else p.1)

variable {maxValues : ℕ}

variable (rank : MvRegEntry V A → R)

lemma compactWith_eq (hmax : maxValues ≠ 0) (hlen : maxValues < r.entries.length) :
    r.compactWith maxValues rank =
      (r.keepFirst maxValues ((r.rankedEntries rank).map RankedEntry.index), true) := by
  have hcond : ¬ (maxValues = 0 ∨ r.entries.length ≤ maxValues) := by omega
  rw [compactWith, if_neg hcond]
  simp only [keepFirst, map_take, head?_map]

variable {top : MvRegEntry V A}

omit [LinearOrder V] in
/-- The entries split into kept and dropped ones; the one at the first position is kept and takes
over the dropped clocks; everything kept is put back. -/
lemma keepFirst_spec [DecidableEq V] {i : ℕ} (rest : List ℕ)
    (hmax : maxValues ≠ 0) (htop : (top, i) ∈ r.entries.zipIdx) :
    ∃ kept dropped : List (MvRegEntry V A),
      (kept ++ dropped).Perm r.entries ∧ top ∈ kept ∧ kept.length ≤ maxValues ∧
      r.keepFirst maxValues (i :: rest) = fromEntries (kept.map fun e => if e = top then
          ⟨top.clock.merge (joinClocks dropped), top.value⟩ else e) := by
  obtain ⟨n, rfl⟩ := Nat.exists_eq_succ_of_ne_zero hmax
  let retained := (i :: rest).take (n + 1)
  let kept := r.entries.zipIdx.filter fun p => decide (p.2 ∈ retained)
  let dropped := r.entries.zipIdx.filter fun p => decide (p.2 ∉ retained)
  refine ⟨kept.map Prod.fst, dropped.map Prod.fst, ?_, ?_, ?_, ?_⟩
  · have hsplit : (kept ++ dropped).Perm r.entries.zipIdx := by
      simpa only [kept, dropped, decide_not] using
        filter_append_perm (fun p => decide (p.2 ∈ retained)) r.entries.zipIdx
    simpa only [map_append, zipIdx_map_fst] using hsplit.map Prod.fst
  · refine mem_map.mpr ⟨(top, i), mem_filter.mpr ⟨htop, decide_eq_true ?_⟩, rfl⟩
    simp [retained]
  · -- the kept positions are different ones, all among those retained
    have hnodup : (kept.map Prod.snd).Nodup := by
      have hall : (r.entries.zipIdx.map Prod.snd).Nodup := by
        rw [zipIdx_map_snd]
        exact nodup_range'
      exact hall.sublist (filter_sublist.map _)
    have hsubset : kept.map Prod.snd ⊆ retained := by
      intro j hj
      obtain ⟨p, hp, rfl⟩ := mem_map.mp hj
      exact of_decide_eq_true (mem_filter.mp hp).2
    calc (kept.map Prod.fst).length = (kept.map Prod.snd).length := by simp
      _ ≤ retained.length := (hnodup.subperm hsubset).length_le
      _ ≤ n + 1 := length_take_le _ _
  · simp only [keepFirst, map_map, head?_cons]
    congr 1
    refine map_congr_left fun p hp => ?_
    have hp' : p ∈ r.entries.zipIdx := mem_of_mem_filter hp
    have hhead : some p.2 = some i ↔ p.1 = top := by
      simpa using index_eq_iff hp' htop
    by_cases h : p.1 = top
    · simp only [hhead, h, if_true, Function.comp_apply]
      rfl
    · simp only [hhead, h, if_false, Function.comp_apply]

/-- The position ranked first is that of an entry of highest rank, ties broken by value. -/
lemma exists_best_ranked (hne : r.entries ≠ []) :
    ∃ (top : MvRegEntry V A) (i : ℕ) (rest : List ℕ), (top, i) ∈ r.entries.zipIdx ∧
      (∀ e ∈ r.entries, toLex (rank e, e.value) ≤ toLex (rank top, top.value)) ∧
      (r.rankedEntries rank).map RankedEntry.index = i :: rest := by
  obtain ⟨best, rest, hranked⟩ : ∃ best rest, r.rankedEntries rank = best :: rest := by
    refine exists_cons_of_length_pos ?_
    simpa [rankedEntries] using length_pos_of_ne_nil hne
  obtain ⟨top, i, htop, hbest⟩ := mem_rankedEntries.mp (hranked ▸ mem_cons_self ..)
  refine ⟨top, i, rest.map RankedEntry.index, htop, ?_, ?_⟩
  · intro e he
    obtain ⟨j, hj⟩ : ∃ j, (e, j) ∈ r.entries.zipIdx := by
      obtain ⟨j, hj⟩ := mem_iff_getElem?.mp he
      exact ⟨j, mem_zipIdx_iff_getElem?.mpr hj⟩
    have hsorted : (r.rankedEntries rank).Pairwise
        fun left right => compareRankedEntriesDesc left right ≠ .gt :=
      pairwise_insertionSort _ _
    have hmem : ⟨j, rank e, e.value, e.clock⟩ ∈ r.rankedEntries rank :=
      mem_rankedEntries.mpr ⟨e, j, hj, rfl⟩
    rw [hranked] at hsorted hmem
    rcases mem_cons.mp hmem with h | h
    · rw [hbest] at h
      obtain rfl := (index_eq_iff hj htop).mp (congrArg RankedEntry.index h)
      exact le_rfl
    · have hle := compareRankedEntriesDesc_ne_gt.mp ((pairwise_cons.mp hsorted).1 _ h)
      rw [hbest] at hle
      -- sorting first means ranking at least as high, ties broken by value
      rw [Prod.Lex.toLex_le_toLex]
      rcases Prod.Lex.toLex_le_toLex.mp hle with hlt | ⟨heq, hle⟩
      · exact .inl hlt
      · refine .inr ⟨(OrderDual.toDual_inj.mp heq).symm, ?_⟩
        rcases Prod.Lex.toLex_le_toLex.mp hle with hlt | ⟨heq, -⟩
        · exact (OrderDual.toDual_lt_toDual.mp hlt).le
        · exact (OrderDual.toDual_inj.mp heq).ge
  · rw [hranked, map_cons, hbest]

/-- **What compaction does.** The entries split into kept and dropped ones; the best ranked entry
is kept and takes over the dropped clocks; everything kept is put back. -/
theorem compactWith_spec (hmax : maxValues ≠ 0) (hlen : maxValues < r.entries.length) :
    ∃ (top : MvRegEntry V A) (kept dropped : List (MvRegEntry V A)),
      (kept ++ dropped).Perm r.entries ∧ top ∈ kept ∧
      (∀ e ∈ r.entries, toLex (rank e, e.value) ≤ toLex (rank top, top.value)) ∧
      r.compactWith maxValues rank = (fromEntries (kept.map fun e => if e = top then
          ⟨top.clock.merge (joinClocks dropped), top.value⟩ else e), true) := by
  have hne : r.entries ≠ [] := ne_nil_of_length_pos (by omega)
  obtain ⟨top, i, rest, htop, hbest, horder⟩ := exists_best_ranked rank hne
  obtain ⟨kept, dropped, hperm, hkept, -, hspec⟩ := keepFirst_spec rest hmax htop
  refine ⟨top, kept, dropped, hperm, hkept, hbest, ?_⟩
  rw [compactWith_eq rank hmax hlen, horder, hspec]

/-- Compaction forgets values and no causal information. -/
theorem clock_compactWith (r : MvReg V A) (maxValues : ℕ) (rank : MvRegEntry V A → R) :
    (r.compactWith maxValues rank).1.clock = r.clock := by
  by_cases hskip : maxValues = 0 ∨ r.entries.length ≤ maxValues
  · rw [compactWith, if_pos hskip]
  · push Not at hskip
    obtain ⟨top, kept, dropped, hperm, htop, -, hspec⟩ := compactWith_spec rank hskip.1 hskip.2
    refine eq_of_forall_ge_iff fun c => ?_
    have hjoin : top.clock.merge (joinClocks dropped) ≤ c ↔
        top.clock ≤ c ∧ ∀ e ∈ dropped, e.clock ≤ c := by
      rw [merge_eq_sup, sup_le_iff, joinClocks_le_iff]
    rw [hspec, clock_fromEntries_le_iff, clock_le_iff, forall_mem_map]
    constructor
    · intro h e he
      have htop' := h top htop
      rw [if_pos rfl] at htop'
      rcases mem_append.mp (hperm.mem_iff.mpr he) with hk | hd
      · by_cases heq : e = top
        · exact heq ▸ (hjoin.mp htop').1
        · simpa only [heq, if_false] using h e hk
      · exact (hjoin.mp htop').2 e hd
    · intro h e hk
      split_ifs with heq
      · exact hjoin.mpr ⟨h top (hperm.mem_iff.mp (mem_append_left _ htop)),
          fun f hf => h f (hperm.mem_iff.mp (mem_append_right _ hf))⟩
      · exact h e (hperm.mem_iff.mp (mem_append_left _ hk))

/-- An entry of a compacted register was there before, or is the best ranked one under the merged
clocks of itself and what was dropped. -/
theorem mem_compactWith {rank : MvRegEntry V A → R}
    {e : MvRegEntry V A} (he : e ∈ (r.compactWith maxValues rank).1.entries) :
    e ∈ r.entries ∨ ∃ top ∈ r.entries, ∃ absorbed : List (MvRegEntry V A),
      (∀ f ∈ absorbed, f ∈ r.entries) ∧ top ∈ absorbed ∧
      (∀ f ∈ r.entries, toLex (rank f, f.value) ≤ toLex (rank top, top.value)) ∧
      e = ⟨joinClocks absorbed, top.value⟩ := by
  by_cases hskip : maxValues = 0 ∨ r.entries.length ≤ maxValues
  · rw [compactWith, if_pos hskip] at he
    exact .inl he
  · push Not at hskip
    obtain ⟨top, kept, dropped, hperm, htop, hbest, hspec⟩ := compactWith_spec rank hskip.1 hskip.2
    rw [hspec] at he
    have hkept : ∀ f ∈ kept, f ∈ r.entries := fun f hf =>
      hperm.mem_iff.mp (mem_append_left _ hf)
    obtain ⟨f, hf, rfl⟩ := mem_map.mp (mem_of_mem_fromEntries he)
    split_ifs with heq
    · refine .inr ⟨top, hkept top htop, top :: dropped, ?_, mem_cons_self .., hbest, ?_⟩
      · intro g hg
        rcases mem_cons.mp hg with rfl | hg
        · exact hkept g htop
        · exact hperm.mem_iff.mp (mem_append_right _ hg)
      · rw [MvRegEntry.mk.injEq]
        refine ⟨eq_of_forall_ge_iff fun c => ?_, rfl⟩
        rw [merge_eq_sup, sup_le_iff, joinClocks_le_iff, joinClocks_le_iff, forall_mem_cons]
    · exact .inl (hkept f hf)

/-! ## What later files use of it -/

/-- `r'` is `r` cut down to `maxValues` entries, `top` being the one that may not be lost: no entry
shows a new value, and every clock of `r` is below one of `r'`. -/
structure Compacts (maxValues : ℕ) (r r' : MvReg V A) (top : MvRegEntry V A) : Prop where
  top_mem : top ∈ r.entries
  keeps_top : ∃ e ∈ r'.entries, e.value = top.value ∧ top.clock ≤ e.clock
  value_mem : ∀ e ∈ r'.entries, ∃ f ∈ r.entries, f.value = e.value
  covers : ∀ e ∈ r.entries, ∃ f ∈ r'.entries, e.clock ≤ f.clock
  length_le : r'.entries.length ≤ maxValues

omit [LinearOrder V] in
/-- A register that is small enough already is left as it is. -/
lemma Compacts.of_length_le (hlen : r.entries.length ≤ maxValues) (htop : top ∈ r.entries) :
    Compacts maxValues r r top where
  top_mem := htop
  keeps_top := ⟨top, htop, rfl, le_rfl⟩
  value_mem e he := ⟨e, he, rfl⟩
  covers e he := ⟨e, he, le_rfl⟩
  length_le := hlen

omit [LinearOrder V] in
lemma length_applyPut_le (r : MvReg V A) (c : VectorClock A) (v : V) :
    (r.applyPut c v).entries.length ≤ r.entries.length + 1 := by
  change (putEntries r.entries c v).length ≤ _
  by_cases hc : c = ⊥
  · rw [putEntries, if_pos (isEmpty_iff_eq_bot.mpr hc)]
    exact Nat.le_succ _
  · have hfilter := length_filter_le (fun e => decide (¬ e.clock ≤ c)) r.entries
    rw [putEntries_eq hc, length_append]
    split_ifs
    · exact Nat.add_le_add hfilter le_rfl
    · exact Nat.add_le_add hfilter (Nat.zero_le _)

omit [LinearOrder V] in
lemma length_fromEntries_le (l : List (MvRegEntry V A)) :
    (fromEntries l).entries.length ≤ l.length := by
  have hfold : ∀ (l : List (MvRegEntry V A)) (r : MvReg V A),
      (l.foldl (fun reg entry => reg.applyPut entry.clock entry.value) r).entries.length ≤
        r.entries.length + l.length := by
    intro l
    induction l with
    | nil => exact fun r => le_rfl
    | cons e l ih =>
      intro r
      have hput := length_applyPut_le r e.clock e.value
      have hrest := ih (r.applyPut e.clock e.value)
      rw [foldl_cons, length_cons]
      omega
  have hle := hfold l new
  rwa [entries_new, length_nil, Nat.zero_add] at hle

omit [LinearOrder V] in
lemma keepFirst_compacts {i : ℕ} {rest : List ℕ}
    (hmax : maxValues ≠ 0) (htop : (top, i) ∈ r.entries.zipIdx) :
    Compacts maxValues r (r.keepFirst maxValues (i :: rest)) top := by
  classical
  obtain ⟨kept, dropped, hperm, hkept, hle, hspec⟩ := keepFirst_spec rest hmax htop
  let absorbed : MvRegEntry V A := ⟨top.clock.merge (joinClocks dropped), top.value⟩
  have hmem : ∀ e ∈ kept, e ∈ r.entries := fun e he =>
    hperm.mem_iff.mp (mem_append_left _ he)
  have htopAbsorbed : top.clock ≤ absorbed.clock := by
    exact le_sup_left
  have habsorbed : absorbed ∈ kept.map fun e => if e = top then absorbed else e :=
    mem_map.mpr ⟨top, hkept, if_pos rfl⟩
  have hput : ∀ f ∈ (kept.map fun e => if e = top then absorbed else e),
      ∃ e ∈ (r.keepFirst maxValues (i :: rest)).entries, f.clock ≤ e.clock := by
    intro f hf
    rw [hspec]
    refine exists_ge_foldl_applyPut ?_ _ new (.inr ⟨f, hf, rfl⟩)
    obtain ⟨e, he, rfl⟩ := mem_map.mp hf
    split_ifs with heq
    · exact fun hbot => r.normalized.2 top (hmem top hkept) (le_bot_iff.mp (hbot ▸ htopAbsorbed))
    · exact r.normalized.2 e (hmem e he)
  have hfrom : ∀ e ∈ (r.keepFirst maxValues (i :: rest)).entries,
      e = absorbed ∨ (e ∈ kept ∧ e ≠ top) := by
    intro e he
    rw [hspec] at he
    obtain ⟨f, hf, rfl⟩ := mem_map.mp (mem_of_mem_fromEntries he)
    split_ifs with heq
    · exact .inl rfl
    · exact .inr ⟨hf, heq⟩
  refine ⟨hmem top hkept, ?_, ?_, ?_, ?_⟩
  · obtain ⟨e, he, hge⟩ := hput absorbed habsorbed
    rcases hfrom e he with rfl | ⟨hek, hne⟩
    · exact ⟨absorbed, he, rfl, htopAbsorbed⟩
    · -- another survivor above the absorbed clock would be above `top`
      exact absurd (r.normalized.eq_of_le (hmem top hkept) (hmem e hek)
        (htopAbsorbed.trans hge)).symm hne
  · intro e he
    rcases hfrom e he with rfl | ⟨hek, -⟩
    · exact ⟨top, hmem top hkept, rfl⟩
    · exact ⟨e, hmem e hek, rfl⟩
  · intro e he
    rcases mem_append.mp (hperm.mem_iff.mpr he) with hk | hd
    · obtain ⟨f, hf, hle⟩ := hput _ (mem_map.mpr ⟨e, hk, rfl⟩)
      refine ⟨f, hf, le_trans ?_ hle⟩
      split_ifs with heq
      · exact heq ▸ htopAbsorbed
      · exact le_rfl
    · obtain ⟨f, hf, hle⟩ := hput absorbed habsorbed
      refine ⟨f, hf, ((le_joinClocks hd).trans ?_).trans hle⟩
      exact le_sup_right
  · rw [hspec]
    refine (length_fromEntries_le _).trans ?_
    rwa [length_map]

/-- Compaction keeps the entry that ranks highest, ties broken by value. -/
theorem compactWith_compacts (hmax : maxValues ≠ 0) (hne : r.entries ≠ []) :
    ∃ top, (∀ e ∈ r.entries, toLex (rank e, e.value) ≤ toLex (rank top, top.value)) ∧
      Compacts maxValues r (r.compactWith maxValues rank).1 top := by
  obtain ⟨top, i, rest, htop, hbest, horder⟩ := exists_best_ranked rank hne
  refine ⟨top, hbest, ?_⟩
  by_cases hlen : r.entries.length ≤ maxValues
  · rw [compactWith, if_pos (.inr hlen)]
    exact Compacts.of_length_le hlen (fst_mem_of_mem_zipIdx htop)
  · rw [compactWith_eq rank hmax (not_le.mp hlen), horder]
    exact keepFirst_compacts hmax htop

/-! ## Safety -/

omit [LinearOrder V] in
/-- What lies below a register brings nothing new to it. -/
lemma entrySet_merge_of_le {s : MvReg V A}
    (h : ∀ f ∈ s.entries, ∃ e ∈ r.entries, f.clock ≤ e.clock) :
    (r.merge s).entrySet = r.entrySet := by
  ext e
  simp only [mem_entrySet, mem_merge_iff]
  constructor
  · rintro (⟨he, -⟩ | ⟨he, hno⟩)
    · exact he
    · obtain ⟨f, hf, hle⟩ := h e he
      exact absurd hle (hno f hf)
  · intro he
    refine .inl ⟨he, fun f hf hlt => ?_⟩
    obtain ⟨g, hg, hle⟩ := h f hf
    exact r.normalized.not_lt he hg (hlt.trans_le hle)

/-- **Compaction is safe.** At most `n` entries remain, again pairwise concurrent; an entry of
highest rank is still shown, under a clock that covers its own; the merged clock is the same; and a
register made of what the old one had or covered changes nothing when it is merged in later. -/
theorem compactWith_safe (r : MvReg V A) (n : ℕ) (hn : 1 ≤ n) (rank : MvRegEntry V A → R) :
    (r.compactWith n rank).1.entries.length ≤ n ∧
      (r.compactWith n rank).1.entries.Pairwise Concurrent ∧
      (r.entries ≠ [] → ∃ top ∈ r.entries,
        (∀ e ∈ r.entries, toLex (rank e, e.value) ≤ toLex (rank top, top.value)) ∧
        ∃ e ∈ (r.compactWith n rank).1.entries, e.value = top.value ∧ top.clock ≤ e.clock) ∧
      (r.compactWith n rank).1.clock = r.clock ∧
      ∀ s : MvReg V A, (∀ f ∈ s.entries, ∃ e ∈ r.entries, f.clock ≤ e.clock) →
        ((r.compactWith n rank).1.merge s).snapshot = (r.compactWith n rank).1.snapshot := by
  have hmax : n ≠ 0 := Nat.one_le_iff_ne_zero.mp hn
  by_cases hne : r.entries = []
  · have hsame : (r.compactWith n rank).1 = r := by
      rw [compactWith, if_pos (.inr (by simp [hne]))]
    rw [hsame]
    refine ⟨by simp [hne], r.normalized.1, fun h => absurd hne h, rfl, fun s hs => ?_⟩
    exact snapshot_eq_of_entrySet_eq (entrySet_merge_of_le hs)
  · obtain ⟨top, hbest, hcompacts⟩ := compactWith_compacts rank hmax hne
    refine ⟨hcompacts.length_le, (r.compactWith n rank).1.normalized.1,
      fun _ => ⟨top, hcompacts.top_mem, hbest, hcompacts.keeps_top⟩, clock_compactWith r n rank,
      fun s hs => snapshot_eq_of_entrySet_eq (entrySet_merge_of_le fun f hf => ?_)⟩
    obtain ⟨e, he, hfe⟩ := hs f hf
    obtain ⟨g, hg, heg⟩ := hcompacts.covers e he
    exact ⟨g, hg, hfe.trans heg⟩

/-- Two values written without knowledge of each other. -/
def samplePair : MvReg ℕ ℕ := ((new : MvReg ℕ ℕ).write 0 3).merge ((new : MvReg ℕ ℕ).write 1 5)

theorem compactWith_safe_samplePair :
    (samplePair.compactWith 1 MvRegEntry.value).1.readValues = [5] ∧
      ((samplePair.compactWith 1 MvRegEntry.value).1.merge samplePair).snapshot =
        (samplePair.compactWith 1 MvRegEntry.value).1.snapshot :=
  ⟨by decide +kernel, (compactWith_safe samplePair 1 le_rfl MvRegEntry.value).2.2.2.2 samplePair
    fun f hf => ⟨f, hf, le_rfl⟩⟩

end MvReg

end Mantissa
