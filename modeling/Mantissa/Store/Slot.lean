import Mantissa.Store.RepInvariant

/-!
# A delta chunk, key by key

A chunk is written row by row into shared tables, but no row touches another key: what it does to a
key depends only on what that key had and on the chunk's rows for it. `Slot` is what a key has,
`Slot.mergeReg` and `Slot.mergeTomb` are one row's effect on it, and `slot_writeDeltaChunk` says
that a chunk folds its rows for the key over the key's slot, registers first.

The skip conditions of the source disappear here: a row that would rewrite what is already there has
the same effect skipped. What is left are the two guards that matter, the preserved local tombstone
and the pruned sequence.

A series of chunks then gives each leaf of the tree as a fold over one slot (`mst_applyChunks`),
which is how the convergence of stores is reduced to a single key.
-/

namespace Mantissa

open Disk List

variable {K A R V S : Type*} [LinearOrder K]

/-- What the tables hold for one key. -/
@[ext] structure Slot (R : Type*) where
  value : Option R
  tomb : Option TombstoneRecord

namespace Slot

/-- The effect of a chunk's register row; `kept` says that a local tombstone is preserved. -/
def mergeReg (ad : RegAdapter K A R V S) (kept : Bool) (slot : Slot R) (incoming : R) : Slot R :=
  if kept ∧ slot.tomb.isSome then slot else ⟨some (ad.mergeRegs slot.value incoming), none⟩

/-- The effect of a chunk's tombstone row, given the stored prune frontiers. -/
def mergeTomb (frontier : Bytes → ℕ) (now : ℕ) (slot : Slot R) (incoming : TombstoneRecord) :
    Slot R :=
  if 0 < frontier incoming.originActor ∧ incoming.sequence ≤ frontier incoming.originActor then slot
  else ⟨none, some (mergeTombstoneRecords slot.tomb (normalizeIncomingTombstone incoming now))⟩

/-- The leaf a slot stands for. -/
def entry (ad : RegAdapter K A R V S) (version : ℕ) (slot : Slot R) : Option (Entry S) :=
  match slot.tomb with
  | some record => some (deletedEntry record)
  | none => slot.value.map fun reg => .active (ad.snapshotRegAtVersion reg version)

end Slot

variable (d : Disk K R)

/-- The slot of a key. -/
def Disk.slot (k : K) : Slot R := ⟨d.values[k]?, d.tombs[k]?⟩

lemma Disk.entry_eq (ad : RegAdapter K A R V S) (version : ℕ) (d : Disk K R) (k : K) :
    d.entry ad version k = (d.slot k).entry ad version := rfl

lemma Disk.slot_writeValue (a k : K) (reg : R) :
    (d.writeValue a reg).slot k = if a = k then ⟨some reg, none⟩ else d.slot k := by
  simp only [Disk.slot, values_writeValue, tombs_writeValue]
  split_ifs <;> rfl

lemma Disk.slot_removeValue (a k : K) :
    (d.removeValue a).slot k = if a = k then ⟨none, d.tombs[k]?⟩ else d.slot k := by
  simp only [Disk.slot, removeValue, BTreeMap.getElem?_erase_eq]
  split_ifs <;> rfl

lemma Disk.slot_insertTombstone (a k : K) (record : TombstoneRecord) :
    ((d.dropObserved a).insertTombstone a record).slot k =
      if a = k then ⟨d.values[k]?, some record⟩ else d.slot k := by
  simp only [Disk.slot, insertTombstone, dropObserved, BTreeMap.getElem?_insert_eq]
  split_ifs <;> rfl

variable {X : Type*} {rows : List (K × X)}

/-- The rows of a key, in the order they were sent. -/
def rowsAt (k : K) (rows : List (K × X)) : List X :=
  rows.filterMap fun p => if p.1 = k then some p.2 else none

lemma mem_rowsAt {k : K} {x : X} : x ∈ rowsAt k rows ↔ (k, x) ∈ rows := by
  simp only [rowsAt, mem_filterMap, Option.ite_none_right_eq_some, Option.some.injEq]
  constructor
  · rintro ⟨⟨a, y⟩, hmem, rfl, rfl⟩
    exact hmem
  · intro hmem
    exact ⟨(k, x), hmem, rfl, rfl⟩

lemma rowsAt_eq_nil {k : K} : rowsAt k rows = [] ↔ k ∉ rows.map Prod.fst := by
  rw [eq_nil_iff_forall_not_mem]
  simp [mem_rowsAt]

/-- The rows of a key where keys are not repeated. -/
lemma rowsAt_eq_toList {k : K} : ∀ {rows : List (K × X)} {o : Option X},
    (rows.map Prod.fst).Nodup → (∀ x, (k, x) ∈ rows ↔ o = some x) → rowsAt k rows = o.toList
  | [], o, _, hmem => by
    have hnone : o = none := Option.eq_none_iff_forall_ne_some.mpr fun x hx => by
      simpa using (hmem x).mpr hx
    rw [hnone]
    rfl
  | (a, y) :: rows, o, hnodup, hmem => by
    rw [map_cons, nodup_cons] at hnodup
    by_cases hak : a = k
    · subst hak
      have hrow : o = some y := (hmem y).mp (mem_cons_self ..)
      have hnil : rowsAt a rows = [] := rowsAt_eq_nil.mpr hnodup.1
      have hhead : rowsAt a ((a, y) :: rows) = y :: rowsAt a rows := by simp [rowsAt]
      rw [hhead, hnil, hrow]
      rfl
    · have hskip : rowsAt k ((a, y) :: rows) = rowsAt k rows := by simp [rowsAt, hak]
      rw [hskip]
      refine rowsAt_eq_toList hnodup.2 fun x => ?_
      rw [← hmem x, mem_cons, Prod.mk.injEq, eq_comm (a := k)]
      simp [hak]

namespace CrdtMstStore

variable [DecidableEq R]

/-! ## One chunk -/

variable (ad : RegAdapter K A R V S) (preserve : Bool)

lemma slot_mergeDeltaReg (tombKeys : List K)
    (m : DeltaMerge K R) (row : K × R) (k : K) :
    (mergeDeltaReg ad preserve tombKeys m row).disk.slot k =
      if row.1 = k then (m.disk.slot k).mergeReg ad (decide (preserve ∧ k ∉ tombKeys)) row.2
      else m.disk.slot k := by
  obtain ⟨a, incoming⟩ := row
  simp only [mergeDeltaReg, Slot.mergeReg, decide_eq_true_eq]
  by_cases hkept : preserve = true ∧ a ∉ tombKeys ∧ m.disk.tombs[a]?.isSome = true
  · split_ifs with hak hkept'
    · rfl
    · subst hak
      exact absurd ⟨⟨hkept.1, hkept.2.1⟩, hkept.2.2⟩ hkept'
    · rfl
  · rw [if_neg hkept]
    by_cases hsame : m.disk.values[a]? = some (ad.mergeRegs m.disk.values[a]? incoming) ∧
        m.disk.tombs[a]?.isNone = true
    · -- nothing would change, and nothing does
      split_ifs with hak hkept'
      · rfl
      · subst hak
        exact Slot.ext hsame.1 (Option.isNone_iff_eq_none.mp hsame.2)
      · rfl
    · rw [if_neg hsame]
      simp only [slot_writeValue]
      split_ifs with hak hkept'
      · subst hak
        exact absurd ⟨hkept'.1.1, hkept'.1.2, hkept'.2⟩ hkept
      · subst hak
        rfl
      · rfl

omit [DecidableEq R] in
lemma mergeTomb_of_isPruned {d : Disk K R} {incoming : TombstoneRecord} (h : IsPruned d incoming)
    (now : ℕ) (slot : Slot R) : slot.mergeTomb d.tombstonePruneFrontier now incoming = slot :=
  if_pos h

omit [DecidableEq R] in
lemma mergeTomb_of_not_isPruned {d : Disk K R} {incoming : TombstoneRecord}
    (h : ¬ IsPruned d incoming) (now : ℕ) (slot : Slot R) :
    slot.mergeTomb d.tombstonePruneFrontier now incoming =
      ⟨none, some (mergeTombstoneRecords slot.tomb (normalizeIncomingTombstone incoming now))⟩ :=
  if_neg h

omit [DecidableEq R] in
lemma slot_mergeDeltaTomb (now : ℕ) (m : DeltaMerge K R) (row : K × TombstoneRecord) (k : K) :
    (mergeDeltaTomb now m row).disk.slot k =
      if row.1 = k then (m.disk.slot k).mergeTomb m.disk.tombstonePruneFrontier now row.2
      else m.disk.slot k := by
  obtain ⟨a, incoming⟩ := row
  rw [mergeDeltaTomb_eq]
  by_cases hpruned : IsPruned m.disk incoming
  · rw [if_pos hpruned, mergeTomb_of_isPruned hpruned, ite_self]
  · rw [if_neg hpruned, mergeTomb_of_not_isPruned hpruned]
    by_cases hsame : m.disk.tombs[a]? = some (nextTombstone m.disk a incoming now)
    · by_cases hnone : m.disk.values[a]?.isNone = true
      · rw [if_pos ⟨hsame, hnone⟩]
        split_ifs with hak
        · subst hak
          exact Slot.ext (Option.isNone_iff_eq_none.mp hnone) hsame
        · rfl
      · rw [if_neg fun h => hnone h.2]
        simp only [if_pos hsame, slot_removeValue]
        split_ifs with hak
        · subst hak
          exact Slot.ext rfl hsame
        · rfl
    · rw [if_neg fun h => hsame h.1]
      simp only [if_neg hsame, slot_removeValue]
      split_ifs with hak
      · subst hak
        have hslot := slot_insertTombstone m.disk a a (nextTombstone m.disk a incoming now)
        rw [if_pos rfl] at hslot
        have htomb := congrArg Slot.tomb hslot
        exact Slot.ext rfl htomb
      · rw [slot_insertTombstone, if_neg hak]

omit [DecidableEq R] in
/-- A loop whose turns act on one key each acts on a slot by the rows of its key. -/
lemma slot_foldl {X : Type*} {step : DeltaMerge K R → K × X → DeltaMerge K R}
    {P : DeltaMerge K R → Prop} {f : Slot R → X → Slot R} {k : K}
    (hstep : ∀ m row, P m → (step m row).disk.slot k =
      if row.1 = k then f (m.disk.slot k) row.2 else m.disk.slot k)
    (hP : ∀ m row, P m → P (step m row)) : ∀ (rows : List (K × X)) (m : DeltaMerge K R), P m →
      (rows.foldl step m).disk.slot k = (rowsAt k rows).foldl f (m.disk.slot k) ∧
        P (rows.foldl step m)
  | [], m, hm => ⟨rfl, hm⟩
  | row :: rows, m, hm => by
    obtain ⟨hslot, hlast⟩ := slot_foldl hstep hP rows (step m row) (hP m row hm)
    refine ⟨?_, hlast⟩
    rw [foldl_cons, hslot, hstep m row hm]
    by_cases hrow : row.1 = k
    · simp [rowsAt, hrow]
    · simp [rowsAt, hrow]

/-- **A chunk acts on each key alone**: registers of the key first, then its tombstones, against
frontiers that do not move. -/
theorem slot_writeDeltaChunk (d : Disk K R)
    (chunk : DeltaChunk K R) (now : ℕ) (k : K) :
    (writeDeltaChunkMergedLatest ad preserve d chunk now).disk.slot k =
        (rowsAt k chunk.tombs).foldl (Slot.mergeTomb d.tombstonePruneFrontier now)
          ((rowsAt k chunk.regs).foldl
            (Slot.mergeReg ad (decide (preserve ∧ k ∉ chunk.tombs.map Prod.fst))) (d.slot k)) ∧
      (writeDeltaChunkMergedLatest ad preserve d chunk now).disk.tombPruned = d.tombPruned := by
  set tombKeys := if preserve ∧ chunk.regs ≠ [] then chunk.tombs.map Prod.fst else []
  obtain ⟨hregs, hpruned⟩ := slot_foldl (k := k)
    (P := fun m : DeltaMerge K R => m.disk.tombPruned = d.tombPruned)
    (fun m row _ => slot_mergeDeltaReg ad preserve tombKeys m row k)
    (fun m row hm => by
      rcases mergeDeltaReg_cases ad preserve tombKeys m row.1 row.2 with heq | ⟨merged, heq⟩ <;>
      · rw [heq]
        exact hm) chunk.regs
    ⟨d, [], [], false⟩ rfl
  obtain ⟨htombs, hpruned'⟩ := slot_foldl (k := k)
    (P := fun m : DeltaMerge K R => m.disk.tombPruned = d.tombPruned)
    (f := Slot.mergeTomb d.tombstonePruneFrontier now)
    (fun m row hm => by
      have hfrontier : m.disk.tombstonePruneFrontier = d.tombstonePruneFrontier := by
        funext origin
        rw [tombstonePruneFrontier, hm, tombstonePruneFrontier]
      rw [slot_mergeDeltaTomb, hfrontier])
    (fun m row hm => by
      rw [mergeDeltaTomb_eq now m row.1 row.2]
      split_ifs <;> exact hm) chunk.tombs _ hpruned
  refine ⟨?_, hpruned'⟩
  rw [writeDeltaChunkMergedLatest, htombs, hregs]
  -- the keys of the tombstones are only collected where they can matter
  by_cases hcollect : preserve = true ∧ chunk.regs ≠ []
  · have hkeys : tombKeys = chunk.tombs.map Prod.fst := if_pos hcollect
    rw [hkeys]
  · have hkeys : tombKeys = [] := if_neg hcollect
    by_cases hpreserve : preserve = true
    · have hnil : chunk.regs = [] := not_not.mp fun hne => hcollect ⟨hpreserve, hne⟩
      simp [hnil, rowsAt]
    · simp [hpreserve]

/-! ## Series of chunks -/

/-- The effect of a whole chunk on the slot of one key. -/
def mergeChunk (frontier : Bytes → ℕ) (k : K)
    (slot : Slot R) (chunk : DeltaChunk K R × ℕ) : Slot R :=
  (rowsAt k chunk.1.tombs).foldl (Slot.mergeTomb frontier chunk.2)
    ((rowsAt k chunk.1.regs).foldl
      (Slot.mergeReg ad (decide (preserve ∧ k ∉ chunk.1.tombs.map Prod.fst))) slot)

/-- Apply chunks one after the other, each at its time. -/
def applyChunks (s : CrdtMstStore K A R S)
    (chunks : List (DeltaChunk K R × ℕ)) : CrdtMstStore K A R S :=
  chunks.foldl (fun s chunk => s.applyDeltaChunkUpdateMst ad chunk.1 chunk.2) s

variable {ad : RegAdapter K A R V S} {s : CrdtMstStore K A R S}

lemma disk_applyDeltaChunkUpdateMst (ad : RegAdapter K A R V S) (s : CrdtMstStore K A R S)
    (chunk : DeltaChunk K R) (now : ℕ) : (s.applyDeltaChunkUpdateMst ad chunk now).disk =
      (writeDeltaChunkMergedLatest ad s.preserveLocalTombs s.disk chunk now).disk := by
  simp only [applyDeltaChunkUpdateMst]
  split_ifs <;> rfl

lemma mode_applyDeltaChunkUpdateMst (ad : RegAdapter K A R V S) (s : CrdtMstStore K A R S)
    (chunk : DeltaChunk K R) (now : ℕ) :
    (s.applyDeltaChunkUpdateMst ad chunk now).preserveLocalTombs = s.preserveLocalTombs ∧
      (s.applyDeltaChunkUpdateMst ad chunk now).rootSchemaVersion = s.rootSchemaVersion := by
  simp only [applyDeltaChunkUpdateMst]
  split_ifs <;> exact ⟨rfl, rfl⟩

lemma slot_applyDeltaChunkUpdateMst (ad : RegAdapter K A R V S) (s : CrdtMstStore K A R S)
    (chunk : DeltaChunk K R × ℕ) (k : K) :
    (s.applyDeltaChunkUpdateMst ad chunk.1 chunk.2).disk.slot k =
      mergeChunk ad s.preserveLocalTombs s.disk.tombstonePruneFrontier k (s.disk.slot k) chunk := by
  rw [disk_applyDeltaChunkUpdateMst]
  exact (slot_writeDeltaChunk ad s.preserveLocalTombs s.disk chunk.1 chunk.2 k).1

lemma frontier_applyDeltaChunkUpdateMst (ad : RegAdapter K A R V S) (s : CrdtMstStore K A R S)
    (chunk : DeltaChunk K R × ℕ) (k : K) :
    (s.applyDeltaChunkUpdateMst ad chunk.1 chunk.2).disk.tombstonePruneFrontier =
      s.disk.tombstonePruneFrontier := by
  have hpruned := (slot_writeDeltaChunk ad s.preserveLocalTombs s.disk chunk.1 chunk.2 k).2
  rw [disk_applyDeltaChunkUpdateMst]
  funext origin
  rw [tombstonePruneFrontier, hpruned, tombstonePruneFrontier]

/-- What a series of chunks does to the slot of one key. -/
lemma slot_applyChunks (ad : RegAdapter K A R V S) (k : K) : ∀ (chunks : List (DeltaChunk K R × ℕ))
    (s : CrdtMstStore K A R S), (applyChunks ad s chunks).disk.slot k =
        chunks.foldl (mergeChunk ad s.preserveLocalTombs s.disk.tombstonePruneFrontier k)
          (s.disk.slot k) ∧ (applyChunks ad s chunks).rootSchemaVersion = s.rootSchemaVersion
  | [], _ => ⟨rfl, rfl⟩
  | chunk :: chunks, s => by
    obtain ⟨hslot, hversion⟩ := slot_applyChunks ad k chunks
      (s.applyDeltaChunkUpdateMst ad chunk.1 chunk.2)
    obtain ⟨hmode, hversion'⟩ := mode_applyDeltaChunkUpdateMst ad s chunk.1 chunk.2
    refine ⟨?_, hversion.trans hversion'⟩
    rw [slot_applyDeltaChunkUpdateMst, hmode, frontier_applyDeltaChunkUpdateMst ad s chunk k]
      at hslot
    exact hslot

lemma RepInv.applyChunks (h : RepInv ad s) (chunks : List (DeltaChunk K R × ℕ)) :
    RepInv ad (applyChunks ad s chunks) :=
  List.foldlRecOn (motive := RepInv ad) chunks _ h fun _ hs chunk _ =>
    hs.applyDeltaChunkUpdateMst chunk.1 chunk.2

/-- The tree is in step with the tables, or will be: an empty one is rebuilt by the first chunk. -/
def TreeReady (ad : RegAdapter K A R V S) (s : CrdtMstStore K A R S)
    (chunks : List (DeltaChunk K R × ℕ)) : Prop :=
  s.mst = s.disk.buildTreeFromDiskAtVersion ad s.rootSchemaVersion ∨
    (s.mst.isEmpty = true ∧ chunks ≠ [])

/-- **The leaf of a key after a series of chunks** is that of its slot with the chunks folded in. -/
theorem mst_applyChunks (hc : s.disk.Consistent) {chunks : List (DeltaChunk K R × ℕ)}
    (htree : TreeReady ad s chunks) (k : K) : (applyChunks ad s chunks).mst[k]? =
      (chunks.foldl (mergeChunk ad s.preserveLocalTombs s.disk.tombstonePruneFrontier k)
        (s.disk.slot k)).entry ad s.rootSchemaVersion := by
  obtain ⟨hslot, hversion⟩ := slot_applyChunks ad k chunks s
  have hinv : RepInv ad (applyChunks ad s chunks) := by
    rcases htree with hstep | ⟨hempty, hne⟩
    · exact RepInv.applyChunks ⟨hc, hstep⟩ chunks
    · obtain ⟨chunk, rest, rfl⟩ := exists_cons_of_ne_nil hne
      have hfirst : applyChunks ad s (chunk :: rest) =
          applyChunks ad (rebuildMstFromDisk ad s) (chunk :: rest) := by
        have honce : (if (rebuildMstFromDisk ad s).mst.isEmpty then
            rebuildMstFromDisk ad (rebuildMstFromDisk ad s) else rebuildMstFromDisk ad s) =
              rebuildMstFromDisk ad s := by
          split_ifs <;> rfl
        simp only [applyChunks, foldl_cons, applyDeltaChunkUpdateMst, if_pos hempty, honce]
      rw [hfirst]
      exact (repInv_rebuild hc).applyChunks _
  rw [hinv.tracks k, entry_eq, hslot, hversion]

end CrdtMstStore

end Mantissa
