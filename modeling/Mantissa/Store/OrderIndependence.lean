import Mantissa.Store.Slot

/-!
# Order independence where local tombstones are preserved

A store that preserves its tombstones treats a delete as final: registers that arrive for a deleted
key are dropped, and of two deletes the greater one stays. What a key ends with is then a function
of the *set* of rows it was sent. `IsOutcome` is that function, said without any order: if there is
a tombstone at all, the greatest; else the causally maximal entries of all registers.

The proof is on one key. `preservedStep` is a row's effect on a slot in such a store, and
`isOutcome_foldl` shows by induction on the rows, last one first, that a fold of it is the outcome
of the rows seen. Outcomes are unique up to the leaf they give (`IsOutcome.entry_eq`).

The registers are those of an adapter that merges with `MvReg.merge` and nothing else
(`mergingAdapter`).
-/

namespace Mantissa

namespace CrdtMstStore

open List

/-! ## Chunks as rows of one key -/

section SlotRows

variable {K A R V S : Type*} [LinearOrder K]

/-- A row as it reaches one key. -/
inductive SlotRow (R : Type*)
  | reg (incoming : R)
  | tomb (incoming : TombstoneRecord) (now : ℕ)

/-- One row in a store that preserves its tombstones and has pruned nothing. -/
def preservedStep (ad : RegAdapter K A R V S) (slot : Slot R) : SlotRow R → Slot R
  | .reg incoming => slot.mergeReg ad true incoming
  | .tomb incoming now =>
    ⟨none, some (mergeTombstoneRecords slot.tomb (normalizeIncomingTombstone incoming now))⟩

/-- The rows of a chunk as one key receives them. -/
def chunkRows (k : K) (chunk : DeltaChunk K R × ℕ) : List (SlotRow R) :=
  (rowsAt k chunk.1.regs).map .reg ++ (rowsAt k chunk.1.tombs).map fun record =>
    .tomb record chunk.2

variable {ad : RegAdapter K A R V S} {frontier : Bytes → ℕ}

/-- Where nothing was pruned and the chunk does not both write and delete the key, a chunk is its
rows. -/
lemma mergeChunk_eq_foldl (hfrontier : ∀ origin, frontier origin = 0) {k : K}
    {chunk : DeltaChunk K R × ℕ}
    (hdisjoint : k ∈ chunk.1.regs.map Prod.fst → k ∉ chunk.1.tombs.map Prod.fst) (slot : Slot R) :
    mergeChunk ad true frontier k slot chunk =
      (chunkRows k chunk).foldl (preservedStep ad) slot := by
  have htomb : Slot.mergeTomb frontier chunk.2 =
      fun (slot : Slot R) record => preservedStep ad slot (.tomb record chunk.2) := by
    funext slot record
    rw [Slot.mergeTomb, if_neg (by simp [hfrontier])]
    rfl
  simp only [mergeChunk, chunkRows, foldl_append, foldl_map, htomb]
  by_cases hkey : k ∈ chunk.1.tombs.map Prod.fst
  · -- the key is deleted by this chunk, so it has no register in it
    have hregs : rowsAt k chunk.1.regs = [] := rowsAt_eq_nil.mpr fun h => hdisjoint h hkey
    simp only [hregs, foldl_nil]
  · simp only [hkey, not_false_eq_true, and_true, decide_true]
    rfl

lemma foldl_mergeChunk_eq (hfrontier : ∀ origin, frontier origin = 0) {k : K} :
    ∀ (chunks : List (DeltaChunk K R × ℕ)) (slot : Slot R),
      (∀ chunk ∈ chunks, k ∈ chunk.1.regs.map Prod.fst → k ∉ chunk.1.tombs.map Prod.fst) →
      chunks.foldl (mergeChunk ad true frontier k) slot =
        (chunks.flatMap (chunkRows k)).foldl (preservedStep ad) slot
  | [], slot, _ => rfl
  | chunk :: chunks, slot, hdisjoint => by
    rw [foldl_cons, flatMap_cons, foldl_append,
      mergeChunk_eq_foldl hfrontier (hdisjoint chunk (mem_cons_self ..))]
    exact foldl_mergeChunk_eq hfrontier chunks _ fun c hc =>
      hdisjoint c (mem_cons_of_mem chunk hc)

/-- The versions of the deletes a key has or was sent. -/
def versionsSeen (slot : Slot R) (rows : List (SlotRow R)) : Set (ℕ ×ₗ Bytes) :=
  {v | (∃ record, slot.tomb = some record ∧ record.version = v) ∨
    ∃ record now, .tomb record now ∈ rows ∧ record.version = v}

/-- The key has or was sent a register. -/
def liveSeen (slot : Slot R) (rows : List (SlotRow R)) : Prop :=
  (∃ reg, slot.value = some reg) ∨ ∃ reg, .reg reg ∈ rows

end SlotRows

/-! ## What a set of rows comes to -/

variable {V A : Type*} [LinearOrder A]

/-- What a key ends with: the greatest version of a delete, else the maximal register entries;
`live` says that there was a register at all. -/
def IsOutcome (versions : Set (ℕ ×ₗ Bytes)) (live : Prop) (entries : Set (MvRegEntry V A))
    (slot : Slot (MvReg V A)) : Prop :=
  match slot.tomb with
  | some record => IsGreatest versions record.version
  | none => versions = ∅ ∧
      match slot.value with
      | some reg => live ∧ reg.entrySet = maxima MvRegEntry.clock entries
      | none => ¬ live

/-- The entries of the registers a key has or was sent. -/
def entriesSeen (slot : Slot (MvReg V A)) (rows : List (SlotRow (MvReg V A))) :
    Set (MvRegEntry V A) :=
  {e | (∃ reg, slot.value = some reg ∧ e ∈ reg.entries) ∨
    ∃ reg, .reg reg ∈ rows ∧ e ∈ reg.entries}

section Rows

variable {slot : Slot (MvReg V A)} {rows : List (SlotRow (MvReg V A))} (incoming : MvReg V A)

lemma versionsSeen_append_tomb (incoming : TombstoneRecord) (now : ℕ) :
    versionsSeen slot (rows ++ [.tomb incoming now]) =
      insert incoming.version (versionsSeen slot rows) := by
  ext v
  simp only [versionsSeen, mem_append, mem_singleton, Set.mem_insert_iff,
    Set.mem_ofPred_eq, SlotRow.tomb.injEq]
  constructor
  · rintro (h | ⟨record, now', h | ⟨rfl, -⟩, rfl⟩)
    · exact .inr (.inl h)
    · exact .inr (.inr ⟨record, now', h, rfl⟩)
    · exact .inl rfl
  · rintro (rfl | h | ⟨record, now', h, rfl⟩)
    · exact .inr ⟨incoming, now, .inr ⟨rfl, rfl⟩, rfl⟩
    · exact .inl h
    · exact .inr ⟨record, now', .inl h, rfl⟩

lemma entriesSeen_append_reg :
    entriesSeen slot (rows ++ [.reg incoming]) = entriesSeen slot rows ∪ incoming.entrySet := by
  ext e
  simp only [entriesSeen, mem_append, mem_singleton, Set.mem_union, Set.mem_ofPred_eq,
    SlotRow.reg.injEq, MvReg.mem_entrySet]
  constructor
  · rintro (h | ⟨reg, h | rfl, he⟩)
    · exact .inl (.inl h)
    · exact .inl (.inr ⟨reg, h, he⟩)
    · exact .inr he
  · rintro ((h | ⟨reg, h, he⟩) | he)
    · exact .inl h
    · exact .inr ⟨reg, .inl h, he⟩
    · exact .inr ⟨incoming, .inr rfl, he⟩

lemma entriesSeen_finite : (entriesSeen slot rows).Finite := by
  have hstart : {e | ∃ reg, slot.value = some reg ∧ e ∈ reg.entries}.Finite := by
    cases hvalue : slot.value with
    | none => simp
    | some reg => simp [reg.entries.finite_toSet]
  have hrows : {e | ∃ reg, .reg reg ∈ rows ∧ e ∈ reg.entries}.Finite := by
    have hsub : {e | ∃ reg, .reg reg ∈ rows ∧ e ∈ reg.entries} ⊆
        {e | e ∈ rows.flatMap fun row => match row with
          | .reg reg => reg.entries
          | .tomb _ _ => []} := by
      rintro e ⟨reg, hmem, he⟩
      exact mem_flatMap.mpr ⟨.reg reg, hmem, he⟩
    exact (finite_toSet _).subset hsub
  exact hstart.union hrows

end Rows

/-! ## The rows of a series of chunks -/

variable (s : CrdtMstStore UuidKey A (MvReg V A) (MvRegSnapshot V))

variable (chunks : List (DeltaChunk UuidKey (MvReg V A))) (k : UuidKey)

/-- The versions of the deletes a key has in the store or in one of the chunks. -/
def deletesSeen : Set (ℕ ×ₗ Bytes) :=
  {v | (∃ record, s.disk.tombs[k]? = some record ∧ record.version = v) ∨
    ∃ chunk ∈ chunks, ∃ record, (k, record) ∈ chunk.tombs ∧ record.version = v}

/-- The registers a key has in the store or in one of the chunks. -/
def registersSeen : Set (MvReg V A) :=
  {reg | s.disk.values[k]? = some reg ∨ ∃ chunk ∈ chunks, (k, reg) ∈ chunk.regs}

/-- All entries of those registers. -/
def entriesOfSeen : Set (MvRegEntry V A) :=
  {e | ∃ reg ∈ registersSeen s chunks k, e ∈ reg.entries}

variable {s : CrdtMstStore UuidKey A (MvReg V A) (MvRegSnapshot V)}
variable {order order' : List (DeltaChunk UuidKey (MvReg V A) × ℕ)}

lemma reg_mem_flatMap {k : UuidKey} {reg : MvReg V A} :
    .reg reg ∈ order.flatMap (chunkRows k) ↔
      ∃ chunk ∈ order.map Prod.fst, (k, reg) ∈ chunk.regs := by
  simp [chunkRows, mem_rowsAt]

lemma tomb_mem_flatMap {k : UuidKey} {record : TombstoneRecord} :
    (∃ now, .tomb record now ∈ order.flatMap (chunkRows k)) ↔
      ∃ chunk ∈ order.map Prod.fst, (k, record) ∈ chunk.tombs := by
  simp only [chunkRows, mem_flatMap, mem_append, mem_map, mem_rowsAt]
  constructor
  · rintro ⟨now, chunk, hchunk, ⟨reg, -, heq⟩ | ⟨record', hrow, heq⟩⟩
    · cases heq
    · obtain ⟨rfl, -⟩ := SlotRow.tomb.inj heq
      exact ⟨chunk.1, ⟨chunk, hchunk, rfl⟩, hrow⟩
  · rintro ⟨chunk, ⟨timed, hchunk, rfl⟩, hrow⟩
    exact ⟨timed.2, timed, hchunk, .inr ⟨record, hrow, rfl⟩⟩

lemma versionsSeen_flatMap : versionsSeen (s.disk.slot k) (order.flatMap (chunkRows k)) =
      deletesSeen s (order.map Prod.fst) k := by
  ext v
  refine or_congr Iff.rfl ⟨?_, ?_⟩
  · rintro ⟨record, now, hmem, rfl⟩
    obtain ⟨chunk, hchunk, hrow⟩ := tomb_mem_flatMap.mp ⟨now, hmem⟩
    exact ⟨chunk, hchunk, record, hrow, rfl⟩
  · rintro ⟨chunk, hchunk, record, hrow, rfl⟩
    obtain ⟨now, hmem⟩ := tomb_mem_flatMap.mpr ⟨chunk, hchunk, hrow⟩
    exact ⟨record, now, hmem, rfl⟩

lemma liveSeen_flatMap : liveSeen (s.disk.slot k) (order.flatMap (chunkRows k)) ↔
      (registersSeen s (order.map Prod.fst) k).Nonempty := by
  simp only [liveSeen, reg_mem_flatMap, ← exists_or]
  rfl

lemma entriesSeen_flatMap : entriesSeen (s.disk.slot k) (order.flatMap (chunkRows k)) =
      entriesOfSeen s (order.map Prod.fst) k := by
  simp only [entriesSeen, reg_mem_flatMap, ← exists_or, ← or_and_right]
  rfl

/-- Sequences with the same chunks have shown a key the same deletes and registers. -/
lemma seen_congr (hsame : ∀ chunk, chunk ∈ order.map Prod.fst ↔ chunk ∈ order'.map Prod.fst)
    (k : UuidKey) : deletesSeen s (order.map Prod.fst) k = deletesSeen s (order'.map Prod.fst) k ∧
      registersSeen s (order.map Prod.fst) k = registersSeen s (order'.map Prod.fst) k := by
  constructor
  · simp only [deletesSeen, hsame]
  · simp only [registersSeen, hsame]

end CrdtMstStore

/-! ## A fold of rows is their outcome -/

variable {V A : Type*} [LinearOrder V] [LinearOrder A]

/-- An adapter that keeps a merged register as it is, with any background compaction. -/
def mergingAdapter (encodeStoreActor : A → Bytes)
    (compact : MvReg V A → ℕ → Except String (Option (MvReg V A))) :
    RegAdapter UuidKey A (MvReg V A) V (MvRegSnapshot V) :=
  storeMvRegAdapterSorted encodeStoreActor { compact := compact }

namespace CrdtMstStore

variable {encodeStoreActor : A → Bytes}
variable {compact : MvReg V A → ℕ → Except String (Option (MvReg V A))}

/-- Two slots with one outcome give one leaf. -/
lemma IsOutcome.entry_eq {versions : Set (ℕ ×ₗ Bytes)} {live : Prop}
    {entries : Set (MvRegEntry V A)} {slot slot' : Slot (MvReg V A)}
    (h : IsOutcome versions live entries slot) (h' : IsOutcome versions live entries slot')
    (version : ℕ) : slot.entry (mergingAdapter encodeStoreActor compact) version =
      slot'.entry (mergingAdapter encodeStoreActor compact) version := by
  obtain ⟨value, tomb⟩ := slot
  obtain ⟨value', tomb'⟩ := slot'
  cases tomb with
  | some record =>
    cases tomb' with
    | some record' =>
      have hversion : record.version = record'.version := h.unique h'
      simp only [Slot.entry, Option.some.injEq]
      exact deletedEntry_eq_iff.mpr hversion
    | none =>
      rw [h'.1] at h
      exact absurd h.1 (by simp)
  | none =>
    cases tomb' with
    | some record' =>
      rw [h.1] at h'
      exact absurd h'.1 (by simp)
    | none =>
      cases value with
      | none =>
        cases value' with
        | none => rfl
        | some reg' => exact absurd h'.2.1 h.2
      | some reg =>
        cases value' with
        | none => exact absurd h.2.1 h'.2
        | some reg' =>
          have hsnapshot : reg.snapshot = reg'.snapshot :=
            MvReg.snapshot_eq_of_entrySet_eq (h.2.2.trans h'.2.2.symm)
          simp only [Slot.entry, Option.map_some, Option.some.injEq, Entry.active.injEq]
          exact hsnapshot

section Fold

variable {slot : Slot (MvReg V A)} {rows : List (SlotRow (MvReg V A))}

/-- One more row keeps a slot the outcome of the rows. -/
lemma IsOutcome.step {seen : Slot (MvReg V A)}
    (h : IsOutcome (versionsSeen slot rows) (liveSeen slot rows) (entriesSeen slot rows) seen)
    (row : SlotRow (MvReg V A))
    (hinj : Set.InjOn MvRegEntry.clock (entriesSeen slot (rows ++ [row]))) :
    IsOutcome (versionsSeen slot (rows ++ [row])) (liveSeen slot (rows ++ [row]))
      (entriesSeen slot (rows ++ [row]))
      (preservedStep (mergingAdapter encodeStoreActor compact) seen row) := by
  obtain ⟨value, tomb⟩ := seen
  cases row with
  | tomb incoming now =>
    rw [versionsSeen_append_tomb]
    simp only [preservedStep, IsOutcome]
    cases tomb with
    | some record =>
      have hversion := version_mergeTombstoneRecords record
          (normalizeIncomingTombstone incoming now)
      rw [version_normalizeIncomingTombstone] at hversion
      have hgreatest : IsGreatest (versionsSeen slot rows) record.version := h
      rw [hversion, max_comm]
      exact hgreatest.insert incoming.version
    | none =>
      have hempty : versionsSeen slot rows = ∅ := h.1
      rw [hempty]
      simp [mergeTombstoneRecords]
  | reg incoming =>
    have hversions : versionsSeen slot (rows ++ [.reg incoming]) = versionsSeen slot rows := by
      simp [versionsSeen]
    rw [hversions]
    rw [entriesSeen_append_reg] at hinj ⊢
    cases tomb with
    | some record => exact h
    | none =>
      refine ⟨h.1, .inr ⟨incoming, by simp⟩, ?_⟩
      cases value with
      | none =>
        -- nothing has been seen before: the register is taken as it came
        have hdead : ¬ liveSeen slot rows := h.2
        have hentries : entriesSeen slot rows = ∅ := by
          ext e
          simp only [Set.mem_empty_iff_false, iff_false]
          rintro (⟨reg, hreg, -⟩ | ⟨reg, hreg, -⟩)
          · exact hdead (.inl ⟨reg, hreg⟩)
          · exact hdead (.inr ⟨reg, hreg⟩)
        rw [hentries, Set.empty_union, incoming.maxima_entrySet]
        rfl
      | some reg =>
        -- a merge keeps the maximal entries of what there was and what was sent
        have hreg : reg.entrySet = maxima MvRegEntry.clock (entriesSeen slot rows) := h.2.2
        have hsub : reg.entrySet ∪ incoming.entrySet ⊆ entriesSeen slot rows ∪
            incoming.entrySet := by
          rw [hreg]
          exact Set.union_subset_union_left _ maxima_subset
        rw [← maxima_union_maxima entriesSeen_finite incoming.entrySet_finite,
          incoming.maxima_entrySet, ← hreg]
        exact MvReg.entrySet_merge (hinj.mono hsub)

/-- **A fold of rows is the outcome of the rows**, in whatever order they came. -/
theorem isOutcome_foldl (encodeStoreActor : A → Bytes)
    (compact : MvReg V A → ℕ → Except String (Option (MvReg V A)))
    (hslot : slot.value = none ∨ slot.tomb = none) (rows : List (SlotRow (MvReg V A)))
    (hinj : Set.InjOn MvRegEntry.clock (entriesSeen slot rows)) :
    IsOutcome (versionsSeen slot rows) (liveSeen slot rows) (entriesSeen slot rows)
      (rows.foldl (preservedStep (mergingAdapter encodeStoreActor compact)) slot) := by
  -- on the rows so far, one row at the end
  induction rows using List.reverseRecOn with
  | nil =>
    obtain ⟨value, tomb⟩ := slot
    cases tomb with
    | some record => simp [IsOutcome, versionsSeen]
    | none =>
      cases value with
      | none => simp [IsOutcome, versionsSeen, liveSeen]
      | some reg =>
        have hentries : entriesSeen ⟨some reg, none⟩ [] = reg.entrySet := by
          ext e
          simp [entriesSeen]
        simp [IsOutcome, versionsSeen, liveSeen, hentries, reg.maxima_entrySet]
  | append_singleton rows row ih =>
    rw [List.foldl_append, List.foldl_cons, List.foldl_nil]
    refine (ih (hinj.mono ?_)).step row hinj
    rintro e (h | ⟨reg, hmem, he⟩)
    · exact .inl h
    · exact Or.inr ⟨reg, List.mem_append_left _ hmem, he⟩

end Fold

/-! ## Whole stores -/

section Stores

variable {s : CrdtMstStore UuidKey A (MvReg V A) (MvRegSnapshot V)}
variable {order order' : List (DeltaChunk UuidKey (MvReg V A) × ℕ)}

/-- After a series of chunks, each leaf is that of a slot with the outcome of everything seen. -/
lemma exists_isOutcome (hpreserve : s.preserveLocalTombs = true) (hc : s.disk.Consistent)
    (hfrontiers : ∀ origin : Bytes, s.disk.tombPruned[origin]? = none)
    (htree : TreeReady (mergingAdapter encodeStoreActor compact) s order) (k : UuidKey)
    (hdisjoint : ∀ chunk ∈ order.map Prod.fst,
      k ∈ chunk.regs.map Prod.fst → k ∉ chunk.tombs.map Prod.fst)
    (hclocks : Set.InjOn MvRegEntry.clock (entriesOfSeen s (order.map Prod.fst) k)) :
    ∃ slot, IsOutcome (deletesSeen s (order.map Prod.fst) k)
        (registersSeen s (order.map Prod.fst) k).Nonempty
        (entriesOfSeen s (order.map Prod.fst) k) slot ∧
      (applyChunks (mergingAdapter encodeStoreActor compact) s order).mst[k]? =
        slot.entry (mergingAdapter encodeStoreActor compact) s.rootSchemaVersion := by
  have hfrontier : ∀ origin, s.disk.tombstonePruneFrontier origin = 0 := by
    intro origin
    rw [Disk.tombstonePruneFrontier, hfrontiers origin]
    rfl
  have hfold := isOutcome_foldl encodeStoreActor compact (hc.exclusive k)
    (order.flatMap (chunkRows k)) (by rwa [entriesSeen_flatMap])
  rw [versionsSeen_flatMap, entriesSeen_flatMap, propext (liveSeen_flatMap k)] at hfold
  refine ⟨_, hfold, ?_⟩
  rw [mst_applyChunks hc htree k, hpreserve, foldl_mergeChunk_eq hfrontier order _ fun chunk hmem =>
    hdisjoint chunk.1 (List.mem_map.mpr ⟨chunk, hmem, rfl⟩)]

/-- **Order independence.** In a store that preserves its tombstones and has no prune frontier,
chunks of which none both writes and deletes a key give one tree, in whatever order and however
often they are applied: a key with a delete ends with the greatest, any other key that has a
register with the causally maximal entries of all its registers. -/
theorem preserved_chunks_order_independent (encodeStoreActor : A → Bytes)
    (compact : MvReg V A → ℕ → Except String (Option (MvReg V A)))
    (s : CrdtMstStore UuidKey A (MvReg V A) (MvRegSnapshot V))
    (hpreserve : s.preserveLocalTombs = true) (hc : s.disk.Consistent)
    (hfrontiers : ∀ origin : Bytes, s.disk.tombPruned[origin]? = none)
    (order order' : List (DeltaChunk UuidKey (MvReg V A) × ℕ))
    (hsame : ∀ chunk, chunk ∈ order.map Prod.fst ↔ chunk ∈ order'.map Prod.fst)
    (htree : TreeReady (mergingAdapter encodeStoreActor compact) s order)
    (hdisjoint : ∀ chunk ∈ order.map Prod.fst, ∀ k ∈ chunk.regs.map Prod.fst,
      k ∉ chunk.tombs.map Prod.fst)
    (hclocks : ∀ k, Set.InjOn MvRegEntry.clock (entriesOfSeen s (order.map Prod.fst) k)) :
    let ended := applyChunks (mergingAdapter encodeStoreActor compact) s order
    let ended' := applyChunks (mergingAdapter encodeStoreActor compact) s order'
    ended.mst = ended'.mst ∧ ∀ k : UuidKey,
      ((deletesSeen s (order.map Prod.fst) k).Nonempty → ∃ sequence originActor,
        IsGreatest (deletesSeen s (order.map Prod.fst) k) (toLex (sequence, originActor)) ∧
          ended.mst[k]? = some (.deleted sequence originActor)) ∧
      (deletesSeen s (order.map Prod.fst) k = ∅ →
        (registersSeen s (order.map Prod.fst) k = ∅ → ended.mst[k]? = none) ∧
        ((registersSeen s (order.map Prod.fst) k).Nonempty → ∃ joined : MvReg V A,
          joined.entrySet = maxima MvRegEntry.clock (entriesOfSeen s (order.map Prod.fst) k) ∧
            ended.mst[k]? = some (.active joined.snapshot))) := by
  have hne : order ≠ [] → order' ≠ [] := by
    rintro hne rfl
    obtain ⟨chunk, rest, rfl⟩ := List.exists_cons_of_ne_nil hne
    exact absurd ((hsame chunk.1).mp (by simp)) (by simp)
  have htree' : TreeReady (mergingAdapter encodeStoreActor compact) s order' :=
    htree.imp_right fun h => ⟨h.1, hne h.2⟩
  have hentries : ∀ k, entriesOfSeen s (order'.map Prod.fst) k =
      entriesOfSeen s (order.map Prod.fst) k := by
    intro k
    rw [entriesOfSeen, entriesOfSeen, (seen_congr hsame k).2]
  refine ⟨BTreeMap.ext_lookup fun k => ?_, fun k => ?_⟩
  · obtain ⟨slot, hslot, hleaf⟩ := exists_isOutcome hpreserve hc hfrontiers htree k
      (fun chunk hmem => hdisjoint chunk hmem k) (hclocks k)
    obtain ⟨slot', hslot', hleaf'⟩ := exists_isOutcome hpreserve hc hfrontiers htree' k
      (fun chunk hmem => hdisjoint chunk ((hsame chunk).mpr hmem) k)
      (by rw [hentries k]; exact hclocks k)
    rw [← (seen_congr hsame k).1, ← (seen_congr hsame k).2, hentries k] at hslot'
    rw [hleaf, hleaf']
    exact hslot.entry_eq hslot' s.rootSchemaVersion
  · obtain ⟨⟨value, tomb⟩, hslot, hleaf⟩ := exists_isOutcome hpreserve hc hfrontiers htree k
      (fun chunk hmem => hdisjoint chunk hmem k) (hclocks k)
    cases tomb with
    | some record =>
      refine ⟨fun _ => ⟨record.sequence, record.originActor, hslot, hleaf⟩, fun hempty => ?_⟩
      simp only [IsOutcome, hempty] at hslot
      exact absurd hslot.1 (by simp)
    | none =>
      refine ⟨fun hdeleted => absurd hslot.1 hdeleted.ne_empty, fun _ => ?_⟩
      cases value with
      | none => exact ⟨fun _ => hleaf, fun hlive => absurd hlive hslot.2⟩
      | some reg =>
        exact ⟨fun hdead => absurd hslot.2.1 (by simp [hdead]), fun _ => ⟨reg, hslot.2.2, hleaf⟩⟩

end Stores

/-- A register and a tombstone for one key, in two orders and with a repetition. -/
theorem preserved_chunks_order_independent_sample :
    let regs : DeltaChunk UuidKey (MvReg ℕ UuidKey) :=
      ⟨[(sampleUuid 1, MvReg.new.write (sampleUuid 2) 7)], []⟩
    let tombs : DeltaChunk UuidKey (MvReg ℕ UuidKey) :=
      ⟨[], [(sampleUuid 1, ⟨4, (sampleUuid 2).val, 0⟩)]⟩
    let ad : RegAdapter UuidKey UuidKey (MvReg ℕ UuidKey) ℕ (MvRegSnapshot ℕ) :=
      mergingAdapter (fun actor => actor.val) fun _ _ => .ok none
    let s := build Disk.empty (sampleUuid 5) true
    (applyChunks ad s [(regs, 10), (tombs, 20)]).mst =
        (applyChunks ad s [(tombs, 10), (regs, 15), (tombs, 20)]).mst ∧
      (applyChunks ad s [(regs, 10), (tombs, 20)]).mst[sampleUuid 1]? =
        some (.deleted 4 (sampleUuid 2).val) := by
  intro regs tombs ad s
  refine ⟨(preserved_chunks_order_independent _ _ s rfl Disk.consistent_empty ?_
    [(regs, 10), (tombs, 20)] [(tombs, 10), (regs, 15), (tombs, 20)] ?_ ?_ ?_ ?_).1, ?_⟩
  · simp [s, build, Disk.empty]
  · simp [or_comm]
  · exact .inr ⟨rfl, by simp⟩
  · simp [regs, tombs]
  · rintro k e ⟨reg, hreg, he⟩ f ⟨reg', hreg', hf⟩ heq
    -- only one register is around
    simp only [registersSeen, s, build, Disk.empty, regs, tombs] at hreg hreg'
    simp at hreg hreg'
    obtain rfl := hreg.2
    obtain rfl := hreg'.2
    exact MvReg.normalized _ |>.eq_of_le he hf heq.le
  · decide +kernel

end CrdtMstStore

end Mantissa
