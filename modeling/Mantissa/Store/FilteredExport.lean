import Mantissa.Store.OrderIndependence
import Mantissa.Store.StoreCluster

/-!
# What a filtered export leaves out

Two stores compare digests of what a row shows and skip the rows that show the same. The values a
register shows do not determine its clocks, so such a row may still have something to say: merging
it can make a value disappear, when each side has a later write over the other side's copies of it
(`equal_rows_still_merge`).

`CrossDominated` is exactly that situation, and nothing else is lost: rows that show the same merge
without effect unless some value is cross-dominated (`snapshot_merge_eq_iff`), and so the filtered
export leads the receiver to the tree of the unfiltered one just when no wanted row that shows the
same on both sides has such a value (`filtered_export_complete_iff`).
-/

namespace Mantissa

open List

variable {V A : Type*} [LinearOrder V] [LinearOrder A]

namespace MvReg

/-- Every copy of the value in `r` is below an entry of `s`, and every copy in `s` is at or below an
entry of `r`. -/
def CrossDominated (r s : MvReg V A) (v : V) : Prop :=
  (∀ e ∈ r.entries, e.value = v → ∃ f ∈ s.entries, e.clock < f.clock) ∧
    ∀ f ∈ s.entries, f.value = v → ∃ e ∈ r.entries, f.clock ≤ e.clock

omit [LinearOrder V] in
/-- A merge drops a value that was visible just when it is cross-dominated. -/
lemma not_mem_readValues_merge_iff {r s : MvReg V A} {v : V} :
    v ∉ (r.merge s).readValues ↔ CrossDominated r s v := by
  simp only [mem_readValues, mem_merge_iff, CrossDominated]
  constructor
  · intro h
    refine ⟨fun e he hv => ?_, fun f hf hv => ?_⟩
    · by_contra hnone
      push Not at hnone
      exact h ⟨e, .inl ⟨he, hnone⟩, hv⟩
    · by_contra hnone
      push Not at hnone
      exact h ⟨f, .inr ⟨hf, hnone⟩, hv⟩
  · rintro ⟨hr, hs⟩ ⟨e, ⟨he, hkept⟩ | ⟨he, hkept⟩, hv⟩
    · obtain ⟨f, hf, hlt⟩ := hr e he hv
      exact hkept f hf hlt
    · obtain ⟨f, hf, hle⟩ := hs e he hv
      exact hkept f hf hle

/-- **Registers that show the same** merge without effect just when no value is cross-dominated. -/
theorem snapshot_merge_eq_iff {r s : MvReg V A} (h : r.snapshot = s.snapshot) :
    (r.merge s).snapshot = r.snapshot ↔ ∀ v ∈ r.readValues, ¬ CrossDominated r s v := by
  have hsame := snapshot_eq_iff.mp h
  simp only [snapshot_eq_iff, ← not_mem_readValues_merge_iff, not_not]
  constructor
  · exact fun hmerge v hv => (hmerge v).mpr hv
  · refine fun hkept v => ⟨fun hv => ?_, hkept v⟩
    -- a merge shows nothing that neither side shows
    obtain ⟨e, he, rfl⟩ := mem_readValues.mp hv
    rcases entrySet_merge_subset r s he with he | he
    · exact mem_readValues.mpr ⟨e, he, rfl⟩
    · exact (hsame _).mpr (mem_readValues.mpr ⟨e, he, rfl⟩)

end MvReg

namespace StoreCluster

open CrdtMstStore

/-! ## Runs without deletes -/

section NoTombstones

variable {K A R V S : Type*} [LinearOrder K] [LinearOrder A] [DecidableEq R]
variable {digest : Entry S → Bytes} {ad : RegAdapter K A R V S} {c : StoreCluster K A R S}

omit [LinearOrder A] [DecidableEq R] in
lemma tomb_foldl_mergeReg (kept : Bool) (rows : List R) {slot : Slot R} (h : slot.tomb = none) :
    (rows.foldl (Slot.mergeReg ad kept) slot).tomb = none := by
  induction rows generalizing slot with
  | nil => exact h
  | cons row rows ih =>
    refine ih ?_
    rw [Slot.mergeReg]
    split_ifs
    · exact h
    · rfl

/-- No tombstone in a store or on its way. -/
structure NoTombstones (c : StoreCluster K A R S) : Prop where
  stores : ∀ stores ∈ c.stores, ∀ (a : A) (k : K), (stores a).disk.tombs[k]? = none
  sent : ∀ chunk ∈ c.sent, chunk.tombs = []

/-- **Where nothing is deleted there are no tombstones.** -/
theorem noTombstones_of_reaches (h : Reaches (step digest ad) neverRemoves init c) :
    c.NoTombstones := by
  refine h.invariant ⟨?_, ?_⟩ ?_
  · intro stores hmem a k
    obtain rfl := mem_singleton.mp hmem
    simp [init, build, Disk.empty]
  · intro chunk hmem
    cases hmem
  · intro x y act hx hok hstep
    have hnow : ∀ (a : A) (k : K), (x.store a).disk.tombs[k]? = none :=
      hx.stores x.store mem_cons_self
    rcases step_cases hstep with ⟨a, chunk, hrows, rfl⟩ | ⟨a, s, hchange, rfl⟩
    · refine ⟨hx.stores, fun chunk' hmem => ?_⟩
      rcases mem_append.mp hmem with hmem | hmem
      · exact hx.sent chunk' hmem
      · obtain rfl := mem_singleton.mp hmem
        refine eq_nil_iff_forall_not_mem.mpr fun row hrow => ?_
        have hstored := hrows.2 row.1 row.2 hrow
        rw [hnow] at hstored
        cases hstored
    · refine ⟨fun stores hmem b k => ?_, hx.sent⟩
      rcases mem_stores_setStore.mp hmem with rfl | hmem
      · by_cases hba : b = a
        · subst hba
          rw [Function.update_self]
          cases hchange with
          | upsert a k' v =>
            refine (Disk.tombs_writeValue _ k' k _).trans ?_
            rw [hnow, ite_self]
          | remove a k' now => exact hok.elim
          | @deliver chunk hchunk a source keep now =>
            have hslot := slot_applyDeltaChunkUpdateMst ad (x.store b) (chunk.restrict keep, now) k
            have htombs : rowsAt k (chunk.restrict keep).tombs = [] := by
              simp [DeltaChunk.restrict, hx.sent chunk hchunk, rowsAt]
            simp only [mergeChunk, htombs, foldl_nil] at hslot
            exact (congrArg Slot.tomb hslot).trans (tomb_foldl_mergeReg _ _ (hnow b k))
        · rw [Function.update_of_ne hba]
          exact hnow b k
      · exact hx.stores stores hmem b k

end NoTombstones

/-! ## Filtered and unfiltered -/

section Filtered

variable {encodeStoreActor : A → Bytes}
variable {compact : MvReg V A → ℕ → Except String (Option (MvReg V A))}
variable {digest : Entry (MvRegSnapshot V) → Bytes}
variable {receiver sender : CrdtMstStore UuidKey A (MvReg V A) (MvRegSnapshot V)}

/-- Rows that show the same and have a cross-dominated value. -/
def HidesUpdate (receiver sender : CrdtMstStore UuidKey A (MvReg V A) (MvRegSnapshot V))
    (k : UuidKey) : Prop :=
  ∃ r s, receiver.disk.values[k]? = some r ∧ sender.disk.values[k]? = some s ∧
    r.snapshot = s.snapshot ∧ ∃ v ∈ r.readValues, r.CrossDominated s v

/-- What a key shows after a register, if any, is merged into its row. -/
def shownAfter (row incoming : Option (MvReg V A)) : Option (Entry (MvRegSnapshot V)) :=
  match incoming with
  | none => row.map fun r => .active r.snapshot
  | some s => some (.active (match row with
      | some r => (r.merge s).snapshot
      | none => s.snapshot))

variable {k : UuidKey}

/-- The leaf of a key after a chunk with at most one register for it and no tombstone. -/
lemma mst_applyDelta_of_rows {a : A}
    (h : Replica (mergingAdapter encodeStoreActor compact) a receiver)
    (htomb : receiver.disk.tombs[k]? = none) {chunk : DeltaChunk UuidKey (MvReg V A)}
    (htombs : rowsAt k chunk.tombs = []) (now : ℕ) {incoming : Option (MvReg V A)}
    (hregs : rowsAt k chunk.regs = incoming.toList) :
    (receiver.applyDeltaChunkUpdateMst (mergingAdapter encodeStoreActor compact) chunk
      now).mst[k]? = shownAfter receiver.disk.values[k]? incoming := by
  have hready : TreeReady (mergingAdapter encodeStoreActor compact) receiver [(chunk, now)] :=
    .inl h.inv.mst_eq
  have hleaf := mst_applyChunks h.inv.consistent hready k
  simp only [applyChunks, foldl_cons, foldl_nil, mergeChunk, htombs, hregs] at hleaf
  rw [hleaf]
  simp only [Disk.slot, htomb]
  cases incoming with
  | none => rfl
  | some s =>
    simp only [Option.toList, foldl_cons, foldl_nil, Slot.mergeReg,
      Option.isSome_none, Bool.false_eq_true, and_false, if_false, Slot.entry, shownAfter]
    cases receiver.disk.values[k]? <;> rfl

/-- The leaf of a key that is not deleted, at any version. -/
lemma entry_of_no_tomb {d : Disk UuidKey (MvReg V A)} (h : d.tombs[k]? = none)
    (version : ℕ) : d.entry (mergingAdapter encodeStoreActor compact) version k =
      d.values[k]?.map fun r => .active r.snapshot := by
  rw [Disk.entry, h]
  rfl

/-- The leaf of a key after an export of the selected rows. -/
lemma mst_applyExport {a : A} (h : Replica (mergingAdapter encodeStoreActor compact) a receiver)
    (htomb : receiver.disk.tombs[k]? = none) (htomb' : sender.disk.tombs[k]? = none)
    (keep : UuidKey → Bool) (want : List PageDigestRange) (now : ℕ) :
    let ad := mergingAdapter encodeStoreActor compact
    (receiver.applyDeltaChunkUpdateMst ad ⟨exportRows ad sender.disk.values keep want [],
      exportRows ad sender.disk.tombs keep want []⟩ now).mst[k]? =
      shownAfter receiver.disk.values[k]?
        (if keep k = true ∧ WantsKey ad want k then sender.disk.values[k]? else none) := by
  refine mst_applyDelta_of_rows h htomb ?_ now ?_
  · rw [rowsAt_exportRows, htomb']
    split_ifs <;> rfl
  · rw [rowsAt_exportRows]
    split_ifs <;> rfl

section OneKey

variable {a b : A} (hreceiver : Replica (mergingAdapter encodeStoreActor compact) a receiver)
  (hsender : Replica (mergingAdapter encodeStoreActor compact) b sender) {k : UuidKey}
  (htomb : receiver.disk.tombs[k]? = none) (htomb' : sender.disk.tombs[k]? = none)
  (hdigest : ∀ leaf leaf', receiver.mst[k]? = some leaf → sender.mst[k]? = some leaf' →
    digest leaf = digest leaf' → leaf = leaf')

include hreceiver hsender htomb htomb' hdigest

/-- A row is left out just when both sides have it and show the same. -/
lemma mem_differing_iff {want : List PageDigestRange}
    (hwant : WantsKey (mergingAdapter encodeStoreActor compact) want k)
    (version : ℕ) {s : MvReg V A} (hs : sender.disk.values[k]? = some s) :
    let ad := mergingAdapter encodeStoreActor compact
    ad.keyToBytes k ∈ differingRowKeys digest ad sender want
        (rowDigestsForRanges digest ad receiver want version) version ↔
      ∀ r, receiver.disk.values[k]? = some r → r.snapshot ≠ s.snapshot := by
  intro ad
  rw [mem_differingRowKeys hsender.inv hreceiver.inv, entry_of_no_tomb htomb',
    entry_of_no_tomb htomb, hs]
  have hleaf' : sender.mst[k]? = some (.active s.snapshot) := by
    rw [hsender.inv.tracks k, entry_of_no_tomb htomb', hs]
    rfl
  simp only [hwant, true_and, Option.map_some, Option.some.injEq, exists_eq_left']
  cases hr : receiver.disk.values[k]? with
  | none => simp
  | some r =>
    have hleaf : receiver.mst[k]? = some (.active r.snapshot) := by
      rw [hreceiver.inv.tracks k, entry_of_no_tomb htomb, hr]
      rfl
    simp only [Option.map_some, ne_eq, Option.some.injEq, forall_eq']
    rw [not_iff_not]
    constructor
    · intro heq
      exact Entry.active.inj (hdigest _ _ hleaf hleaf' heq)
    · intro heq
      rw [heq]

/-- **One key.** Filtering makes a difference to what a key shows just when its row hides an
update. -/
lemma mst_filtered_eq_iff (want : List PageDigestRange) (version now : ℕ) :
    let ad := mergingAdapter encodeStoreActor compact
    let haveRows := rowDigestsForRanges digest ad receiver want version
    (receiver.applyDeltaChunkUpdateMst ad
        (exportPageRangesDeltaFiltered digest ad sender want haveRows version) now).mst[k]? =
      (receiver.applyDeltaChunkUpdateMst ad (exportPageRangesDelta ad sender.disk want)
        now).mst[k]? ↔ (WantsKey ad want k → ¬ HidesUpdate receiver sender k) := by
  intro ad haveRows
  have hfiltered : (receiver.applyDeltaChunkUpdateMst ad (exportPageRangesDeltaFiltered digest ad
      sender want haveRows version) now).mst[k]? = shownAfter receiver.disk.values[k]? (if
        decide (ad.keyToBytes k ∈ differingRowKeys digest ad sender want haveRows version) = true ∧
          WantsKey ad want k then sender.disk.values[k]? else none) :=
    mst_applyExport hreceiver htomb htomb' _ want now
  have hplain : (receiver.applyDeltaChunkUpdateMst ad (exportPageRangesDelta ad sender.disk want)
      now).mst[k]? = shownAfter receiver.disk.values[k]? (if
        true = true ∧ WantsKey ad want k then sender.disk.values[k]? else none) :=
    mst_applyExport hreceiver htomb htomb' (fun _ => true) want now
  rw [hfiltered, hplain]
  by_cases hwant : WantsKey ad want k
  · simp only [hwant, and_true, decide_eq_true_eq, if_true, true_implies]
    cases hs : sender.disk.values[k]? with
    | none => simp [HidesUpdate, hs]
    | some s =>
      have hdiffering : ad.keyToBytes k ∈ differingRowKeys digest ad sender want haveRows version ↔
          ∀ r, receiver.disk.values[k]? = some r → r.snapshot ≠ s.snapshot :=
        mem_differing_iff hreceiver hsender htomb htomb' hdigest hwant version hs
      cases hr : receiver.disk.values[k]? with
      | none =>
        -- the receiver has nothing to compare with
        rw [if_pos (hdiffering.mpr (by simp [hr]))]
        simp [HidesUpdate, hr]
      | some r =>
        simp only [hr, Option.some.injEq, forall_eq'] at hdiffering
        by_cases hsame : r.snapshot = s.snapshot
        · rw [if_neg (fun hmem => hdiffering.mp hmem hsame)]
          have hmerge := MvReg.snapshot_merge_eq_iff hsame
          simp only [shownAfter, Option.map_some, Option.some.injEq, Entry.active.injEq]
          rw [eq_comm, hmerge]
          simp [HidesUpdate, hr, hs, hsame]
        · rw [if_pos (hdiffering.mpr hsame)]
          simp [HidesUpdate, hr, hs, hsame]
  · simp [hwant]

end OneKey

end Filtered

/-- **What filtering keeps.** Take any two stores of a run without deletes, at any two moments,
with no digest collision between their leaves for a key. A row that shows the same on both sides
merges without effect just when no value is cross-dominated, and the filtered export leads the
receiver to the tree of the unfiltered one just when no wanted row hides an update. -/
theorem filtered_export_complete_iff (encodeStoreActor : A → Bytes)
    (compact : MvReg V A → ℕ → Except String (Option (MvReg V A)))
    (digest : Entry (MvRegSnapshot V) → Bytes) :
    let ad := mergingAdapter encodeStoreActor compact
    ∀ c, Reaches (step digest ad) neverRemoves init c →
    ∀ stores ∈ c.stores, ∀ stores' ∈ c.stores, ∀ a b : A,
    let receiver := stores a
    let sender := stores' b
    (∀ (k : UuidKey) leaf leaf', receiver.mst[k]? = some leaf → sender.mst[k]? = some leaf' →
      digest leaf = digest leaf' → leaf = leaf') →
    (∀ (k : UuidKey) (r s : MvReg V A), receiver.disk.values[k]? = some r →
      sender.disk.values[k]? = some s → receiver.mst[k]? = sender.mst[k]? →
      ((r.merge s).snapshot = r.snapshot ↔ ∀ v ∈ r.readValues, ¬ r.CrossDominated s v)) ∧
    ∀ (want : List PageDigestRange) (version now : ℕ),
      let haveRows := rowDigestsForRanges digest ad receiver want version
      (receiver.applyDeltaChunkUpdateMst ad
          (exportPageRangesDeltaFiltered digest ad sender want haveRows version) now).mst =
        (receiver.applyDeltaChunkUpdateMst ad (exportPageRangesDelta ad sender.disk want) now).mst ↔
          ∀ k : UuidKey, WantsKey ad want k → ¬ HidesUpdate receiver sender k := by
  intro ad c hreach stores hstores stores' hstores' a b receiver sender hdigest
  have hreceiver : Replica ad a receiver := replica_of_reaches hreach stores hstores a
  have hsender : Replica ad b sender := replica_of_reaches hreach stores' hstores' b
  have htomb : ∀ k : UuidKey, receiver.disk.tombs[k]? = none :=
    (noTombstones_of_reaches hreach).stores stores hstores a
  have htomb' : ∀ k : UuidKey, sender.disk.tombs[k]? = none :=
    (noTombstones_of_reaches hreach).stores stores' hstores' b
  constructor
  · intro k r s hr hs hleaf
    refine MvReg.snapshot_merge_eq_iff ?_
    rw [hreceiver.inv.tracks k, hsender.inv.tracks k, entry_of_no_tomb (htomb k),
      entry_of_no_tomb (htomb' k), hr, hs] at hleaf
    exact Entry.active.inj (Option.some.inj hleaf)
  · intro want version now haveRows
    have hkey := fun k => mst_filtered_eq_iff hreceiver hsender (htomb k) (htomb' k) (hdigest k)
      want version now
    constructor
    · intro htree k
      exact (hkey k).mp (by rw [htree])
    · intro hnone
      exact BTreeMap.ext_lookup fun k => (hkey k).mpr (hnone k)

/-- A digest without collisions on small values. -/
def sampleDigest : Entry (MvRegSnapshot ℕ) → Bytes
  | .active snapshot => snapshot.vals.map (Fin.ofNat 256)
  | .deleted _ _ => []

/-- A row that was copied hides nothing. -/
theorem filtered_export_complete_iff_copied :
    let ad := sampleAdapter
    let k := sampleUuid 1
    let a := sampleUuid 2
    let b := sampleUuid 3
    let want := [everyKey]
    ∃ c, Reaches (step sampleDigest ad) neverRemoves init c ∧
      (c.store a).mst[k]? = some (.active ⟨[7]⟩) ∧
      let haveRows := rowDigestsForRanges sampleDigest ad (c.store a) want 1
      ((c.store a).applyDeltaChunkUpdateMst ad
          (exportPageRangesDeltaFiltered sampleDigest ad (c.store b) want haveRows 1) 9).mst =
        ((c.store a).applyDeltaChunkUpdateMst ad
          (exportPageRangesDelta ad (c.store b).disk want) 9).mst := by
  intro ad k a b want
  have hreach : Reaches (step sampleDigest ad) neverRemoves init _ :=
    reaches_of_runActions [.upsert a k 7, .send a want, .deliver b 0 (fun _ => true) 5] rfl
  refine ⟨_, hreach, by decide +kernel, ((filtered_export_complete_iff _ _ sampleDigest _ hreach _
    mem_cons_self _ mem_cons_self a b fun k leaf leaf' h h' _ => ?_).2 want 1 9).mpr ?_⟩
  · exact Option.some.inj (h.symm.trans h')
  rintro k' - ⟨r, s, hr, hs, -, v, hv, hbelow, -⟩
  obtain rfl := Option.some.inj (hr.symm.trans hs)
  obtain ⟨e, he, rfl⟩ := MvReg.mem_readValues.mp hv
  obtain ⟨f, hf, hlt⟩ := hbelow e he rfl
  exact r.normalized.not_lt he hf hlt

/-- Two values, each written by two chains of writers: one store has the older copy of one chain
and the newer of the other, the other store the other way round. Both show the same, the filtered
export sends nothing, and the unfiltered one makes a value disappear. -/
theorem equal_rows_still_merge :
    let ad := sampleAdapter
    let k := sampleUuid 1
    let a := sampleUuid 2
    let b := sampleUuid 3
    let want := [everyKey]
    ∃ c, Reaches (step sampleDigest ad) neverRemoves init c ∧
      (c.store a).mst[k]? = some (.active ⟨[7, 8]⟩) ∧
      (c.store b).mst[k]? = some (.active ⟨[7, 8]⟩) ∧
      let haveRows := rowDigestsForRanges sampleDigest ad (c.store a) want 1
      ((c.store a).applyDeltaChunkUpdateMst ad (exportPageRangesDeltaFiltered sampleDigest ad
          (c.store b) want haveRows 1) 9).mst[k]? = some (.active ⟨[7, 8]⟩) ∧
      ((c.store a).applyDeltaChunkUpdateMst ad
          (exportPageRangesDelta ad (c.store b).disk want) 9).mst[k]? =
        some (.active ⟨[8]⟩) := by
  intro ad k a b want
  exact exists_reaches_of_runActions [.upsert (sampleUuid 4) k 7, .send (sampleUuid 4) want,
      .deliver (sampleUuid 5) 0 (fun _ => true) 1, .upsert (sampleUuid 5) k 8,
      .send (sampleUuid 5) want,
      .upsert (sampleUuid 6) k 7, .send (sampleUuid 6) want,
      .deliver (sampleUuid 7) 2 (fun _ => true) 2, .upsert (sampleUuid 7) k 8,
      .send (sampleUuid 7) want,
      -- crosswise: the older copy of one chain and the newer of the other
      .deliver a 0 (fun _ => true) 3, .deliver a 3 (fun _ => true) 3,
      .deliver b 2 (fun _ => true) 3, .deliver b 1 (fun _ => true) 3] (by decide +kernel)

end StoreCluster

end Mantissa
