import Mantissa.Store.Slot

/-!
# Deleted keys in a mixed chunk

A store that preserves its tombstones skips a received register of a deleted key, unless the same
chunk has a tombstone for that key. Then the register is written over the old tombstone, and it is
left to the chunk's own tombstones to put one back. Each of them replaces a lesser one, but those
the prune frontier covers are dropped (`DeletedAt.mergeTombs`).

So a key with rows of both kinds stays deleted, at the greatest version around, only if one of its
tombstones counts and reaches the old one. That is all that can go wrong
(`tombstones_survive_chunk_iff`), and it does: `chunk_revives_deleted_key`.
-/

namespace Mantissa

open CrdtMstStore List

variable {K A R V S : Type*} [LinearOrder K]

/-- The versions of the received tombstones that the prune frontier does not cover. -/
def countedVersions (d : Disk K R) (received : List TombstoneRecord) : Set (ℕ ×ₗ Bytes) :=
  {version | ∃ record ∈ received, ¬ IsPruned d record ∧ record.version = version}

/-- The key is deleted, and its tombstone has the greatest of some versions. -/
def Slot.DeletedAt (slot : Slot R) (versions : Set (ℕ ×ₗ Bytes)) : Prop :=
  slot.value = none ∧ ∃ record, slot.tomb = some record ∧ IsGreatest versions record.version

section Received

variable {d : Disk K R} {slot : Slot R} {versions : Set (ℕ ×ₗ Bytes)} {record : TombstoneRecord}

lemma countedVersions_cons_of_isPruned (h : IsPruned d record) (received : List TombstoneRecord) :
    countedVersions d (record :: received) = countedVersions d received := by
  simp [countedVersions, h]

lemma countedVersions_cons (h : ¬ IsPruned d record) (received : List TombstoneRecord) :
    countedVersions d (record :: received) =
      insert record.version (countedVersions d received) := by
  ext version
  simp [countedVersions, h, eq_comm]

/-- One more tombstone that counts. -/
lemma Slot.DeletedAt.mergeTomb (h : slot.DeletedAt versions)
    (hrecord : ¬ IsPruned d record) (now : ℕ) :
    (slot.mergeTomb d.tombstonePruneFrontier now record).DeletedAt
      (insert record.version versions) := by
  obtain ⟨-, current, htomb, hgreatest⟩ := h
  rw [mergeTomb_of_not_isPruned hrecord, htomb]
  refine ⟨rfl, _, rfl, ?_⟩
  rw [version_mergeTombstoneRecords, version_normalizeIncomingTombstone, max_comm]
  exact hgreatest.insert record.version

/-- **Tombstones of a deleted key**: the greatest stays. -/
lemma Slot.DeletedAt.mergeTombs (now : ℕ) (received : List TombstoneRecord) :
    ∀ {slot : Slot R} {versions : Set (ℕ ×ₗ Bytes)}, slot.DeletedAt versions →
      (received.foldl (Slot.mergeTomb d.tombstonePruneFrontier now) slot).DeletedAt
        (versions ∪ countedVersions d received) := by
  induction received with
  | nil => simp [countedVersions]
  | cons record received ih =>
    intro slot versions h
    by_cases hpruned : IsPruned d record
    · rw [foldl_cons, mergeTomb_of_isPruned hpruned, countedVersions_cons_of_isPruned hpruned]
      exact ih h
    · rw [foldl_cons, countedVersions_cons hpruned, Set.union_insert, ← Set.insert_union]
      exact ih (h.mergeTomb hpruned now)

/-- Tombstones of a key that has none: nothing happens, or the greatest that counts stays. -/
lemma mergeTombs_of_tomb_eq_none (htomb : slot.tomb = none) (now : ℕ)
    (received : List TombstoneRecord) : (countedVersions d received = ∅ ∧
      received.foldl (Slot.mergeTomb d.tombstonePruneFrontier now) slot = slot) ∨
    (received.foldl (Slot.mergeTomb d.tombstonePruneFrontier now) slot).DeletedAt
      (countedVersions d received) := by
  induction received with
  | nil => simp [countedVersions]
  | cons record received ih =>
    by_cases hpruned : IsPruned d record
    · rw [foldl_cons, mergeTomb_of_isPruned hpruned, countedVersions_cons_of_isPruned hpruned]
      exact ih
    · have hfirst : (slot.mergeTomb d.tombstonePruneFrontier now record).DeletedAt
          {record.version} := by
        rw [mergeTomb_of_not_isPruned hpruned, htomb]
        refine ⟨rfl, _, rfl, ?_⟩
        simp [mergeTombstoneRecords]
      rw [foldl_cons, countedVersions_cons hpruned, Set.insert_eq]
      exact .inr (hfirst.mergeTombs now received)

/-- Registers of a key whose tombstone is not kept. -/
lemma tomb_mergeRegs_eq_none (ad : RegAdapter K A R V S) {regs : List R} (hregs : regs ≠ [])
    (slot : Slot R) : (regs.foldl (Slot.mergeReg ad false) slot).tomb = none := by
  induction regs generalizing slot with
  | nil => exact absurd rfl hregs
  | cons reg regs ih =>
    cases regs with
    | nil => simp [Slot.mergeReg]
    | cons next regs => exact ih (cons_ne_nil _ _) _

/-- Registers of a key whose tombstone is kept. -/
lemma mergeRegs_of_kept (ad : RegAdapter K A R V S) (hslot : slot.tomb.isSome = true)
    (regs : List R) : regs.foldl (Slot.mergeReg ad true) slot = slot := by
  induction regs with
  | nil => rfl
  | cons reg regs ih => simpa [Slot.mergeReg, hslot] using ih

end Received

namespace CrdtMstStore

/-- What becomes of one deleted key. -/
lemma deletedAt_mergeChunk_iff (ad : RegAdapter K A R V S) (d : Disk K R) (old : TombstoneRecord)
    (chunk : DeltaChunk K R) (now : ℕ) (k : K) :
    (mergeChunk ad true d.tombstonePruneFrontier k ⟨none, some old⟩ (chunk, now)).DeletedAt
        (insert old.version (countedVersions d (rowsAt k chunk.tombs))) ↔
      (k ∈ chunk.regs.map Prod.fst → k ∈ chunk.tombs.map Prod.fst →
        ∃ version ∈ countedVersions d (rowsAt k chunk.tombs), old.version ≤ version) := by
  have hold : Slot.DeletedAt (⟨none, some old⟩ : Slot R) {old.version} :=
    ⟨rfl, old, rfl, isGreatest_singleton⟩
  rw [mergeChunk, Set.insert_eq]
  by_cases hreg : k ∈ chunk.regs.map Prod.fst
  · by_cases htomb : k ∈ chunk.tombs.map Prod.fst
    · -- The register clears the old tombstone, and the received ones start from nothing.
      have hne : rowsAt k chunk.regs ≠ [] := fun h => rowsAt_eq_nil.mp h hreg
      simp only [hreg, htomb, forall_true_left, not_true_eq_false, and_false, decide_false]
      have hcleared := tomb_mergeRegs_eq_none ad hne (⟨none, some old⟩ : Slot R)
      rcases mergeTombs_of_tomb_eq_none (d := d) hcleared now (rowsAt k chunk.tombs) with
        ⟨hempty, heq⟩ | ⟨hvalue, record, hrecord, hgreatest⟩
      · rw [heq, hempty]
        simp [Slot.DeletedAt, hcleared]
      · constructor
        · rintro ⟨-, record', hrecord', hgreatest'⟩
          obtain rfl := Option.some.inj (hrecord.symm.trans hrecord')
          exact ⟨record.version, hgreatest.1, hgreatest'.2 (Set.mem_union_left _ rfl)⟩
        · rintro ⟨version, hversion, hle⟩
          refine ⟨hvalue, record, hrecord, Set.mem_union_right _ hgreatest.1, ?_⟩
          rintro other (rfl | hother)
          · exact hle.trans (hgreatest.2 hversion)
          · exact hgreatest.2 hother
    · -- Nothing but registers, which are skipped.
      have hnil : rowsAt k chunk.tombs = [] := rowsAt_eq_nil.mpr htomb
      simp only [htomb, not_false_eq_true, and_true, decide_true, hnil]
      rw [mergeRegs_of_kept ad rfl]
      simpa using hold.mergeTombs (d := d) now []
  · have hnil : rowsAt k chunk.regs = [] := rowsAt_eq_nil.mpr hreg
    simp only [hreg, hnil, foldl_nil, false_implies, iff_true]
    exact hold.mergeTombs now (rowsAt k chunk.tombs)

/-- A deleted key for which the chunk has rows of both kinds has a tombstone there that counts and
reaches the stored one. -/
def CarriesDeletes (d : Disk K R) (chunk : DeltaChunk K R) : Prop :=
  ∀ (k : K) (old : TombstoneRecord), d.tombs[k]? = some old → k ∈ chunk.regs.map Prod.fst →
    k ∈ chunk.tombs.map Prod.fst →
      ∃ record, (k, record) ∈ chunk.tombs ∧ ¬ IsPruned d record ∧ old.version ≤ record.version

variable [DecidableEq R] in
/-- **Which chunks leave deleted keys deleted.** On a store that preserves its tombstones, every
key that had one has one afterwards, of the greatest version of the old one and of those received
that the prune frontier does not cover, and no value row: exactly if the chunk carries the deletes
it clears. -/
theorem tombstones_survive_chunk_iff (ad : RegAdapter K A R V S) (s : CrdtMstStore K A R S)
    (hmode : s.preserveLocalTombs = true) (hc : s.disk.Consistent) (chunk : DeltaChunk K R)
    (now : ℕ) :
    (∀ (k : K) (old : TombstoneRecord), s.disk.tombs[k]? = some old →
      ∃ new, (s.applyDeltaChunkUpdateMst ad chunk now).disk.tombs[k]? = some new ∧
        IsGreatest (insert old.version {version | ∃ record, (k, record) ∈ chunk.tombs ∧
          ¬ IsPruned s.disk record ∧ record.version = version}) new.version ∧
        (s.applyDeltaChunkUpdateMst ad chunk now).disk.values[k]? = none) ↔
      CarriesDeletes s.disk chunk := by
  refine forall_congr' fun k => forall_congr' fun old => forall_congr' fun hold => ?_
  have hvalue : s.disk.values[k]? = none :=
    (hc.exclusive k).resolve_right fun h => by simp [h] at hold
  have hslot : s.disk.slot k = ⟨none, some old⟩ := Slot.ext hvalue hold
  have hafter := slot_applyDeltaChunkUpdateMst ad s (chunk, now) k
  rw [hslot, hmode] at hafter
  have hiff := deletedAt_mergeChunk_iff ad s.disk old chunk now k
  rw [← hafter] at hiff
  simp only [Slot.DeletedAt, Disk.slot, countedVersions, mem_rowsAt, Set.mem_ofPred_eq] at hiff
  constructor
  · rintro ⟨new, hnew, hgreatest, hgone⟩ hreg htomb
    obtain ⟨_, ⟨record, hrecord, hcounts, rfl⟩, hle⟩ :=
      hiff.mp ⟨hgone, new, hnew, hgreatest⟩ hreg htomb
    exact ⟨record, hrecord, hcounts, hle⟩
  · intro hcarries
    obtain ⟨hgone, new, hnew, hgreatest⟩ := hiff.mpr fun hreg htomb => by
      obtain ⟨record, hrecord, hcounts, hle⟩ := hcarries hreg htomb
      exact ⟨record.version, ⟨record, hrecord, hcounts, rfl⟩, hle⟩
    exact ⟨new, hnew, hgreatest, hgone⟩

/-! ## A deleted key comes back -/

/-- A store that preserves tombstones. It was opened empty, heard that the tombstones of actor 2
were pruned up to 4, and then wrote and removed key 1. -/
def deletedSample : CrdtMstStore UuidKey UuidKey (MvReg ℕ UuidKey) (MvRegSnapshot ℕ) :=
  applyOps sampleAdapter (rebuildMstFromDiskAtVersion sampleAdapter
    (afterHistory sampleAdapter (sampleUuid 5) true []) 1)
    [.applyTombstonePruneFrontiers [((sampleUuid 2).val, 4)],
      .updateValue (sampleUuid 1) (fun _ => some 7), .remove (sampleUuid 1) 20]

/-- A register of key 1 and a tombstone. -/
def mixedChunk (sequence : ℕ) (origin : Byte) : DeltaChunk UuidKey (MvReg ℕ UuidKey) :=
  ⟨[(sampleUuid 1, MvReg.new.write (sampleUuid 2) 7)],
    [(sampleUuid 1, ⟨sequence, (sampleUuid origin).val, 0⟩)]⟩

lemma tombs_deletedSample :
    deletedSample.disk.tombs[sampleUuid 1]? = some ⟨1, (sampleUuid 5).val, 20⟩ := by
  decide +kernel

/-- With a tombstone above the frontier the key stays deleted. -/
theorem tombstones_survive_chunk_sample :
    ∃ new, (deletedSample.applyDeltaChunkUpdateMst sampleAdapter (mixedChunk 5 2) 30).disk.tombs[
        sampleUuid 1]? = some new ∧ toLex (5, (sampleUuid 2).val) ≤ new.version ∧
      (deletedSample.applyDeltaChunkUpdateMst sampleAdapter (mixedChunk 5 2) 30).disk.values[
        sampleUuid 1]? = none := by
  have hreceived : (sampleUuid 1, ⟨5, (sampleUuid 2).val, 0⟩) ∈ (mixedChunk 5 2).tombs :=
    mem_singleton_self _
  have hcounts : ¬ IsPruned deletedSample.disk ⟨5, (sampleUuid 2).val, 0⟩ := by decide +kernel
  have hcarries : CarriesDeletes deletedSample.disk (mixedChunk 5 2) := by
    intro k old hold hreg _
    obtain rfl : k = sampleUuid 1 := by simpa [mixedChunk] using hreg
    obtain rfl := Option.some.inj (hold.symm.trans tombs_deletedSample)
    exact ⟨_, hreceived, hcounts, by decide⟩
  have hc : deletedSample.disk.Consistent :=
    consistent_applyOps sampleAdapter
      (consistent_afterHistory sampleAdapter (sampleUuid 5) true []) _
  obtain ⟨new, hnew, hgreatest, hgone⟩ := (tombstones_survive_chunk_iff sampleAdapter deletedSample
    (by decide +kernel) hc (mixedChunk 5 2) 30).mpr hcarries _ _ tombs_deletedSample
  exact ⟨new, hnew, hgreatest.2 (Set.mem_insert_of_mem _ ⟨_, hreceived, hcounts, rfl⟩), hgone⟩

/-- **A deleted key comes back.** The tombstone 4 of actor 2 is at the frontier, so the register
clears the local tombstone and nothing replaces it. The tombstone 1 of actor 3 does replace it,
though the local one is greater. -/
theorem chunk_revives_deleted_key :
    (deletedSample.applyDeltaChunkUpdateMst sampleAdapter (mixedChunk 4 2) 30).disk.tombs[
      sampleUuid 1]? = none ∧
    ((deletedSample.applyDeltaChunkUpdateMst sampleAdapter (mixedChunk 4 2) 30).disk.values[
      sampleUuid 1]?).isSome = true ∧
    (deletedSample.applyDeltaChunkUpdateMst sampleAdapter (mixedChunk 1 3) 30).disk.tombs[
      sampleUuid 1]? = some ⟨1, (sampleUuid 3).val, 30⟩ ∧
    deletedSample.disk.tombs[sampleUuid 1]? = some ⟨1, (sampleUuid 5).val, 20⟩ := by
  decide +kernel

end CrdtMstStore

end Mantissa
