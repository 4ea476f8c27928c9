import Mantissa.Store.Export
import Mantissa.Store.OrderIndependence

/-!
# Mutual pulls

Two stores that do not preserve local tombstones send each other everything they have, both exports
taken before either is applied. Key by key there are nine cases: each side has a register, a
tombstone or nothing.

Registers on both sides meet in `MvReg.merge`, which is commutative on what it shows. Tombstones on
both sides meet in the greater version, unless one of them is at or below the other side's prune
frontier and refused there. A register on one side and a tombstone on the other do not meet at all:
the tombstone overwrites the register where it arrives and the register clears the tombstone where
*it* arrives, so the two sides swap (`pulled_register_and_tombstone_swap`).

`Agreeable` leaves that case out and asks that no delete is refused; under it the two sides end with
the same leaf (`mutual_pull_converges`).
-/

namespace Mantissa

open Slot List

variable {K A R V S : Type*} [LinearOrder K] {ad : RegAdapter K A R V S}

/-- What a key has after a pull by a store that does not preserve its tombstones. -/
def Slot.pull (ad : RegAdapter K A R V S) (frontier : Bytes → ℕ) (now : ℕ)
    (slot other : Slot R) : Slot R :=
  other.tomb.toList.foldl (Slot.mergeTomb frontier now)
    (other.value.toList.foldl (Slot.mergeReg ad false) slot)

/-- The version of the delete a slot holds; none is below all. -/
def Slot.deleteVersion (slot : Slot R) : WithBot (ℕ ×ₗ Bytes) :=
  match slot.tomb with
  | some record => (record.version : WithBot (ℕ ×ₗ Bytes))
  | none => ⊥

namespace CrdtMstStore

/-- A request that leaves no row of the tables out. -/
def CoversRows (ad : RegAdapter K A R V S) (d : Disk K R) (want : List PageDigestRange) : Prop :=
  ∀ k : K, d.values[k]? ≠ none ∨ d.tombs[k]? ≠ none → WantsKey ad want k

variable {d : Disk K R} {want : List PageDigestRange}

/-- A full export has the rows of each key. -/
lemma rowsAt_exportPageRangesDelta (h : CoversRows ad d want) (k : K) :
    rowsAt k (exportPageRangesDelta ad d want).regs = (d.slot k).value.toList ∧
      rowsAt k (exportPageRangesDelta ad d want).tombs = (d.slot k).tomb.toList := by
  simp only [exportPageRangesDelta, rowsAt_exportRows, true_and]
  by_cases hwant : WantsKey ad want k
  · rw [if_pos hwant, if_pos hwant]
    exact ⟨rfl, rfl⟩
  · have hvalue : d.values[k]? = none := not_not.mp fun hne => hwant (h k (.inl hne))
    have htomb : d.tombs[k]? = none := not_not.mp fun hne => hwant (h k (.inr hne))
    simp [hwant, Disk.slot, hvalue, htomb]

/-- The leaf of a key after a store has pulled another one's full export. -/
lemma mst_pull [DecidableEq R] {s : CrdtMstStore K A R S}
    (hmode : s.preserveLocalTombs = false) (hc : s.disk.Consistent)
    (htree : s.mst = s.disk.buildTreeFromDiskAtVersion ad s.rootSchemaVersion ∨
      s.mst.isEmpty = true) (hwant : CoversRows ad d want) (now : ℕ)
    (k : K) : (s.applyDeltaChunkUpdateMst ad (exportPageRangesDelta ad d want) now).mst[k]? =
      (pull ad s.disk.tombstonePruneFrontier now (s.disk.slot k) (d.slot k)).entry ad
        s.rootSchemaVersion := by
  have hready : TreeReady ad s [(exportPageRangesDelta ad d want, now)] :=
    htree.imp_right fun hempty => ⟨hempty, by simp⟩
  obtain ⟨hregs, htombs⟩ := rowsAt_exportPageRangesDelta hwant k
  have hleaf := mst_applyChunks hc hready k
  simp only [applyChunks, foldl_cons, foldl_nil, mergeChunk, hregs, htombs, hmode] at hleaf
  simpa [pull] using hleaf

/-! ## Deletes -/

/-- A delete that the store takes, or that tells it nothing new. -/
def TakesDelete (d : Disk K R) (slot : Slot R) (record : TombstoneRecord) : Prop :=
  ¬ IsPruned d record ∨ (record.version : WithBot (ℕ ×ₗ Bytes)) ≤ slot.deleteVersion

/-- Without registers, a pull leaves the greater delete. -/
lemma pull_of_no_value (ad : RegAdapter K A R V S) (slot other : Slot R)
    (hslot : slot.value = none) (hother : other.value = none)
    (htakes : ∀ record, other.tomb = some record → TakesDelete d slot record) (now : ℕ) :
    (pull ad d.tombstonePruneFrontier now slot other).value = none ∧
      (pull ad d.tombstonePruneFrontier now slot other).deleteVersion =
        slot.deleteVersion ⊔ other.deleteVersion := by
  obtain ⟨value, tomb⟩ := slot
  obtain ⟨value', tomb'⟩ := other
  obtain rfl : value = none := hslot
  obtain rfl : value' = none := hother
  cases tomb' with
  | none => exact ⟨rfl, (sup_bot_eq _).symm⟩
  | some record =>
    simp only [pull, Option.toList, foldl_nil, foldl_cons]
    by_cases hpruned : IsPruned d record
    · -- refused, but then it is no news
      rw [mergeTomb_of_isPruned hpruned]
      have hle := (htakes record rfl).resolve_left (not_not.mpr hpruned)
      exact ⟨rfl, (sup_eq_left.mpr hle).symm⟩
    · rw [mergeTomb_of_not_isPruned hpruned]
      refine ⟨rfl, ?_⟩
      cases tomb with
      | none => simp [deleteVersion, mergeTombstoneRecords]
      | some own =>
        simp only [deleteVersion, version_mergeTombstoneRecords, version_normalizeIncomingTombstone]
        rfl

/-- A slot without a register shows its delete. -/
lemma entry_eq_of_deleteVersion {slot slot' : Slot R} {version version' : ℕ}
    (hslot : slot.value = none) (hslot' : slot'.value = none)
    (hversion : slot.deleteVersion = slot'.deleteVersion) :
    slot.entry ad version = slot'.entry ad version' := by
  obtain ⟨value, tomb⟩ := slot
  obtain ⟨value', tomb'⟩ := slot'
  obtain rfl : value = none := hslot
  obtain rfl : value' = none := hslot'
  cases tomb with
  | none =>
    cases tomb' with
    | none => rfl
    | some record => simp [deleteVersion] at hversion
  | some record =>
    cases tomb' with
    | none => simp [deleteVersion] at hversion
    | some record' =>
      simp only [deleteVersion, WithBot.coe_inj] at hversion
      simp only [entry, Option.some.injEq]
      exact deletedEntry_eq_iff.mpr hversion

/-! ## Two stores -/

/-- The key is not live on one side and deleted on the other, and neither side refuses news of a
delete from the other. -/
structure Agreeable (d d' : Disk K R) (k : K) : Prop where
  uncontested : ¬ (d.values[k]? ≠ none ∧ d'.tombs[k]? ≠ none)
  uncontested' : ¬ (d'.values[k]? ≠ none ∧ d.tombs[k]? ≠ none)
  takes : ∀ record, d'.tombs[k]? = some record → TakesDelete d (d.slot k) record
  takes' : ∀ record, d.tombs[k]? = some record → TakesDelete d' (d'.slot k) record

/-- **Mutual pull.** Two stores that do not preserve their tombstones apply each other's full
export, both taken beforehand. Every key that is `Agreeable` ends with one leaf on both sides, so
stores that are agreeable on all keys end with one tree. -/
theorem mutual_pull_converges {V A : Type*} [LinearOrder V] [LinearOrder A]
    (encodeStoreActor : A → Bytes)
    (compact : MvReg V A → ℕ → Except String (Option (MvReg V A)))
    (a b : CrdtMstStore UuidKey A (MvReg V A) (MvRegSnapshot V))
    (hmode : a.preserveLocalTombs = false ∧ b.preserveLocalTombs = false)
    (hconsistent : a.disk.Consistent ∧ b.disk.Consistent) :
    let ad := mergingAdapter encodeStoreActor compact
    (a.mst = a.disk.buildTreeFromDiskAtVersion ad a.rootSchemaVersion ∨ a.mst.isEmpty = true) →
    (b.mst = b.disk.buildTreeFromDiskAtVersion ad b.rootSchemaVersion ∨ b.mst.isEmpty = true) →
    (∀ (k : UuidKey), ∀ reg ∈ a.disk.values[k]?, ∀ reg' ∈ b.disk.values[k]?,
      Set.InjOn MvRegEntry.clock (reg.entrySet ∪ reg'.entrySet)) →
    ∀ want want' : List PageDigestRange, CoversRows ad b.disk want → CoversRows ad a.disk want' →
    ∀ now now' : ℕ,
    let pulledA := a.applyDeltaChunkUpdateMst ad (exportPageRangesDelta ad b.disk want) now
    let pulledB := b.applyDeltaChunkUpdateMst ad (exportPageRangesDelta ad a.disk want') now'
    (∀ k : UuidKey, Agreeable a.disk b.disk k → pulledA.mst[k]? = pulledB.mst[k]?) ∧
      ((∀ k : UuidKey, Agreeable a.disk b.disk k) → pulledA.mst = pulledB.mst) := by
  intro ad htreeA htreeB hclocks want want' hwant hwant' now now' pulledA pulledB
  have hkey : ∀ k : UuidKey, Agreeable a.disk b.disk k → pulledA.mst[k]? = pulledB.mst[k]? := by
    intro k hagree
    rw [mst_pull hmode.1 hconsistent.1 htreeA hwant now k,
      mst_pull hmode.2 hconsistent.2 htreeB hwant' now' k]
    by_cases hlive : a.disk.values[k]? = none ∧ b.disk.values[k]? = none
    · -- no register on either side: the greater delete on both
      obtain ⟨hvalue, hversion⟩ := pull_of_no_value ad (a.disk.slot k) (b.disk.slot k)
        hlive.1 hlive.2 hagree.takes now
      obtain ⟨hvalue', hversion'⟩ := pull_of_no_value ad (b.disk.slot k) (a.disk.slot k)
        hlive.2 hlive.1 hagree.takes' now'
      refine entry_eq_of_deleteVersion hvalue hvalue' ?_
      rw [hversion, hversion', sup_comm]
    · -- a register on some side: no tombstone on either
      have htombs : a.disk.tombs[k]? = none ∧ b.disk.tombs[k]? = none := by
        rcases not_and_or.mp hlive with hne | hne
        · exact ⟨(hconsistent.1.exclusive k).resolve_left hne,
            not_not.mp fun h => hagree.uncontested ⟨hne, h⟩⟩
        · exact ⟨not_not.mp fun h => hagree.uncontested' ⟨hne, h⟩,
            (hconsistent.2.exclusive k).resolve_left hne⟩
      simp only [Disk.slot, htombs.1, htombs.2]
      cases hvalue : a.disk.values[k]? with
      | none => cases b.disk.values[k]? <;> rfl
      | some reg =>
        cases hvalue' : b.disk.values[k]? with
        | none => rfl
        | some reg' =>
          have hcomm := MvReg.entrySet_merge_comm (hclocks k reg hvalue reg' hvalue')
          have hsnapshot := MvReg.snapshot_eq_of_entrySet_eq hcomm
          exact congrArg (fun snapshot => some (Entry.active snapshot)) hsnapshot
  exact ⟨hkey, fun hall => BTreeMap.ext_lookup fun k => hkey k (hall k)⟩

/-- Both sides have written a key: both end with both values. -/
theorem mutual_pull_converges_concurrent :
    let ad := sampleAdapter
    let k := sampleUuid 1
    let a := (build Disk.empty (sampleUuid 5) false).upsert ad k 7
    let b := (build Disk.empty (sampleUuid 6) false).upsert ad k 8
    let pulledA := a.applyDeltaChunkUpdateMst ad (exportPageRangesDelta ad b.disk [everyKey]) 20
    let pulledB := b.applyDeltaChunkUpdateMst ad (exportPageRangesDelta ad a.disk [everyKey]) 20
    pulledA.mst = pulledB.mst ∧ pulledA.mst[k]? = some (.active ⟨[7, 8]⟩) := by
  intro ad k a b pulledA pulledB
  -- Both stores have one register and no tombstone.
  have hrow : ∀ {k' : UuidKey} {reg reg' : MvReg ℕ UuidKey},
      ((∅ : BTreeMap _ _).insert k reg)[k']? = some reg' → k = k' ∧ reg = reg' := by
    intro k' reg reg' h
    simpa [BTreeMap.getElem?_insert_eq] using h
  have hcovers : ∀ (s : CrdtMstStore UuidKey UuidKey (MvReg ℕ UuidKey) (MvRegSnapshot ℕ)) reg,
      s.disk.values = (∅ : BTreeMap _ _).insert k reg → s.disk.tombs = ∅ →
      CoversRows ad s.disk [everyKey] := by
    rintro s reg hvalues htombs k' (hvalue | htomb)
    · obtain ⟨reg', hreg⟩ := Option.ne_none_iff_exists'.mp hvalue
      obtain ⟨rfl, -⟩ := hrow (hvalues.symm ▸ hreg)
      decide +kernel
    · exact absurd (by simp [htombs]) htomb
  have hclocks : let entries := (MvReg.new.write (sampleUuid 5) 7).entries ++
      (MvReg.new.write (sampleUuid 6) 8).entries
      ∀ e ∈ entries, ∀ f ∈ entries, e.clock = f.clock → e = f := by decide +kernel
  have ha : RepInv ad a := (repInv_build_empty _ false).updateValue k _
  have hb : RepInv ad b := (repInv_build_empty _ false).updateValue k _
  refine ⟨(mutual_pull_converges _ _ a b ⟨rfl, rfl⟩ ⟨ha.consistent, hb.consistent⟩ (.inl ha.mst_eq)
    (.inl hb.mst_eq) ?_ [everyKey] [everyKey] (hcovers b _ rfl rfl) (hcovers a _ rfl rfl) 20 20).2
    fun k' => ⟨fun h => h.2 rfl, fun h => h.2 rfl, nofun, nofun⟩, by decide +kernel⟩
  intro k' reg hreg reg' hreg' e he f hf
  obtain ⟨-, rfl⟩ := hrow hreg
  obtain ⟨-, rfl⟩ := hrow hreg'
  exact hclocks e (mem_append.mpr he) f (mem_append.mpr hf)

/-- One side has written a key, the other has deleted it: after the mutual pull it is the other way
round. -/
theorem pulled_register_and_tombstone_swap :
    let k := sampleUuid 1
    let a := (build Disk.empty (sampleUuid 5) false).upsert sampleAdapter k 7
    let b := ((build Disk.empty (sampleUuid 6) false).remove sampleAdapter k 10).1
    let pulledA := a.applyDeltaChunkUpdateMst sampleAdapter
      (exportPageRangesDelta sampleAdapter b.disk [everyKey]) 20
    let pulledB := b.applyDeltaChunkUpdateMst sampleAdapter
      (exportPageRangesDelta sampleAdapter a.disk [everyKey]) 20
    a.mst[k]? = some (.active ⟨[7]⟩) ∧ b.mst[k]? = some (.deleted 1 (sampleUuid 6).val) ∧
      pulledA.mst[k]? = some (.deleted 1 (sampleUuid 6).val) ∧
      pulledB.mst[k]? = some (.active ⟨[7]⟩) := by
  decide +kernel

end CrdtMstStore

end Mantissa
