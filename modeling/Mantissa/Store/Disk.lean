import Mantissa.Store.Adapter

/-!
# The durable tables

One store owns four tables: registers, tombstones, the age index of the tombstones, and metadata
(the delete sequence and the prune frontiers). `Disk` holds their rows decoded.

Every write path of the source is made of three row changes: `writeValue` makes a key live,
`writeTombstone` makes it deleted, `purgeKey` forgets it. Each touches one key, and each keeps the
tables `Consistent`: no key is in both tables, and the age index lists exactly the tombstones.

`entry` is the tree leaf a key should have, and `buildTreeFromDiskAtVersion` builds the tree with
those leaves (`getElem?_buildTreeFromDiskAtVersion`).
-/

namespace Mantissa

open BTreeMap

/-- The tables of one store. -/
structure Disk (K R : Type*) [LinearOrder K] where
  values : BTreeMap K R
  tombs : BTreeMap K TombstoneRecord
  /-- Keyed by observation time and row key. -/
  tombsByObserved : BTreeMap (ℕ ×ₗ K) Unit
  /-- The metadata row `tomb_seq`. -/
  tombSeq : Option ℕ
  /-- The metadata rows `tomb_pruned/<actor>`. -/
  tombPruned : BTreeMap Bytes ℕ

namespace Disk

variable {K A R V S : Type*} [LinearOrder K]

/-- New tables. -/
def empty : Disk K R := ⟨∅, ∅, ∅, none, ∅⟩

/-- The age-index key of one tombstone row. -/
def observedKey (k : K) (record : TombstoneRecord) : ℕ ×ₗ K :=
  toLex (record.observedAtUnixMs, k)

variable (d : Disk K R) (k : K) (record : TombstoneRecord)

/-- Remove the age-index row of a key's tombstone, if it has one. -/
def dropObserved : Disk K R :=
  { d with tombsByObserved := match d.tombs[k]? with
      | some record => d.tombsByObserved.erase (observedKey k record)
      | none => d.tombsByObserved }

/-- Remove a key's tombstone from both tombstone tables. -/
def clearTombstone : Disk K R :=
  { d.dropObserved k with tombs := d.tombs.erase k }

/-- Insert a tombstone into both tombstone tables. -/
def insertTombstone : Disk K R :=
  { d with
    tombs := d.tombs.insert k record
    tombsByObserved := d.tombsByObserved.insert (observedKey k record) () }

/-- Remove a key's value row. -/
def removeValue : Disk K R := { d with values := d.values.erase k }

/-- Write a register; the key's tombstone becomes obsolete. -/
def writeValue (reg : R) : Disk K R :=
  { d.clearTombstone k with values := d.values.insert k reg }

/-- Write a tombstone in the place of whatever the key had. -/
def writeTombstone : Disk K R :=
  ((d.removeValue k).dropObserved k).insertTombstone k record

/-- Forget a key. -/
def purgeKey : Disk K R := (d.removeValue k).clearTombstone k

/-- `CrdtMstStore::tombstone_prune_frontier`: zero where nothing was pruned. -/
def tombstonePruneFrontier (originActor : Bytes) : ℕ :=
  d.tombPruned[originActor]?.getD 0

/-- `advance_tombstone_prune_frontier_in_meta`. -/
def advanceTombstonePruneFrontier (originActor : Bytes) (sequence : ℕ) : Disk K R :=
  if sequence = 0 then d
  else if d.tombstonePruneFrontier originActor < sequence then
    { d with tombPruned := d.tombPruned.insert originActor sequence }
  else d

variable (ad : RegAdapter K A R V S) (version : ℕ)

/-- The leaf a key's rows stand for at one root schema version. -/
def entry (d : Disk K R) (k : K) : Option (Entry S) :=
  match d.tombs[k]? with
  | some record => some (deletedEntry record)
  | none => d.values[k]?.map fun reg => .active (ad.snapshotRegAtVersion reg version)

/-- `CrdtMstStore::build_tree_from_disk_at_version`: values first, then tombstones, each in key
order. -/
def buildTreeFromDiskAtVersion (d : Disk K R) : BTreeMap K (Entry S) :=
  let actives := d.values.toList.map fun p =>
    (p.1, Entry.active (ad.snapshotRegAtVersion p.2 version))
  let tombList := d.tombs.toList.map fun p => (p.1, deletedEntry p.2)
  upsertAll (upsertAll ∅ actives) tombList

/-- A built tree has exactly the leaves of the tables. -/
theorem getElem?_buildTreeFromDiskAtVersion (d : Disk K R) (k : K) :
    (d.buildTreeFromDiskAtVersion ad version)[k]? = d.entry ad version k := by
  rw [buildTreeFromDiskAtVersion, getElem?_upsertAll_map _ d.tombs deletedEntry,
    getElem?_upsertAll_map ∅ d.values
      fun reg => Entry.active (ad.snapshotRegAtVersion reg version), entry]
  cases d.tombs[k]? with
  | some record => rfl
  | none => simp

/-- A tree equals the built one when its leaves are those of the tables. -/
lemma eq_buildTreeFromDiskAtVersion_iff {ad : RegAdapter K A R V S} {version : ℕ} {d : Disk K R}
    {tree : BTreeMap K (Entry S)} : tree = d.buildTreeFromDiskAtVersion ad version ↔
      ∀ k : K, tree[k]? = d.entry ad version k := by
  constructor
  · rintro rfl k
    exact getElem?_buildTreeFromDiskAtVersion ad version d k
  · intro h
    exact ext_lookup fun k => by rw [h k, getElem?_buildTreeFromDiskAtVersion]

/-! ## What a row change leaves behind -/

section Lookups

variable (d : Disk K R) (k a : K) (reg : R) (record : TombstoneRecord)

@[simp] lemma values_writeValue :
    (d.writeValue k reg).values[a]? = if k = a then some reg else d.values[a]? :=
  getElem?_insert_eq d.values k a reg

@[simp] lemma tombs_writeValue :
    (d.writeValue k reg).tombs[a]? = if k = a then none else d.tombs[a]? :=
  getElem?_erase_eq d.tombs k a

@[simp] lemma values_writeTombstone :
    (d.writeTombstone k record).values[a]? = if k = a then none else d.values[a]? :=
  getElem?_erase_eq d.values k a

@[simp] lemma tombs_writeTombstone :
    (d.writeTombstone k record).tombs[a]? = if k = a then some record else d.tombs[a]? :=
  getElem?_insert_eq d.tombs k a record

@[simp] lemma tombs_purgeKey : (d.purgeKey k).tombs[a]? = if k = a then none else d.tombs[a]? :=
  getElem?_erase_eq d.tombs k a

@[simp] lemma tombs_clearTombstone :
    (d.clearTombstone k).tombs[a]? = if k = a then none else d.tombs[a]? :=
  getElem?_erase_eq d.tombs k a

variable (origin : Bytes)

@[simp] lemma values_advanceTombstonePruneFrontier (n : ℕ) :
    (d.advanceTombstonePruneFrontier origin n).values = d.values := by
  simp only [advanceTombstonePruneFrontier]
  split_ifs <;> rfl

@[simp] lemma tombs_advanceTombstonePruneFrontier (n : ℕ) :
    (d.advanceTombstonePruneFrontier origin n).tombs = d.tombs := by
  simp only [advanceTombstonePruneFrontier]
  split_ifs <;> rfl

@[simp] lemma tombsByObserved_advanceTombstonePruneFrontier (n : ℕ) :
    (d.advanceTombstonePruneFrontier origin n).tombsByObserved = d.tombsByObserved := by
  simp only [advanceTombstonePruneFrontier]
  split_ifs <;> rfl

/-- Advancing raises one frontier to at least `n`. -/
lemma tombstonePruneFrontier_advance (origin other : Bytes) (n : ℕ) :
    (d.advanceTombstonePruneFrontier origin n).tombstonePruneFrontier other
      = if origin = other then max (d.tombstonePruneFrontier origin) n
        else d.tombstonePruneFrontier other := by
  simp only [advanceTombstonePruneFrontier]
  rcases eq_or_ne origin other with rfl | horigin
  · rw [if_pos rfl]
    split_ifs with hzero hlt
    · rw [hzero, Nat.max_zero]
    · simp only [tombstonePruneFrontier, getElem?_insert_same, Option.getD_some] at hlt ⊢
      omega
    · omega
  · split_ifs
    · rfl
    · simp only [tombstonePruneFrontier, getElem?_insert_ne _ _ horigin]
    · rfl

end Lookups

/-! ## Consistent tables -/

/-- No key is live and deleted at once, and the age index lists exactly the tombstones. -/
structure Consistent (d : Disk K R) : Prop where
  exclusive : ∀ k : K, d.values[k]? = none ∨ d.tombs[k]? = none
  indexed : ∀ (observed : ℕ) (k : K), d.tombsByObserved[toLex (observed, k)]? = some () ↔
    ∃ record, d.tombs[k]? = some record ∧ record.observedAtUnixMs = observed

lemma consistent_empty : (empty : Disk K R).Consistent where
  exclusive k := .inl (by simp [empty])
  indexed observed k := by simp [empty]

variable {d : Disk K R}

/-- Dropping the index row of a key leaves the index rows of the other keys. -/
lemma Consistent.tombsByObserved_dropObserved (h : d.Consistent) (k : K)
    (observed : ℕ) (a : K) : (d.dropObserved k).tombsByObserved[toLex (observed, a)]? = some () ↔
      k ≠ a ∧ d.tombsByObserved[toLex (observed, a)]? = some () := by
  unfold dropObserved
  cases hk : d.tombs[k]? with
  | none =>
    refine ⟨fun hobs => ⟨?_, hobs⟩, fun hobs => hobs.2⟩
    rintro rfl
    obtain ⟨record, hrec, -⟩ := (h.indexed observed k).mp hobs
    rw [hk] at hrec
    cases hrec
  | some record =>
    simp only [getElem?_erase_eq, observedKey, toLex_inj, Prod.mk.injEq]
    split_ifs with heq
    · simp [heq.2]
    · refine ⟨fun hobs => ⟨?_, hobs⟩, fun hobs => hobs.2⟩
      rintro rfl
      obtain ⟨record', hrec, hobs'⟩ := (h.indexed observed k).mp hobs
      rw [hk] at hrec
      cases hrec
      exact heq ⟨hobs', rfl⟩

/-- Clearing a tombstone keeps the index in step. -/
lemma Consistent.clearTombstone (h : d.Consistent) (k : K) : (d.clearTombstone k).Consistent where
  exclusive a := by
    rw [tombs_clearTombstone]
    split_ifs
    · exact .inr rfl
    · exact h.exclusive a
  indexed observed a := by
    change (d.dropObserved k).tombsByObserved[toLex (observed, a)]? = some () ↔ _
    rw [h.tombsByObserved_dropObserved, tombs_clearTombstone, h.indexed]
    split_ifs with hka <;> simp [hka]

lemma Consistent.writeValue (h : d.Consistent) (k : K) (reg : R) :
    (d.writeValue k reg).Consistent where
  exclusive a := by
    rw [values_writeValue, tombs_writeValue]
    split_ifs
    · exact .inr rfl
    · exact h.exclusive a
  indexed := (h.clearTombstone k).indexed

lemma Consistent.removeValue (h : d.Consistent) (k : K) : (d.removeValue k).Consistent where
  exclusive a := by
    change (d.values.erase k)[a]? = none ∨ d.tombs[a]? = none
    rw [getElem?_erase_eq]
    split_ifs
    · exact .inl rfl
    · exact h.exclusive a
  indexed := h.indexed

lemma Consistent.purgeKey (h : d.Consistent) (k : K) : (d.purgeKey k).Consistent :=
  (h.removeValue k).clearTombstone k

lemma Consistent.writeTombstone (h : d.Consistent) (k : K)
    (record : TombstoneRecord) : (d.writeTombstone k record).Consistent where
  exclusive a := by
    rw [values_writeTombstone, tombs_writeTombstone]
    split_ifs
    · exact .inl rfl
    · exact h.exclusive a
  indexed observed a := by
    change (((d.removeValue k).dropObserved k).tombsByObserved.insert
      (observedKey k record) ())[toLex (observed, a)]? = some () ↔ _
    rw [getElem?_insert_eq, tombs_writeTombstone]
    split_ifs with heq hka hka
    · simp only [observedKey, toLex_inj, Prod.mk.injEq] at heq
      simp [heq.1]
    · simp only [observedKey, toLex_inj, Prod.mk.injEq] at heq
      exact absurd heq.2 hka
    · subst hka
      rw [(h.removeValue k).tombsByObserved_dropObserved]
      simp only [ne_eq, not_true_eq_false, false_and, Option.some.injEq, exists_eq_left', false_iff]
      rintro rfl
      exact heq rfl
    · rw [(h.removeValue k).tombsByObserved_dropObserved, (h.removeValue k).indexed]
      exact and_iff_right hka

lemma Consistent.advanceTombstonePruneFrontier (h : d.Consistent) (origin : Bytes)
    (n : ℕ) : (d.advanceTombstonePruneFrontier origin n).Consistent where
  exclusive a := by simpa using h.exclusive a
  indexed observed a := by simpa using h.indexed observed a

/-- Where a key has no tombstone, inserting one is writing one. -/
lemma insertTombstone_removeValue {k : K} (h : d.tombs[k]? = none) (record : TombstoneRecord) :
    (d.removeValue k).insertTombstone k record = d.writeTombstone k record := by
  have hdrop : (d.removeValue k).dropObserved k = d.removeValue k := by
    have h' : (d.removeValue k).tombs[k]? = none := h
    rw [dropObserved, h']
  rw [writeTombstone, hdrop]

end Disk

end Mantissa
