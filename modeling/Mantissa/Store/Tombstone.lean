import Mantissa.Core.BigEndian

/-!
# Tombstones

A deleted key is represented by a `TombstoneRecord`: the origin's delete sequence, the origin
actor, and when this node observed it. Which of two records for a key wins depends on the first
two only, and `dominates` is the strict order on that pair (`dominates_iff`); so the record kept
after a series of deletes is one with the greatest `version`, and the tree leaf made from it does
not depend on when it was observed (`deletedEntry_eq_iff`).

The second half is the two byte keys tombstones are filed under. The age index prefixes the row
key with the big-endian observation time, so that a scan of the table is in order of time
(`tombstoneObservedIndexKey_lt_iff`); prune frontiers are filed under the origin actor in hex
(`tombstonePruneFrontierOriginActor_key`). The store model files both under the decoded pair and
actor, which these lemmas justify.
-/

namespace Mantissa

open List

/-- `TombstoneRecord`. -/
structure TombstoneRecord where
  sequence : ℕ
  originActor : Bytes
  observedAtUnixMs : ℕ
  deriving DecidableEq

namespace TombstoneRecord

/-- What decides between two records of a key: sequence first, then the origin's bytes. -/
def version (r : TombstoneRecord) : ℕ ×ₗ Bytes := toLex (r.sequence, r.originActor)

/-- `TombstoneRecord::dominates`. -/
def dominates (r other : TombstoneRecord) : Bool :=
  decide (other.sequence < r.sequence) ||
    (decide (r.sequence = other.sequence) && decide (other.originActor < r.originActor))

lemma dominates_iff {r other : TombstoneRecord} :
    r.dominates other = true ↔ other.version < r.version := by
  simp only [dominates, version, Prod.Lex.toLex_lt_toLex, Bool.or_eq_true, Bool.and_eq_true,
    decide_eq_true_eq]
  rw [eq_comm (a := r.sequence)]

end TombstoneRecord

variable (record : TombstoneRecord)

/-- `CrdtMstStore::normalize_incoming_tombstone`: records from the wire carry no observation
time. -/
def normalizeIncomingTombstone (observedAtUnixMs : ℕ) : TombstoneRecord :=
  if record.observedAtUnixMs = 0 then { record with observedAtUnixMs := observedAtUnixMs }
  else record

@[simp] lemma sequence_normalizeIncomingTombstone (now : ℕ) :
    (normalizeIncomingTombstone record now).sequence = record.sequence := by
  simp only [normalizeIncomingTombstone]
  split_ifs <;> rfl

@[simp] lemma originActor_normalizeIncomingTombstone (now : ℕ) :
    (normalizeIncomingTombstone record now).originActor = record.originActor := by
  simp only [normalizeIncomingTombstone]
  split_ifs <;> rfl

@[simp] lemma version_normalizeIncomingTombstone (now : ℕ) :
    (normalizeIncomingTombstone record now).version = record.version := by
  simp [TombstoneRecord.version]

variable (current : Option TombstoneRecord)

/-- `CrdtMstStore::merge_tombstone_records`: the current record stays unless the incoming one
dominates it. -/
def mergeTombstoneRecords (incoming : TombstoneRecord) : TombstoneRecord :=
  match current with
  | some current => if incoming.dominates current then incoming else current
  | none => incoming

/-- The kept record has the greater of the two versions. -/
lemma version_mergeTombstoneRecords (current incoming : TombstoneRecord) :
    (mergeTombstoneRecords (some current) incoming).version =
      max current.version incoming.version := by
  simp only [mergeTombstoneRecords, TombstoneRecord.dominates_iff]
  split_ifs with h
  · exact (max_eq_right h.le).symm
  · exact (max_eq_left (not_lt.mp h)).symm

/-! ## Tree leaves -/

/-- `Entry`: what a leaf of the search tree carries. -/
inductive Entry (S : Type*)
  | active (snapshot : S)
  | deleted (ts : ℕ) (originActor : Bytes)
  deriving DecidableEq

/-- `CrdtMstStore::deleted_entry`. -/
def deletedEntry {S : Type*} (record : TombstoneRecord) : Entry S :=
  .deleted record.sequence record.originActor

lemma deletedEntry_eq_iff {S : Type*} {r r' : TombstoneRecord} :
    (deletedEntry r : Entry S) = deletedEntry r' ↔ r.version = r'.version := by
  simp [deletedEntry, TombstoneRecord.version]

/-! ## The age index -/

/-- `tombstone_observed_index_key`. -/
def tombstoneObservedIndexKey (keyBytes : Bytes) (record : TombstoneRecord) : Bytes :=
  toBigEndian 8 record.observedAtUnixMs ++ keyBytes

/-- `tombstone_observed_index_parts`. -/
def tombstoneObservedIndexParts (indexKey : Bytes) : Except String (ℕ × Bytes) :=
  let length := indexKey.length
  if length < 8 then .error s!"tombstone observed index key is too short: {length} bytes"
  else .ok (ofBigEndian (indexKey.take 8), indexKey.drop 8)

/-- An index key gives back the time and the row key it was made from. -/
theorem tombstoneObservedIndexParts_key (keyBytes : Bytes) {record : TombstoneRecord}
    (h : record.observedAtUnixMs ≤ u64Max) :
    tombstoneObservedIndexParts (tombstoneObservedIndexKey keyBytes record)
      = .ok (record.observedAtUnixMs, keyBytes) := by
  have hlt : record.observedAtUnixMs < 256 ^ 8 := h.trans_lt (by decide)
  have htime := length_toBigEndian 8 record.observedAtUnixMs
  have hlen : ¬ (toBigEndian 8 record.observedAtUnixMs ++ keyBytes).length < 8 := by simp
  simp only [tombstoneObservedIndexParts, tombstoneObservedIndexKey, if_neg hlen, take_left' htime,
    drop_left' htime, ofBigEndian_toBigEndian hlt]

theorem observedIndexParts_key_five :
    tombstoneObservedIndexParts (tombstoneObservedIndexKey [9] ⟨1, [], 5⟩) = .ok (5, [9]) :=
  tombstoneObservedIndexParts_key [9] (by decide)

/-- The age index sorts by observation time first and by row key second. -/
theorem tombstoneObservedIndexKey_lt_iff {keyBytes keyBytes' : Bytes}
    {record record' : TombstoneRecord} (h : record.observedAtUnixMs ≤ u64Max)
    (h' : record'.observedAtUnixMs ≤ u64Max) :
    tombstoneObservedIndexKey keyBytes record < tombstoneObservedIndexKey keyBytes' record' ↔
      toLex (record.observedAtUnixMs, keyBytes) < toLex (record'.observedAtUnixMs, keyBytes') := by
  rw [tombstoneObservedIndexKey, tombstoneObservedIndexKey,
    toBigEndian_append_lt (h.trans_lt (by decide)) (h'.trans_lt (by decide)),
      Prod.Lex.toLex_lt_toLex]

theorem observedIndexKey_five_lt :
    tombstoneObservedIndexKey [9] ⟨1, [], 5⟩ < tombstoneObservedIndexKey [3] ⟨1, [], 256⟩ :=
  (tombstoneObservedIndexKey_lt_iff (by decide) (by decide)).mpr (by decide)

/-! ## Prune frontier keys -/

/-- `TOMB_PRUNED_META_PREFIX`, as bytes. -/
def tombPrunedMetaPrefix : Bytes := "tomb_pruned/".toList.map fun c => Fin.ofNat 256 c.toNat

/-- The table `HEX`. -/
def hexDigit (nibble : ℕ) : Byte := Fin.ofNat 256 (if nibble < 10 then 48 + nibble else 87 + nibble)

/-- `tombstone_prune_frontier_key`, as the bytes of the string. -/
def tombstonePruneFrontierKey (originActor : Bytes) : Bytes :=
  tombPrunedMetaPrefix ++ originActor.flatMap fun byte =>
    [hexDigit (byte.val / 16), hexDigit (byte.val % 16)]

/-- `decode_actor_hex_nibble`. -/
def decodeActorHexNibble (raw : Byte) : Except String ℕ :=
  let code := raw.val
  if 48 ≤ code ∧ code ≤ 57 then .ok (code - 48)
  else if 97 ≤ code ∧ code ≤ 102 then .ok (code - 97 + 10)
  else if 65 ≤ code ∧ code ≤ 70 then .ok (code - 65 + 10)
  else .error s!"invalid tombstone prune frontier actor hex byte: {code}"

/-- The loop of `tombstone_prune_frontier_origin_actor` over byte pairs. -/
def decodeActorHex : Bytes → Except String Bytes
  | high :: low :: rest => do
      let high ← decodeActorHexNibble high
      let low ← decodeActorHexNibble low
      let rest ← decodeActorHex rest
      return Fin.ofNat 256 (high * 16 + low) :: rest
  | _ => .ok []

/-- `tombstone_prune_frontier_origin_actor`: keys without the prefix are other metadata. -/
def tombstonePruneFrontierOriginActor (metaKey : Bytes) : Except String (Option Bytes) :=
  if tombPrunedMetaPrefix.isPrefixOf metaKey then
    let encodedActor := metaKey.drop tombPrunedMetaPrefix.length
    let length := encodedActor.length
    if length % 2 ≠ 0 then
      .error s!"invalid tombstone prune frontier actor length: {length}"
    else (decodeActorHex encodedActor).map some
  else .ok none

lemma decodeActorHexNibble_hexDigit : ∀ nibble < 16,
    decodeActorHexNibble (hexDigit nibble) = .ok nibble := by
  decide

lemma decodeActorHex_flatMap : ∀ actor : Bytes,
    decodeActorHex (actor.flatMap fun byte => [hexDigit (byte.val / 16), hexDigit (byte.val % 16)])
      = .ok actor
  | [] => rfl
  | byte :: actor => by
    have hhigh := decodeActorHexNibble_hexDigit (byte.val / 16) (by omega)
    have hlow := decodeActorHexNibble_hexDigit (byte.val % 16) (Nat.mod_lt _ (by omega))
    have hbyte : Fin.ofNat 256 (byte.val / 16 * 16 + byte.val % 16) = byte := by
      rw [Nat.div_add_mod']
      exact Fin.ofNat_val_eq_self byte
    rw [flatMap_cons, cons_append, cons_append, nil_append, decodeActorHex,
      hhigh, hlow, decodeActorHex_flatMap actor]
    change Except.ok (Fin.ofNat 256 (byte.val / 16 * 16 + byte.val % 16) :: actor) = _
    rw [hbyte]

/-- A frontier key names its origin actor. -/
theorem tombstonePruneFrontierOriginActor_key (originActor : Bytes) :
    tombstonePruneFrontierOriginActor (tombstonePruneFrontierKey originActor)
      = .ok (some originActor) := by
  have hlen : (originActor.flatMap fun byte =>
      [hexDigit (byte.val / 16), hexDigit (byte.val % 16)]).length % 2 = 0 := by
    induction originActor with
    | nil => rfl
    | cons byte actor ih =>
      rw [flatMap_cons, length_append]
      simp only [length_cons, length_nil]
      omega
  have hprefix : tombPrunedMetaPrefix.isPrefixOf (tombstonePruneFrontierKey originActor) = true :=
    isPrefixOf_iff_prefix.mpr (prefix_append _ _)
  rw [tombstonePruneFrontierOriginActor, if_pos hprefix]
  simp only [tombstonePruneFrontierKey, drop_left, hlen, decodeActorHex_flatMap]
  rfl

end Mantissa
