import Mantissa.Store.Compaction
import Mantissa.Store.Tombstone

/-!
# Register adapters

The store is generic in the registers it keeps: `RegAdapter` is the trait, as a record of its
functions. Row and actor codecs are left out — rows are kept decoded — except for the two
encodings that end up in keys: a row key's bytes, which key ranges are compared against, and an
actor's bytes, which tombstones carry.

`storeMvRegAdapterSorted` is the one adapter of the source, over multi-value registers and
16-byte keys, with the compaction policy plugged into it.
-/

namespace Mantissa

/-- `RegAdapter`. -/
structure RegAdapter (K A R V S : Type*) [LinearOrder K] where
  /-- `upsert_reg`. -/
  upsertReg : Option R → A → V → R
  /-- `snapshot_reg`. -/
  snapshotReg : R → S
  /-- `snapshot_reg_at_version`, which by default ignores the version. -/
  snapshotRegAtVersion : R → ℕ → S := fun reg _ => snapshotReg reg
  /-- `key_to_bytes`. -/
  keyToBytes : K → Bytes
  /-- Keys sort like their bytes, so the tables iterate in key order. -/
  keyToBytes_strictMono : StrictMono keyToBytes
  /-- `actor_to_bytes`. -/
  actorToBytes : A → Bytes
  /-- `compact_reg`, which by default rewrites nothing. -/
  compactReg : R → ℕ → Except String (Option R) := fun _ _ => .ok none
  /-- `merge_regs`. -/
  mergeRegs : Option R → R → R

/-- `UuidKey`: sixteen bytes, compared lexicographically. -/
abbrev UuidKey := {bytes : Bytes // bytes.length = 16}

instance uuidKeyTransCmp : Std.TransCmp (@compare UuidKey LinearOrder.toOrd) := inferInstance

variable {V A R : Type*} [LinearOrder V] [LinearOrder A] [LinearOrder R]

/-- `MvRegCompactionPolicy`. -/
structure MvRegCompactionPolicy (V A : Type*) [LinearOrder A] where
  /-- `compact`. -/
  compact : MvReg V A → ℕ → Except String (Option (MvReg V A))
  /-- `compact_after_merge`, which by default keeps the merged register. -/
  compactAfterMerge : MvReg V A → MvReg V A := fun reg => reg

/-- `NoMvRegCompaction`. -/
def noMvRegCompaction : MvRegCompactionPolicy V A where
  compact _ _ := .ok none

/-- `RankedMvRegCompaction`. -/
def rankedMvRegCompaction (rank : MvRegEntry V A → R) : MvRegCompactionPolicy V A where
  compact reg maxValues :=
    let (compacted, changed) := reg.compactWith maxValues rank
    .ok (if changed then some compacted else none)

/-- `StoreMvRegAdapterSorted`, over the actor's byte encoding and a compaction policy. -/
def storeMvRegAdapterSorted (encodeStoreActor : A → Bytes) (policy : MvRegCompactionPolicy V A) :
    RegAdapter UuidKey A (MvReg V A) V (MvRegSnapshot V) where
  upsertReg current actor v := (current.getD .new).write actor v
  snapshotReg reg := reg.snapshot
  keyToBytes k := k.val
  keyToBytes_strictMono _ _ h := h
  actorToBytes := encodeStoreActor
  compactReg reg maxValues := policy.compact reg maxValues
  mergeRegs current incoming :=
    policy.compactAfterMerge <| match current with
      | some current => current.merge incoming
      | none => incoming

end Mantissa
