import Mantissa.Store.Disk

/-!
# The store

`CrdtMstStore` is the durable tables with an in-memory search tree over them. The tree is a map
from keys to leaves that is only ever upserted into or replaced by a rebuilt one, and a redb
transaction is one change of the tables; a mutation holds the store's gate from the first read to
the tree update, so each operation is one function of the whole state. The wall clock is an
argument.

An operation that fails before its commit leaves the store as it was. The failures kept in the
model are those decided by the store's own checks; decoding of rows the store wrote itself is
taken to succeed.
-/

namespace Mantissa

/-- `CrdtMstStore`. -/
structure CrdtMstStore (K A R S : Type*) [LinearOrder K] where
  disk : Disk K R
  actor : A
  mst : BTreeMap K (Entry S)
  rootSchemaVersion : ℕ
  changeClock : ℕ
  preserveLocalTombs : Bool

/-- One streamed delta chunk: registers and tombstones, in the order they were sent. -/
structure DeltaChunk (K R : Type*) where
  regs : List (K × R)
  tombs : List (K × TombstoneRecord)

/-- `StoreGcPolicy`. -/
structure StoreGcPolicy where
  tombstoneMinRetentionMs : ℕ := 0
  tombstoneBatchLimit : ℕ := 0
  mvregBatchLimit : ℕ := 0
  mvregMaxValues : Option ℕ := none

/-- `GcBarrier`, without the peer count, which the store does not read. -/
structure GcBarrier where
  safeObservedBeforeUnixMs : ℕ
  rootSchemaVersion : ℕ

/-- `StoreGcReport`. -/
structure StoreGcReport where
  tombstonesScanned : ℕ := 0
  tombstonesPruned : ℕ := 0
  registersScanned : ℕ := 0
  registersCompacted : ℕ := 0
  deriving DecidableEq

/-- `FinalizeStrategy`. -/
inductive FinalizeStrategy
  | rebuild
  | noOp
  deriving DecidableEq

namespace CrdtMstStore

variable {K A R V S : Type*} [LinearOrder K]

/-- `DEFAULT_ROOT_SCHEMA_VERSION`. -/
def defaultRootSchemaVersion : ℕ := 1

/-- `StoreBuilder::build`: the tables as they are, and an empty tree. -/
def build (disk : Disk K R) (actor : A) (preserveLocalTombs : Bool) : CrdtMstStore K A R S :=
  ⟨disk, actor, ∅, defaultRootSchemaVersion, 1, preserveLocalTombs⟩

/-- `bump_change_clock`, a wrapping counter. -/
def bumpChangeClock (s : CrdtMstStore K A R S) : CrdtMstStore K A R S :=
  { s with changeClock := (s.changeClock + 1) % 2 ^ 64 }

/-- Replay leaf updates on the tree. -/
def upsertLeaves (s : CrdtMstStore K A R S) (leaves : List (K × Entry S)) : CrdtMstStore K A R S :=
  { s with mst := BTreeMap.upsertAll s.mst leaves }

variable (ad : RegAdapter K A R V S) (s : CrdtMstStore K A R S)

/-- `rebuild_mst_from_disk`. -/
def rebuildMstFromDisk : CrdtMstStore K A R S :=
  { s with mst := s.disk.buildTreeFromDiskAtVersion ad s.rootSchemaVersion }

/-- `rebuild_mst_from_disk_at_version`. -/
def rebuildMstFromDiskAtVersion (version : ℕ) : CrdtMstStore K A R S :=
  { s with
    mst := s.disk.buildTreeFromDiskAtVersion ad version
    rootSchemaVersion := version }

/-- The live leaf of a register at the tree's version. -/
def activeLeaf (reg : R) : Entry S :=
  .active (ad.snapshotRegAtVersion reg s.rootSchemaVersion)

variable (k : K)

/-- `get_snapshot`. -/
def getSnapshot : Option S :=
  s.disk.values[k]?.map fun reg => ad.snapshotRegAtVersion reg s.rootSchemaVersion

/-! ## Local writes -/

/-- `update_value`: derive a value from the current snapshot and write it, or do nothing. -/
def updateValue (update : Option S → Option V) : CrdtMstStore K A R S × Bool :=
  let current := s.disk.values[k]?
  match update (current.map ad.snapshotReg) with
  | none => (s, false)
  | some value =>
    let newReg := ad.upsertReg current s.actor value
    let s' := { s with disk := s.disk.writeValue k newReg }
    ((s'.upsertLeaves [(k, s.activeLeaf ad newReg)]).bumpChangeClock, true)

/-- `upsert`. -/
def upsert (v : V) : CrdtMstStore K A R S :=
  (s.updateValue ad k fun _ => some v).1

/-- The write transaction of `upsert_many_if`; `none` is a rejected batch. -/
def writeBatch (ad : RegAdapter K A R V S) (actor : A) (shouldWrite : K → Option S → V → Bool) :
    Disk K R → List (K × V) → Option (Disk K R × List (K × R))
  | d, [] => some (d, [])
  | d, (k, v) :: requested =>
    let current := d.values[k]?
    if shouldWrite k (current.map ad.snapshotReg) v then
      let reg := ad.upsertReg current actor v
      (writeBatch ad actor shouldWrite (d.writeValue k reg) requested).map fun (d', merged) =>
        (d', (k, reg) :: merged)
    else none

/-- `upsert_many_if`: the last value of a repeated key wins, and a rejected entry rejects the whole
batch. -/
def upsertManyIf (entries : List (K × V))
    (shouldWrite : K → Option S → V → Bool) : CrdtMstStore K A R S × Bool :=
  let requested := (BTreeMap.upsertAll (∅ : BTreeMap K V) entries).toList
  if requested.isEmpty then (s, true)
  else match writeBatch ad s.actor shouldWrite s.disk requested with
    | none => (s, false)
    | some (disk, merged) =>
      let s' := { s with disk := disk }
      ((s'.upsertLeaves (merged.map fun p => (p.1, s.activeLeaf ad p.2))).bumpChangeClock, true)

/-- The delete sequence `remove` allocates next. -/
def nextTombSeq (d : Disk K R) : ℕ :=
  match d.tombSeq with
  | some n => saturatingAdd n 1
  | none => 1

/-- `local_tombstone`. -/
def localTombstone (sequence now : ℕ) : TombstoneRecord :=
  ⟨sequence, ad.actorToBytes s.actor, now⟩

/-- `remove`: a key that is already deleted keeps its tombstone. -/
def remove (now : ℕ) : CrdtMstStore K A R S × ℕ :=
  match s.disk.tombs[k]? with
  | some tombstone =>
    let s' := { s with disk :=
      if s.disk.values[k]?.isSome then s.disk.removeValue k else s.disk }
    ((s'.upsertLeaves [(k, deletedEntry tombstone)]).bumpChangeClock, tombstone.sequence)
  | none =>
    let sequence := nextTombSeq s.disk
    let tombstone := s.localTombstone ad sequence now
    let disk := { s.disk with tombSeq := some sequence }
    let s' := { s with disk := (disk.removeValue k).insertTombstone k tombstone }
    ((s'.upsertLeaves [(k, deletedEntry tombstone)]).bumpChangeClock, sequence)

/-- `purge_local`. -/
def purgeLocal : CrdtMstStore K A R S :=
  (rebuildMstFromDisk ad { s with disk := s.disk.purgeKey k }).bumpChangeClock

/-- `merge_register`. -/
def mergeRegister (incoming : R) : CrdtMstStore K A R S :=
  let merged := ad.mergeRegs s.disk.values[k]? incoming
  let s' := { s with disk := s.disk.writeValue k merged }
  (s'.upsertLeaves [(k, s.activeLeaf ad merged)]).bumpChangeClock

/-- `apply_tombstone`: a delete of this actor's own, unless its sequence was already pruned. -/
def applyTombstone (ts now : ℕ) : CrdtMstStore K A R S :=
  let incoming := s.localTombstone ad ts now
  let prunedSequence := s.disk.tombstonePruneFrontier incoming.originActor
  if 0 < prunedSequence ∧ incoming.sequence ≤ prunedSequence then s
  else
    let nextTombstone := mergeTombstoneRecords s.disk.tombs[k]? incoming
    let s' := { s with disk := s.disk.writeTombstone k nextTombstone }
    (s'.upsertLeaves [(k, deletedEntry nextTombstone)]).bumpChangeClock

/-! ## Delta application -/

/-- The tables and the pending tree updates while a chunk is being written. -/
structure DeltaMerge (K R : Type*) [LinearOrder K] where
  disk : Disk K R
  mergedRegs : List (K × R)
  mergedTombs : List (K × TombstoneRecord)
  changed : Bool

variable (ad : RegAdapter K A R V S)

/-- One register of a chunk. -/
def mergeDeltaReg [DecidableEq R] (preserveLocalTombs : Bool)
    (tombKeysInChunk : List K) (acc : DeltaMerge K R) (row : K × R) : DeltaMerge K R :=
  let (key, incoming) := row
  let existing := acc.disk.tombs[key]?
  -- an inbound register may not clear a local tombstone the chunk does not carry
  if preserveLocalTombs ∧ key ∉ tombKeysInChunk ∧ existing.isSome then acc
  else
    let current := acc.disk.values[key]?
    let merged := ad.mergeRegs current incoming
    if current = some merged ∧ existing.isNone then acc
    else
      { acc with
        disk := acc.disk.writeValue key merged
        mergedRegs := acc.mergedRegs ++ [(key, merged)]
        changed := true }

/-- One tombstone of a chunk. -/
def mergeDeltaTomb (now : ℕ) (acc : DeltaMerge K R) (row : K × TombstoneRecord) : DeltaMerge K R :=
  let (key, incoming) := row
  let prunedSequence := acc.disk.tombstonePruneFrontier incoming.originActor
  if 0 < prunedSequence ∧ incoming.sequence ≤ prunedSequence then acc
  else
    let currentTomb := acc.disk.tombs[key]?
    let nextTombstone := mergeTombstoneRecords currentTomb (normalizeIncomingTombstone incoming now)
    if currentTomb = some nextTombstone ∧ acc.disk.values[key]?.isNone then acc
    else
      let disk := if currentTomb = some nextTombstone then acc.disk
        else (acc.disk.dropObserved key).insertTombstone key nextTombstone
      { acc with
        disk := disk.removeValue key
        mergedTombs := acc.mergedTombs ++ [(key, nextTombstone)]
        changed := true }

/-- `write_delta_chunk_merged_latest`. -/
def writeDeltaChunkMergedLatest [DecidableEq R]
    (preserveLocalTombs : Bool) (disk : Disk K R) (chunk : DeltaChunk K R) (now : ℕ) :
    DeltaMerge K R :=
  let tombKeysInChunk := if preserveLocalTombs ∧ chunk.regs ≠ [] then chunk.tombs.map Prod.fst
    else []
  let merged := chunk.regs.foldl (mergeDeltaReg ad preserveLocalTombs tombKeysInChunk)
    ⟨disk, [], [], false⟩
  chunk.tombs.foldl (mergeDeltaTomb now) merged

/-- The leaves a written chunk patches into the tree: registers first, then tombstones. -/
def DeltaMerge.leaves (version : ℕ) (m : DeltaMerge K R) : List (K × Entry S) :=
  (m.mergedRegs.map fun p => (p.1, Entry.active (ad.snapshotRegAtVersion p.2 version))) ++
    m.mergedTombs.map fun p => (p.1, deletedEntry p.2)

variable (s : CrdtMstStore K A R S)

/-- `apply_delta_chunk`, as a session applies it: the tree is left alone. -/
def applyDeltaChunk [DecidableEq R]
    (chunk : DeltaChunk K R) (now : ℕ) : CrdtMstStore K A R S :=
  let merged := writeDeltaChunkMergedLatest ad s.preserveLocalTombs s.disk chunk now
  let s' := { s with disk := merged.disk }
  if merged.changed then s'.bumpChangeClock else s'

/-- `apply_delta_chunk_update_mst`: an empty tree is rebuilt before it is patched. -/
def applyDeltaChunkUpdateMst [DecidableEq R] (chunk : DeltaChunk K R) (now : ℕ) :
    CrdtMstStore K A R S :=
  let s := if s.mst.isEmpty then rebuildMstFromDisk ad s else s
  let merged := writeDeltaChunkMergedLatest ad s.preserveLocalTombs s.disk chunk now
  let s' := { s with disk := merged.disk }.upsertLeaves (merged.leaves ad s.rootSchemaVersion)
  if merged.changed then s'.bumpChangeClock else s'

/-- A whole `DeltaApplySession`: its chunks, each with the time it was applied, and `commit`. -/
def deltaApplySession [DecidableEq R]
    (chunks : List (DeltaChunk K R × ℕ)) (finalize : FinalizeStrategy) : CrdtMstStore K A R S :=
  let s' := chunks.foldl (fun s chunk => s.applyDeltaChunk ad chunk.1 chunk.2) s
  match finalize with
  | .rebuild => rebuildMstFromDisk ad s'
  | .noOp => s'

/-! ## Prune frontiers and garbage collection -/

/-- `load_tombstone_prune_frontiers`. -/
def loadTombstonePruneFrontiers (d : Disk K R) : List (Bytes × ℕ) :=
  d.tombPruned.toList.filter fun p => decide (0 < p.2)

variable (frontiers : List (Bytes × ℕ))

/-- The received frontiers by origin: the largest of each, zeros left out. -/
def frontierByOrigin : BTreeMap Bytes ℕ :=
  frontiers.foldl (fun acc p =>
    if p.2 = 0 then acc
    else acc.insert p.1 (match acc[p.1]? with
      | some current => max current p.2
      | none => p.2)) ∅

/-- The received frontiers that are ahead of the stored ones. -/
def newerFrontiers (d : Disk K R) (received : BTreeMap Bytes ℕ) : BTreeMap Bytes ℕ :=
  (loadTombstonePruneFrontiers d).foldl (fun acc p =>
    match acc[p.1]? with
    | some receivedSequence => if receivedSequence ≤ p.2 then acc.erase p.1 else acc
    | none => acc) received

/-- A tombstone at or below its origin's frontier. -/
def coveredBy (frontiers : BTreeMap Bytes ℕ) (record : TombstoneRecord) : Bool :=
  match frontiers[record.originActor]? with
  | some frontier => decide (record.sequence ≤ frontier)
  | none => false

/-- One candidate of `apply_tombstone_prune_frontiers`, checked again inside the transaction. -/
def pruneCovered (frontiers : BTreeMap Bytes ℕ) (acc : Disk K R × ℕ) (k : K) : Disk K R × ℕ :=
  match acc.1.tombs[k]? with
  | none => acc
  | some record =>
    if coveredBy frontiers record then (acc.1.clearTombstone k, acc.2 + 1) else acc

/-- `apply_tombstone_prune_frontiers`, with the number of tombstones dropped. -/
def applyTombstonePruneFrontiers : CrdtMstStore K A R S × ℕ :=
  let received := frontierByOrigin frontiers
  if received.isEmpty then (s, 0)
  else
    let newer := newerFrontiers s.disk received
    if newer.isEmpty then (s, 0)
    else
      let candidates := (s.disk.tombs.toList.filter fun p => coveredBy newer p.2).map Prod.fst
      let (disk, pruned) := candidates.foldl (pruneCovered newer) (s.disk, 0)
      let disk := newer.toList.foldl
        (fun d p => d.advanceTombstonePruneFrontier p.1 p.2) disk
      let s' := { s with disk := disk }
      if 0 < pruned then ((rebuildMstFromDisk ad s').bumpChangeClock, pruned) else (s', pruned)

/-- `collect_tombstone_gc_candidates`: the first rows of the age index, up to the cutoff and the
batch limit. -/
def collectTombstoneGcCandidates (d : Disk K R) (eligibleBefore batchLimit : ℕ) : List (ℕ ×ₗ K) :=
  ((d.tombsByObserved.toList.map Prod.fst).takeWhile fun indexKey =>
    decide ((ofLex indexKey).1 < eligibleBefore)).take batchLimit

/-- One candidate of `prune_tombstone_gc_candidates`, verified against its tombstone row. -/
def pruneTombstoneGcCandidate (eligibleBefore : ℕ) (acc : Disk K R × ℕ) (indexKey : ℕ ×ₗ K) :
    Disk K R × ℕ :=
  let (d, pruned) := acc
  let key := (ofLex indexKey).2
  let dropIndexRow := { d with tombsByObserved := d.tombsByObserved.erase indexKey }
  match d.tombs[key]? with
  | none => (dropIndexRow, pruned)
  | some record =>
    if Disk.observedKey key record ≠ indexKey ∨ eligibleBefore ≤ record.observedAtUnixMs then
      (dropIndexRow, pruned)
    else
      let d' := { dropIndexRow with tombs := d.tombs.erase key }
      (d'.advanceTombstonePruneFrontier record.originActor record.sequence, pruned + 1)

/-- The exclusive cutoff of one pass: the barrier's, or the retention's if that is earlier. -/
def gcCutoff (policy : StoreGcPolicy) (barrier : GcBarrier) (now : ℕ) : ℕ :=
  min barrier.safeObservedBeforeUnixMs (now - policy.tombstoneMinRetentionMs)

/-- `garbage_collect_tombstones`. -/
def garbageCollectTombstones (policy : StoreGcPolicy) (barrier : GcBarrier) (now : ℕ) :
    Except String (CrdtMstStore K A R S × StoreGcReport) :=
  let expected := barrier.rootSchemaVersion
  let current := s.rootSchemaVersion
  if policy.tombstoneBatchLimit = 0 then .ok (s, {})
  else if expected ≠ current then
    .error (s!"tombstone GC barrier root schema {expected} does not match " ++
      s!"current store root schema {current}")
  else
    let eligibleBefore := gcCutoff policy barrier now
    let candidates :=
      collectTombstoneGcCandidates s.disk eligibleBefore policy.tombstoneBatchLimit
    let report : StoreGcReport := { tombstonesScanned := candidates.length }
    if candidates.isEmpty then .ok (s, report)
    else
      let (disk, pruned) := candidates.foldl (pruneTombstoneGcCandidate eligibleBefore) (s.disk, 0)
      let s' := { s with disk := disk }
      let report := { report with tombstonesPruned := pruned }
      if 0 < pruned then .ok ((rebuildMstFromDisk ad s').bumpChangeClock, report)
      else .ok (s', report)

/-! ## Register compaction -/

/-- `collect_register_compaction_candidates`: the rows the adapter wants rewritten, with the
register each was read as. -/
def collectRegisterCompactionCandidates (ad : RegAdapter K A R V S) (maxValues : ℕ) :
    List (K × R) → Except String (List (K × R × R))
  | [] => .ok []
  | (k, reg) :: rows =>
    match ad.compactReg reg maxValues with
    | .error e => .error e
    | .ok compacted =>
      match collectRegisterCompactionCandidates ad maxValues rows with
      | .error e => .error e
      | .ok rest => .ok (compacted.toList.map (fun compacted => (k, reg, compacted)) ++ rest)

/-- `write_register_compaction_candidates`: rewrite the rows that are still as they were read. -/
def writeRegisterCompactionCandidates [DecidableEq R] (d : Disk K R)
    (candidates : List (K × R × R)) : Disk K R × List (K × R) :=
  candidates.foldl (fun (acc : Disk K R × List (K × R)) candidate =>
    let (k, original, compacted) := candidate
    if acc.1.values[k]? = some original then
      ({ acc.1 with values := acc.1.values.insert k compacted }, acc.2 ++ [(k, compacted)])
    else acc) (d, [])

/-- `compact_registers`. -/
def compactRegisters [DecidableEq R] (ad : RegAdapter K A R V S) (s : CrdtMstStore K A R S)
    (policy : StoreGcPolicy) : Except String (CrdtMstStore K A R S × StoreGcReport) :=
  match policy.mvregMaxValues with
  | none => .ok (s, {})
  | some maxValues =>
    if maxValues = 0 ∨ policy.mvregBatchLimit = 0 then .ok (s, {})
    else
      let rows := s.disk.values.toList.take policy.mvregBatchLimit
      let report : StoreGcReport := { registersScanned := rows.length }
      match collectRegisterCompactionCandidates ad maxValues rows with
      | .error e => .error e
      | .ok candidates =>
        let (disk, applied) := writeRegisterCompactionCandidates s.disk candidates
        let s' := { s with disk := disk }
        let leaves := applied.map fun p => (p.1, s.activeLeaf ad p.2)
        if applied.isEmpty then .ok (s', report)
        else .ok ((s'.upsertLeaves leaves).bumpChangeClock,
          { report with registersCompacted := applied.length })

end CrdtMstStore

end Mantissa
