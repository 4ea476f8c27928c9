import Mantissa.Store.TableLoops

/-!
# The store's representation invariant

After any series of operations the tables are consistent, and the in-memory tree is the one a
rebuild would produce (`tables_consistent_and_tree_rebuilt`). The operations differ in how they get
there: some replay the leaves they changed on the tree, some rebuild it, and the delta paths skip
rows whose state would not change.

`Tracks` carries the patching operations: the tree, with the pending leaves replayed, has the leaves
of the tables. `RepInv` is the whole invariant, kept by each operation; the tables alone
stay consistent even where the tree is stale (`consistent_applyOps`).
-/

namespace Mantissa.CrdtMstStore

open BTreeMap Disk List

variable {K A R V S : Type*} [LinearOrder K]

/-! ## The tree and the tables -/

/-- The tree has the leaves of the tables. -/
def Tracks (ad : RegAdapter K A R V S) (version : ℕ) (tree : BTreeMap K (Entry S))
    (d : Disk K R) : Prop :=
  ∀ k : K, tree[k]? = d.entry ad version k

variable {ad : RegAdapter K A R V S} {version : ℕ} {tree : BTreeMap K (Entry S)} {d : Disk K R}

lemma Tracks.writeValue (h : Tracks ad version tree d) (k : K) (reg : R) :
    Tracks ad version (tree.insert k (.active (ad.snapshotRegAtVersion reg version)))
      (d.writeValue k reg) := by
  intro a
  rw [getElem?_insert_eq, h a]
  simp only [entry, tombs_writeValue, values_writeValue]
  split_ifs <;> rfl

lemma Tracks.writeTombstone (h : Tracks ad version tree d) (k : K) (record : TombstoneRecord) :
    Tracks ad version (tree.insert k (deletedEntry record)) (d.writeTombstone k record) := by
  intro a
  rw [getElem?_insert_eq, h a]
  simp only [entry, tombs_writeTombstone, values_writeTombstone]
  split_ifs <;> rfl

/-- Replaying the registers a loop wrote keeps the tree in step with the loop's tables. -/
lemma Tracks.append_value {done : List (K × R)}
    (h : Tracks ad version (upsertAll tree (done.map fun p =>
      (p.1, Entry.active (ad.snapshotRegAtVersion p.2 version)))) d) (k : K) (reg : R) :
    Tracks ad version (upsertAll tree ((done ++ [(k, reg)]).map fun p =>
      (p.1, Entry.active (ad.snapshotRegAtVersion p.2 version)))) (d.writeValue k reg) := by
  rw [map_append, upsertAll_append]
  exact h.writeValue k reg

/-- A chunk's pending leaves replayed on a tree that was in step are in step with its tables. -/
theorem tracks_writeDeltaChunk [DecidableEq R] (preserve : Bool) (hd : d.Consistent)
    (h : Tracks ad version tree d) (chunk : DeltaChunk K R) (now : ℕ) :
    let m := writeDeltaChunkMergedLatest ad preserve d chunk now
    Tracks ad version (upsertAll tree (m.leaves ad version)) m.disk ∧ m.disk.Consistent := by
  refine writeDeltaChunk_induction ad preserve chunk now (P := fun m =>
    Tracks ad version (upsertAll tree (m.leaves ad version)) m.disk) hd h ?_ ?_
  · rintro ⟨d, regs, tombs, changed⟩ k merged hP - (rfl : tombs = [])
    simp only [DeltaMerge.leaves, map_nil, append_nil] at hP ⊢
    exact hP.append_value k merged
  · rintro ⟨d, regs, tombs, changed⟩ k incoming hP - -
    simp only [DeltaMerge.leaves, map_append, map_cons, map_nil] at hP ⊢
    rw [← append_assoc, upsertAll_append]
    exact hP.writeTombstone k _

/-- **The representation invariant**: consistent tables, and the tree a rebuild would produce. -/
structure RepInv (ad : RegAdapter K A R V S) (s : CrdtMstStore K A R S) : Prop where
  consistent : s.disk.Consistent
  mst_eq : s.mst = s.disk.buildTreeFromDiskAtVersion ad s.rootSchemaVersion

variable {s : CrdtMstStore K A R S}

lemma RepInv.tracks (h : RepInv ad s) : Tracks ad s.rootSchemaVersion s.mst s.disk :=
  eq_buildTreeFromDiskAtVersion_iff.mp h.mst_eq

lemma RepInv.of_tracks (hc : s.disk.Consistent)
    (h : Tracks ad s.rootSchemaVersion s.mst s.disk) : RepInv ad s :=
  ⟨hc, eq_buildTreeFromDiskAtVersion_iff.mpr h⟩

lemma RepInv.bumpChangeClock (h : RepInv ad s) : RepInv ad s.bumpChangeClock := ⟨h.1, h.2⟩

lemma repInv_rebuild (hc : s.disk.Consistent) : RepInv ad (rebuildMstFromDisk ad s) := ⟨hc, rfl⟩

lemma repInv_build_empty (actor : A) (preserveLocalTombs : Bool) :
    RepInv ad (build empty actor preserveLocalTombs : CrdtMstStore K A R S) := by
  refine .of_tracks consistent_empty fun k => ?_
  simp [build, entry, empty]

/-! ## Each operation keeps the invariant -/

section Operations

variable {s : CrdtMstStore K A R S}

variable (h : RepInv ad s)

include h

variable (k : K)

/-- Writing one register and its leaf. -/
lemma RepInv.writeValue (reg : R) :
    RepInv ad ({ s with disk := s.disk.writeValue k reg }.upsertLeaves
      [(k, s.activeLeaf ad reg)]) :=
  .of_tracks (h.consistent.writeValue k reg) (h.tracks.writeValue k reg)

/-- Writing one tombstone and its leaf. -/
lemma RepInv.writeTombstone (record : TombstoneRecord) :
    RepInv ad ({ s with disk := s.disk.writeTombstone k record }.upsertLeaves
      [(k, deletedEntry record)]) :=
  .of_tracks (h.consistent.writeTombstone k record) (h.tracks.writeTombstone k record)

lemma RepInv.updateValue (update : Option S → Option V) :
    RepInv ad (s.updateValue ad k update).1 := by
  simp only [CrdtMstStore.updateValue]
  cases update (s.disk.values[k]?.map ad.snapshotReg) with
  | none => exact h
  | some value => exact (h.writeValue k _).bumpChangeClock

lemma RepInv.upsertManyIf (entries : List (K × V)) (shouldWrite : K → Option S → V → Bool) :
    RepInv ad (s.upsertManyIf ad entries shouldWrite).1 := by
  simp only [CrdtMstStore.upsertManyIf]
  split_ifs
  · exact h
  · cases hbatch : writeBatch ad s.actor shouldWrite s.disk
        (upsertAll (∅ : BTreeMap K V) entries).toList with
    | none => exact h
    | some result =>
      have hloop := writeBatch_induction (P := fun d done => d.Consistent ∧
        Tracks ad s.rootSchemaVersion (upsertAll s.mst (done.map fun p =>
          (p.1, Entry.active (ad.snapshotRegAtVersion p.2 s.rootSchemaVersion)))) d)
        _ _ _ _ hbatch [] ⟨h.consistent, h.tracks⟩
        fun d done k reg hP => ⟨hP.1.writeValue k reg, hP.2.append_value k reg⟩
      exact (RepInv.of_tracks hloop.1 hloop.2).bumpChangeClock

lemma RepInv.remove (now : ℕ) : RepInv ad (s.remove ad k now).1 := by
  simp only [CrdtMstStore.remove]
  cases hk : s.disk.tombs[k]? with
  | some tombstone =>
    -- the key has no value row, and its leaf is already the deleted one
    have hvalue : s.disk.values[k]? = none :=
      (h.consistent.exclusive k).resolve_right (by simp [hk])
    have hleaf : s.mst.insert k (deletedEntry tombstone) = s.mst := by
      refine ext_lookup fun a => ?_
      rw [getElem?_insert_eq]
      split_ifs with hka
      · rw [← hka, h.tracks k, entry, hk]
      · rfl
    refine RepInv.bumpChangeClock ⟨?_, ?_⟩
    · simpa [upsertLeaves, hvalue] using h.consistent
    · simpa [upsertLeaves, hvalue, hleaf] using h.mst_eq
  | none =>
    refine RepInv.bumpChangeClock ?_
    have hseq : RepInv ad { s with disk := { s.disk with tombSeq := some (nextTombSeq s.disk) } } :=
      ⟨⟨h.consistent.1, h.consistent.2⟩, h.mst_eq⟩
    have hinsert := insertTombstone_removeValue
      (d := { s.disk with tombSeq := some (nextTombSeq s.disk) }) hk
      (s.localTombstone ad (nextTombSeq s.disk) now)
    rw [hinsert]
    exact hseq.writeTombstone k _

lemma RepInv.mergeRegister (incoming : R) : RepInv ad (s.mergeRegister ad k incoming) :=
  (h.writeValue k _).bumpChangeClock

lemma RepInv.applyTombstone (ts now : ℕ) : RepInv ad (s.applyTombstone ad k ts now) := by
  simp only [CrdtMstStore.applyTombstone]
  split_ifs
  · exact h
  · exact (h.writeTombstone k _).bumpChangeClock

omit h

lemma RepInv.applyDeltaChunkUpdateMst [DecidableEq R] (h : RepInv ad s) (chunk : DeltaChunk K R)
    (now : ℕ) : RepInv ad (s.applyDeltaChunkUpdateMst ad chunk now) := by
  have hrebuilt : (if s.mst.isEmpty then rebuildMstFromDisk ad s else s) = s := by
    split_ifs
    · rw [rebuildMstFromDisk, ← h.mst_eq]
    · rfl
  have hmerged := tracks_writeDeltaChunk s.preserveLocalTombs h.consistent h.tracks chunk now
  have hpatched := RepInv.of_tracks (s := { s with disk := (writeDeltaChunkMergedLatest ad
    s.preserveLocalTombs s.disk chunk now).disk }.upsertLeaves ((writeDeltaChunkMergedLatest ad
      s.preserveLocalTombs s.disk chunk now).leaves ad s.rootSchemaVersion)) hmerged.2 hmerged.1
  simp only [CrdtMstStore.applyDeltaChunkUpdateMst, hrebuilt]
  split_ifs
  · exact hpatched.bumpChangeClock
  · exact hpatched

lemma RepInv.purgeLocal (h : RepInv ad s) (k : K) : RepInv ad (s.purgeLocal ad k) :=
  (repInv_rebuild (h.consistent.purgeKey k)).bumpChangeClock

/-- Advancing frontiers changes no leaf. -/
lemma entry_advanceAll (frontiers : List (Bytes × ℕ)) (d : Disk K R) (k : K) :
    (frontiers.foldl (fun d p => d.advanceTombstonePruneFrontier p.1 p.2) d).entry ad version k
      = d.entry ad version k := by
  refine foldlRecOn (motive := fun d' : Disk K R =>
    d'.entry ad version k = d.entry ad version k) frontiers _ rfl ?_
  intro d' h p _
  simpa only [entry, tombs_advanceTombstonePruneFrontier, values_advanceTombstonePruneFrontier]
    using h

lemma RepInv.applyTombstonePruneFrontiers (h : RepInv ad s) (frontiers : List (Bytes × ℕ)) :
    RepInv ad (s.applyTombstonePruneFrontiers ad frontiers).1 := by
  simp only [CrdtMstStore.applyTombstonePruneFrontiers]
  split_ifs with hempty hnewer hpruned
  · exact h
  · exact h
  · refine (repInv_rebuild ?_).bumpChangeClock
    exact advanceAll_consistent (pruneCovered_counted _ h.consistent _).1 _
  · obtain ⟨hc, -, hsame⟩ := pruneCovered_counted
      (newerFrontiers s.disk (frontierByOrigin frontiers)) h.consistent
      ((s.disk.tombs.toList.filter fun p => coveredBy
        (newerFrontiers s.disk (frontierByOrigin frontiers)) p.2).map Prod.fst)
    refine RepInv.of_tracks (advanceAll_consistent hc _) fun k => ?_
    rw [entry_advanceAll, hsame (by omega)]
    exact h.tracks k

variable {s' : CrdtMstStore K A R S}

/-- A finished collection pass keeps the invariant. -/
lemma RepInv.garbageCollectTombstones (h : RepInv ad s) {policy : StoreGcPolicy}
    {barrier : GcBarrier} {now : ℕ} {report : StoreGcReport}
    (hgc : s.garbageCollectTombstones ad policy barrier now = .ok (s', report)) : RepInv ad s' := by
  simp only [CrdtMstStore.garbageCollectTombstones] at hgc
  obtain ⟨hc, -, hsame⟩ := pruneGc_counted h.consistent
    (collectTombstoneGcCandidates s.disk (gcCutoff policy barrier now) policy.tombstoneBatchLimit)
    fun i hi => (mem_collectTombstoneGcCandidates hi).1
  split_ifs at hgc with hlimit hversion hnone hpruned <;>
    obtain ⟨rfl, -⟩ := Prod.mk.inj (Except.ok.inj hgc)
  · exact h
  · exact h
  · exact (repInv_rebuild hc).bumpChangeClock
  · rw [hsame (by omega)]
    exact h

/-- A finished compaction pass keeps the invariant. -/
lemma RepInv.compactRegisters [DecidableEq R] (h : RepInv ad s) {policy : StoreGcPolicy}
    {report : StoreGcReport}
    (hcompact : s.compactRegisters ad policy = .ok (s', report)) : RepInv ad s' := by
  simp only [CrdtMstStore.compactRegisters] at hcompact
  cases hmax : policy.mvregMaxValues with
  | none =>
    rw [hmax] at hcompact
    obtain ⟨rfl, -⟩ := Prod.mk.inj (Except.ok.inj hcompact)
    exact h
  | some maxValues =>
    rw [hmax] at hcompact
    dsimp only at hcompact
    split_ifs at hcompact
    · obtain ⟨rfl, -⟩ := Prod.mk.inj (Except.ok.inj hcompact)
      exact h
    · cases hcollect : collectRegisterCompactionCandidates ad maxValues
          (s.disk.values.toList.take policy.mvregBatchLimit) with
      | error e =>
        rw [hcollect] at hcompact
        cases hcompact
      | ok candidates =>
        rw [hcollect] at hcompact
        dsimp only at hcompact
        obtain ⟨htracks, hc⟩ := compaction_induction h.consistent (P := fun d done =>
          Tracks ad s.rootSchemaVersion (upsertAll s.mst (done.map fun p =>
            (p.1, Entry.active (ad.snapshotRegAtVersion p.2 s.rootSchemaVersion)))) d)
          candidates h.tracks fun d done k reg hP => hP.append_value k reg
        split_ifs at hcompact with hempty
        · obtain ⟨rfl, -⟩ := Prod.mk.inj (Except.ok.inj hcompact)
          rw [isEmpty_iff.mp hempty] at htracks
          exact .of_tracks hc htracks
        · obtain ⟨rfl, -⟩ := Prod.mk.inj (Except.ok.inj hcompact)
          exact (RepInv.of_tracks hc htracks).bumpChangeClock

end Operations

/-! ## Runs of operations -/

/-- The operations of the store, with the time each is given. -/
inductive StoreOp (K R V S : Type*)
  | updateValue (k : K) (update : Option S → Option V)
  | upsertManyIf (entries : List (K × V)) (shouldWrite : K → Option S → V → Bool)
  | remove (k : K) (now : ℕ)
  | purgeLocal (k : K)
  | mergeRegister (k : K) (incoming : R)
  | applyTombstone (k : K) (ts now : ℕ)
  | applyDeltaChunkUpdateMst (chunk : DeltaChunk K R) (now : ℕ)
  | deltaApplySession (chunks : List (DeltaChunk K R × ℕ)) (finalize : FinalizeStrategy)
  | applyTombstonePruneFrontiers (frontiers : List (Bytes × ℕ))
  | garbageCollectTombstones (policy : StoreGcPolicy) (barrier : GcBarrier) (now : ℕ)
  | compactRegisters (policy : StoreGcPolicy)

variable [DecidableEq R]

/-- The store after one operation; a failed one leaves it as it was. -/
def applyOp (ad : RegAdapter K A R V S) (s : CrdtMstStore K A R S) :
    StoreOp K R V S → CrdtMstStore K A R S
  | .updateValue k update => (s.updateValue ad k update).1
  | .upsertManyIf entries shouldWrite => (s.upsertManyIf ad entries shouldWrite).1
  | .remove k now => (s.remove ad k now).1
  | .purgeLocal k => s.purgeLocal ad k
  | .mergeRegister k incoming => s.mergeRegister ad k incoming
  | .applyTombstone k ts now => s.applyTombstone ad k ts now
  | .applyDeltaChunkUpdateMst chunk now => s.applyDeltaChunkUpdateMst ad chunk now
  | .deltaApplySession chunks finalize => s.deltaApplySession ad chunks finalize
  | .applyTombstonePruneFrontiers frontiers => (s.applyTombstonePruneFrontiers ad frontiers).1
  | .garbageCollectTombstones policy barrier now =>
    match s.garbageCollectTombstones ad policy barrier now with
    | .ok (s', _) => s'
    | .error _ => s
  | .compactRegisters policy =>
    match s.compactRegisters ad policy with
    | .ok (s', _) => s'
    | .error _ => s

/-- The store after a series of operations. -/
def applyOps (ad : RegAdapter K A R V S) (s : CrdtMstStore K A R S) (ops : List (StoreOp K R V S)) :
    CrdtMstStore K A R S :=
  ops.foldl (applyOp ad) s

/-- A session is committed by rebuilding the tree. -/
def Rebuilds : StoreOp K R V S → Prop
  | .deltaApplySession _ finalize => finalize = .rebuild
  | _ => True

/-- An operation that is no local delete, no received frontier and no collection pass. -/
def WritesRows : StoreOp K R V S → Prop
  | .remove .. | .applyTombstonePruneFrontiers .. | .garbageCollectTombstones .. => False
  | _ => True

/-- **What such operations do to the tables**: keys are made live, purged, or deleted by tombstones
that are not pruned. -/
theorem applyOp_rows {P : Disk K R → Prop} (h : P s.disk)
    (hc : s.disk.Consistent) (hvalue : ∀ d k reg, P d → P (d.writeValue k reg))
    (htomb : ∀ d k incoming, P d → ¬ IsPruned d incoming →
      P (d.writeTombstone k (mergeTombstoneRecords d.tombs[k]? incoming)))
    (hpurge : ∀ d k, P d → P (d.purgeKey k)) (op : StoreOp K R V S) (hop : WritesRows op) :
    P (applyOp ad s op).disk := by
  have hchunk : ∀ preserve d chunk now, P d → d.Consistent →
      P (writeDeltaChunkMergedLatest ad preserve d chunk now).disk ∧
        (writeDeltaChunkMergedLatest ad preserve d chunk now).disk.Consistent := by
    intro preserve d chunk now hd hcd
    refine writeDeltaChunk_induction ad _ chunk now (P := fun m => P m.disk) hcd hd ?_ ?_
    · exact fun m k merged hm _ _ => hvalue _ k merged hm
    · exact fun m k incoming hm _ hnew => htomb _ k _ hm (by rwa [IsPruned,
        sequence_normalizeIncomingTombstone, originActor_normalizeIncomingTombstone])
  cases op with
  | remove k now => exact hop.elim
  | applyTombstonePruneFrontiers frontiers => exact hop.elim
  | garbageCollectTombstones policy barrier now => exact hop.elim
  | updateValue k update =>
    simp only [applyOp, updateValue]
    cases update (s.disk.values[k]?.map ad.snapshotReg) with
    | none => exact h
    | some value => exact hvalue _ k _ h
  | upsertManyIf entries shouldWrite =>
    simp only [applyOp, upsertManyIf]
    split_ifs
    · exact h
    · cases hbatch : writeBatch ad s.actor shouldWrite s.disk
          (upsertAll (∅ : BTreeMap K V) entries).toList with
      | none => exact h
      | some result =>
        exact writeBatch_induction (P := fun d _ => P d) _ _ _ _ hbatch [] h
          fun d _ k reg hd => hvalue d k reg hd
  | purgeLocal k => exact hpurge _ k h
  | mergeRegister k incoming => exact hvalue _ k _ h
  | applyTombstone k ts now =>
    simp only [applyOp, applyTombstone, apply_ite disk]
    split_ifs with hpruned
    · exact h
    · exact htomb _ k _ h hpruned
  | applyDeltaChunkUpdateMst chunk now =>
    simp only [applyOp, applyDeltaChunkUpdateMst]
    split_ifs <;> exact (hchunk _ _ chunk now h hc).1
  | deltaApplySession chunks finalize =>
    have hsession := foldlRecOn (motive := fun t : CrdtMstStore K A R S =>
      P t.disk ∧ t.disk.Consistent) chunks
      (fun s chunk => applyDeltaChunk ad s chunk.1 chunk.2) ⟨h, hc⟩ ?_
    · cases finalize with
      | rebuild => exact hsession.1
      | noOp => exact hsession.1
    · rintro t ⟨ht, hct⟩ chunk -
      simp only [applyDeltaChunk]
      split_ifs <;> exact hchunk _ _ chunk.1 chunk.2 ht hct
  | compactRegisters policy =>
    simp only [applyOp, compactRegisters]
    cases policy.mvregMaxValues with
    | none => exact h
    | some maxValues =>
      dsimp only
      split_ifs
      · exact h
      · cases collectRegisterCompactionCandidates ad maxValues
            (s.disk.values.toList.take policy.mvregBatchLimit) with
        | error e => exact h
        | ok candidates =>
          have hpass := (compaction_induction hc (P := fun d _ => P d) candidates h
            fun d _ k reg hd => hvalue d k reg hd).1
          dsimp only
          split_ifs <;> exact hpass

lemma consistent_rows (hc : s.disk.Consistent) (op : StoreOp K R V S)
    (hop : WritesRows op) : (applyOp ad s op).disk.Consistent :=
  applyOp_rows (P := Disk.Consistent) hc hc (fun _ k reg hd => hd.writeValue k reg)
    (fun _ k _ hd _ => hd.writeTombstone k _) (fun _ k hd => hd.purgeKey k) op hop

/-- Every operation keeps the invariant, a session if it rebuilds. -/
lemma RepInv.applyOp (h : RepInv ad s) (op : StoreOp K R V S)
    (hop : Rebuilds op) : RepInv ad (applyOp ad s op) := by
  cases op with
  | updateValue k update => exact h.updateValue k update
  | upsertManyIf entries shouldWrite => exact h.upsertManyIf entries shouldWrite
  | remove k now => exact h.remove k now
  | purgeLocal k => exact h.purgeLocal k
  | mergeRegister k incoming => exact h.mergeRegister k incoming
  | applyTombstone k ts now => exact h.applyTombstone k ts now
  | applyDeltaChunkUpdateMst chunk now => exact h.applyDeltaChunkUpdateMst chunk now
  | deltaApplySession chunks finalize =>
    obtain rfl : finalize = .rebuild := hop
    exact repInv_rebuild (consistent_rows h.consistent (.deltaApplySession chunks .noOp) trivial)
  | applyTombstonePruneFrontiers frontiers => exact h.applyTombstonePruneFrontiers frontiers
  | garbageCollectTombstones policy barrier now =>
    simp only [CrdtMstStore.applyOp]
    cases hgc : s.garbageCollectTombstones ad policy barrier now with
    | error e => exact h
    | ok result => exact h.garbageCollectTombstones hgc
  | compactRegisters policy =>
    simp only [CrdtMstStore.applyOp]
    cases hcompact : s.compactRegisters ad policy with
    | error e => exact h
    | ok result => exact h.compactRegisters hcompact

/-- The tables stay consistent whatever the operation and however stale the tree. -/
lemma consistent_applyOp (ad : RegAdapter K A R V S)
    (h : s.disk.Consistent) (op : StoreOp K R V S) : (applyOp ad s op).disk.Consistent := by
  have hrebuilt : ¬ WritesRows op → Rebuilds op → (applyOp ad s op).disk.Consistent := by
    intro hop hrebuilds
    -- the tree does not matter for the tables these operations end with
    have hdisk (tree : BTreeMap K (Entry S)) :
        (applyOp ad { s with mst := tree } op).disk = (applyOp ad s op).disk := by
      cases op with
      | remove k now =>
        simp only [applyOp, remove]
        split <;> rfl
      | applyTombstonePruneFrontiers frontiers =>
        simp only [applyOp, applyTombstonePruneFrontiers]
        split_ifs <;> rfl
      | garbageCollectTombstones policy barrier now =>
        simp only [applyOp, garbageCollectTombstones]
        split_ifs <;> rfl
      | _ => exact absurd trivial hop
    rw [← hdisk]
    exact ((repInv_rebuild h).applyOp op hrebuilds).consistent
  cases op with
  | remove | applyTombstonePruneFrontiers | garbageCollectTombstones => exact hrebuilt id trivial
  | _ => exact consistent_rows h _ trivial

lemma consistent_applyOps (ad : RegAdapter K A R V S)
    (h : s.disk.Consistent) (ops : List (StoreOp K R V S)) : (applyOps ad s ops).disk.Consistent :=
  foldlRecOn (motive := fun s : CrdtMstStore K A R S => s.disk.Consistent) ops _ h
    fun _ hc op _ => consistent_applyOp ad hc op

lemma RepInv.applyOps (h : RepInv ad s) (ops : List (StoreOp K R V S))
    (hops : ∀ op ∈ ops, Rebuilds op) : RepInv ad (applyOps ad s ops) :=
  foldlRecOn (motive := RepInv ad) ops _ h fun _ hinv op hmem => hinv.applyOp op (hops op hmem)

/-! ## The life of a store -/

/-- What happens to a store's tables over its life: an operation, a reopening of them (by any actor,
in any mode), a rebuild of the tree at a chosen root schema version. -/
inductive StoreEvent (K A R V S : Type*)
  | op (op : StoreOp K R V S)
  | reopen (actor : A) (preserveLocalTombs : Bool)
  | rebuildAtVersion (version : ℕ)

/-- The store after one event. -/
def applyEvent (ad : RegAdapter K A R V S) (s : CrdtMstStore K A R S) :
    StoreEvent K A R V S → CrdtMstStore K A R S
  | .op op => applyOp ad s op
  | .reopen actor preserveLocalTombs => build s.disk actor preserveLocalTombs
  | .rebuildAtVersion version => rebuildMstFromDiskAtVersion ad s version

/-- A store that was created empty and has been used for a while. -/
def afterHistory (ad : RegAdapter K A R V S) (actor : A) (preserveLocalTombs : Bool)
    (history : List (StoreEvent K A R V S)) : CrdtMstStore K A R S :=
  history.foldl (applyEvent ad) (build empty actor preserveLocalTombs)

lemma consistent_afterHistory (ad : RegAdapter K A R V S) (actor : A) (preserveLocalTombs : Bool)
    (history : List (StoreEvent K A R V S)) :
    (afterHistory ad actor preserveLocalTombs history).disk.Consistent := by
  refine foldlRecOn (motive := fun s : CrdtMstStore K A R S => s.disk.Consistent) history _
    consistent_empty ?_
  intro s hc event _
  cases event with
  | op op => exact consistent_applyOp ad hc op
  | reopen actor preserveLocalTombs => exact hc
  | rebuildAtVersion version => exact hc

/-- **Representation invariant.** Take any store, used for a while and then rebuilt from its
tables, and any series of operations on it. No key is both live and deleted, the age index lists
exactly the tombstones, and, where sessions are committed by a rebuild, the tree is the one a
rebuild at the current version would give. -/
theorem tables_consistent_and_tree_rebuilt (ad : RegAdapter K A R V S) (actor : A)
    (preserveLocalTombs : Bool) (history : List (StoreEvent K A R V S)) (version : ℕ)
    (ops : List (StoreOp K R V S)) :
    let s := applyOps ad (rebuildMstFromDiskAtVersion ad
      (afterHistory ad actor preserveLocalTombs history) version) ops
    (∀ k : K, s.disk.values[k]? = none ∨ s.disk.tombs[k]? = none) ∧
      (∀ (observed : ℕ) (k : K), s.disk.tombsByObserved[toLex (observed, k)]? = some () ↔
        ∃ record, s.disk.tombs[k]? = some record ∧ record.observedAtUnixMs = observed) ∧
      ((∀ op ∈ ops, Rebuilds op) →
        s.mst = s.disk.buildTreeFromDiskAtVersion ad s.rootSchemaVersion) := by
  intro s
  have hopened : RepInv ad (rebuildMstFromDiskAtVersion ad
      (afterHistory ad actor preserveLocalTombs history) version) :=
    ⟨consistent_afterHistory ad actor preserveLocalTombs history, rfl⟩
  have hc : s.disk.Consistent := consistent_applyOps ad hopened.consistent ops
  exact ⟨hc.exclusive, hc.indexed, fun hops => (hopened.applyOps ops hops).mst_eq⟩

/-! ## A session committed without a rebuild -/

/-- The key with one varying byte. -/
def sampleUuid (n : Byte) : UuidKey := ⟨replicate 15 0 ++ [n], by simp⟩

/-- Values and actors of the fixed runs: numbers, and identifiers stored as their bytes. -/
def sampleAdapter : RegAdapter UuidKey UuidKey (MvReg ℕ UuidKey) ℕ (MvRegSnapshot ℕ) :=
  storeMvRegAdapterSorted (fun actor => actor.val) noMvRegCompaction

/-- A series with a session in each of the ways a chunk can be applied keeps tree and tables in
step. -/
theorem tables_consistent_and_tree_rebuilt_sample :
    let reg := MvReg.new.write (sampleUuid 2) 7
    let chunk : DeltaChunk UuidKey (MvReg ℕ UuidKey) :=
      ⟨[(sampleUuid 1, reg)], [(sampleUuid 3, ⟨4, (sampleUuid 2).val, 0⟩)]⟩
    let ops : List (StoreOp UuidKey (MvReg ℕ UuidKey) ℕ (MvRegSnapshot ℕ)) :=
      [.deltaApplySession [(chunk, 10)] .rebuild, .remove (sampleUuid 1) 20]
    let s := applyOps sampleAdapter (rebuildMstFromDiskAtVersion sampleAdapter
      (afterHistory sampleAdapter (sampleUuid 5) false []) 1) ops
    s.mst = s.disk.buildTreeFromDiskAtVersion sampleAdapter s.rootSchemaVersion :=
  (tables_consistent_and_tree_rebuilt sampleAdapter (sampleUuid 5) false [] 1 _).2.2
    (by simp [Rebuilds])

/-- A session with the strategy `NoOp` leaves the row it wrote out of the tree. -/
theorem noOp_session_leaves_tree_behind :
    let reg := MvReg.new.write (sampleUuid 2) 7
    let ops : List (StoreOp UuidKey (MvReg ℕ UuidKey) ℕ (MvRegSnapshot ℕ)) :=
      [.deltaApplySession [(⟨[(sampleUuid 1, reg)], []⟩, 10)] .noOp]
    let s := applyOps sampleAdapter (rebuildMstFromDiskAtVersion sampleAdapter
      (afterHistory sampleAdapter (sampleUuid 5) false []) 1) ops
    s.mst ≠ s.disk.buildTreeFromDiskAtVersion sampleAdapter s.rootSchemaVersion := by
  intro reg ops s h
  have hleaf := congrArg (fun tree : BTreeMap UuidKey (Entry (MvRegSnapshot ℕ)) =>
    tree[sampleUuid 1]?.isSome) h
  exact absurd hleaf (by decide +kernel)

end Mantissa.CrdtMstStore
