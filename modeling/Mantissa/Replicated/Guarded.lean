import Mantissa.Cluster.Operations
import Mantissa.Replicated.GuardedRegister
import Mantissa.Volume.Rows

/-!
# Volume specifications and cluster operations

The two guarded registers of the source. A volume specification is replaced by one of a later
epoch, then by a deletion, then by later revisions; a cluster operation by one at a later stage.
The adapter of volume specifications also refuses a write that changes the request of a replicated
volume within its epoch, and does not compact a register whose latest epoch has conflicting
requests.

Time stamps are valid here: a specification whose time stamp does not parse cannot be built
(`ValidSpec`), and among the others precedence is an order.

`guarded_registers_monotone` is the result for both. It needs every write to raise its counter. At
the largest counter a write leaves its clock as it was, and a replica that has seen the previous
write does not know the new one is later: `saturated_counter_takes_back`.
-/

namespace Mantissa

open RegisterCluster VectorClock List

/-! ## Volume specifications -/

namespace Volumes

/-- `VolumeSpecValue::deletion_rank`. -/
def VolumeSpecValue.deletionRank (spec : VolumeSpecValue) : VolumeDeletionRank :=
  match spec.lifecycle.disposition with
  | .deleted => .deleted
  | .live | .retained => .live

/-- `VolumeSpecValue::has_same_request`. -/
def VolumeSpecValue.hasSameRequest (self other : VolumeSpecValue) : Bool :=
  self.id == other.id && self.name == other.name && self.driver == other.driver &&
    self.accessMode == other.accessMode && self.bindingMode == other.bindingMode &&
    self.reclaimPolicy == other.reclaimPolicy &&
    self.initialCapacityBytes == other.initialCapacityBytes && self.labels == other.labels &&
    self.planCoordinatorNodeId == other.planCoordinatorNodeId &&
    self.volumeEpoch == other.volumeEpoch

variable (parseTimestamp : String → Option ℕ) [LinearOrder VolumeDriver]
  [LinearOrder VolumeSpecValue]

/-- `VolumeSpecValue::precedence_cmp`. -/
def VolumeSpecValue.precedenceCmp (self other : VolumeSpecValue) : Ordering :=
  (compare self.volumeEpoch other.volumeEpoch).then <|
  (compare self.deletionRank.ctorIdx other.deletionRank.ctorIdx).then <|
  (compare self.lifecycle.revision other.lifecycle.revision).then <|
  (compare self.lifecycle.requestId other.lifecycle.requestId).then <|
  (compare self.bindingRevision other.bindingRevision).then <|
  (compare self.bindingOperationId other.bindingOperationId).then <|
  (compareVolumeTimestamps parseTimestamp self.updatedAt other.updatedAt).then <|
  (compare self.boundNodeId other.boundNodeId).then <|
  (compare self.boundNodeName other.boundNodeName).then <|
  (compare self.driver other.driver).then <|
  (compare self.accessMode.ctorIdx other.accessMode.ctorIdx).then <|
  (compare self.bindingMode.ctorIdx other.bindingMode.ctorIdx).then <|
  (compare self.reclaimPolicy.ctorIdx other.reclaimPolicy.ctorIdx).then <|
  (compare self.initialCapacityBytes other.initialCapacityBytes).then <|
  (compare self.planCoordinatorNodeId other.planCoordinatorNodeId).then <|
  ordCmp other self

/-- A specification with a valid time stamp. -/
abbrev ValidSpec := {spec : VolumeSpecValue // (parseTimestamp spec.updatedAt).isSome = true}

/-- Precedence among specifications with valid time stamps. -/
def specPrecedence (self other : ValidSpec parseTimestamp) : Ordering :=
  self.1.precedenceCmp parseTimestamp other.1

instance instTransCmpSpecPrecedence : Std.TransCmp (specPrecedence parseTimestamp) := by
  have hstamps (self other : ValidSpec parseTimestamp) :=
    compareParsedOrRaw_of_isSome parseTimestamp self.2 other.2
  unfold specPrecedence VolumeSpecValue.precedenceCmp compareVolumeTimestamps
  simp only [hstamps, ordCmp_eq_compare]
  infer_instance

instance instLawfulEqCmpSpecPrecedence : Std.LawfulEqCmp (specPrecedence parseTimestamp) where
  eq_of_compare {self other} h := by
    simp only [specPrecedence, VolumeSpecValue.precedenceCmp, Ordering.then_eq_eq,
      ordCmp_eq_compare] at h
    exact Subtype.ext (compare_eq_iff_eq.mp h.2.2.2.2.2.2.2.2.2.2.2.2.2.2.2).symm

variable (r : MvReg (ValidSpec parseTimestamp) Uuid)

/-- `select_replicated_volume_spec`. -/
def selectReplicatedVolumeSpec : Option (ValidSpec parseTimestamp) :=
  maxBy (specPrecedence parseTimestamp) r.snapshot.vals

/-- Whether `VolumeSpecRegAdapter::upsert_reg` writes a value. -/
def volumeUpsertWrites (value : ValidSpec parseTimestamp) : Bool :=
  match selectReplicatedVolumeSpec parseTimestamp r with
  | none => true
  | some current =>
    if current.1.driver.isReplicated && current.1.volumeEpoch == value.1.volumeEpoch &&
        !current.1.hasSameRequest value.1 then false
    else specPrecedence parseTimestamp value current == .gt

/-- `winning_generation_has_request_conflict`. -/
def winningGenerationHasRequestConflict : Bool :=
  match (r.entries.map fun e => e.value.1.volumeEpoch).max? with
  | none => false
  | some volumeEpoch =>
    match r.entries.filter fun e => e.value.1.volumeEpoch == volumeEpoch with
    | [] => false
    | first :: current => current.any fun e => !first.value.1.hasSameRequest e.value.1

/-- `VolumeSpecRegAdapter`. -/
def volumeSpecRegAdapter : GuardedAdapter (ValidSpec parseTimestamp) Uuid where
  precedence := specPrecedence parseTimestamp
  accepts := volumeUpsertWrites parseTimestamp
  compacts r := !winningGenerationHasRequestConflict parseTimestamp r
  trans := inferInstance
  lawful := inferInstance
  le_of_accepts {r v} h := by
    refine GuardedAdapter.ne_gt_of_above_selected fun current hcurrent => ?_
    rw [volumeUpsertWrites, selectReplicatedVolumeSpec, hcurrent] at h
    simp only at h
    split_ifs at h
    exact beq_iff_eq.mp h

end Volumes

/-! ## Cluster operations -/

namespace Cluster

/-- `ClusterOperationStage::rank`. -/
def ClusterOperationStage.rank : ClusterOperationStage → ℕ
  | .proposed => 0
  | .prepared => 1
  | .aborted => 2
  | .committed => 3
  | .finalized => 4

variable [LinearOrder ClusterOperationRecord]

/-- `ClusterOperationRecord::precedence_cmp`. -/
def ClusterOperationRecord.precedenceCmp (self other : ClusterOperationRecord) : Ordering :=
  (compare self.stage.rank other.stage.rank).then <|
  (compare self.updatedAtUnixMs other.updatedAtUnixMs).then <|
  (compare self.id other.id).then <|
  (compare self.details other.details).then <|
  ordCmp self other

/-- `ClusterOperationRecord::supersedes`. -/
def ClusterOperationRecord.supersedes (self current : ClusterOperationRecord) : Bool :=
  self.precedenceCmp current == .gt

instance instTransCmpOperations : Std.TransCmp ClusterOperationRecord.precedenceCmp := by
  unfold ClusterOperationRecord.precedenceCmp
  infer_instance

instance instLawfulEqCmpOperations : Std.LawfulEqCmp ClusterOperationRecord.precedenceCmp where
  eq_of_compare h := by
    simp only [ClusterOperationRecord.precedenceCmp, Ordering.then_eq_eq, ordCmp_eq_compare] at h
    exact compare_eq_iff_eq.mp h.2.2.2.2

variable (r : MvReg ClusterOperationRecord Uuid)

/-- `select_replicated_operation`. -/
def selectReplicatedOperation : Option ClusterOperationRecord :=
  maxBy ClusterOperationRecord.precedenceCmp r.snapshot.vals

/-- Whether `ClusterOperationRegAdapter::upsert_reg` writes a value. -/
def operationUpsertWrites (value : ClusterOperationRecord) : Bool :=
  match selectReplicatedOperation r with
  | none => true
  | some current => value.supersedes current

/-- `ClusterOperationRegAdapter`. Its compaction ranks by the stage's rank, the time of the update,
the id, the details and the record, which is what `precedence_cmp` compares. -/
def clusterOperationRegAdapter : GuardedAdapter ClusterOperationRecord Uuid where
  precedence := ClusterOperationRecord.precedenceCmp
  accepts := operationUpsertWrites
  compacts _ := true
  trans := inferInstance
  lawful := inferInstance
  le_of_accepts {r v} h := by
    refine GuardedAdapter.ne_gt_of_above_selected fun current hcurrent => ?_
    rw [operationUpsertWrites, selectReplicatedOperation, hcurrent] at h
    exact beq_iff_eq.mp h

end Cluster

/-! ## The result -/

/-- **Guarded registers are monotone.** In runs that leave every counter room, the value a replica
selects never loses precedence: a deleted volume stays deleted within its epoch, and the stage of an
operation does not go back. -/
theorem guarded_registers_monotone (parseTimestamp : String → Option ℕ)
    [LinearOrder Volumes.VolumeDriver] [LinearOrder Volumes.VolumeSpecValue]
    [LinearOrder Cluster.ClusterOperationRecord] :
    (∀ c c' : RegisterCluster (Volumes.ValidSpec parseTimestamp) Uuid,
      Reaches (Volumes.volumeSpecRegAdapter parseTimestamp).step
        (Volumes.volumeSpecRegAdapter parseTimestamp).CounterLeft init c →
      Reaches (Volumes.volumeSpecRegAdapter parseTimestamp).step
        (Volumes.volumeSpecRegAdapter parseTimestamp).CounterLeft c c' →
      ∀ replica spec, Volumes.selectReplicatedVolumeSpec parseTimestamp (c.replica replica).reg =
          some spec →
        ∃ spec', Volumes.selectReplicatedVolumeSpec parseTimestamp (c'.replica replica).reg =
            some spec' ∧
          spec.1.precedenceCmp parseTimestamp spec'.1 ≠ .gt ∧
          (spec.1.lifecycle.disposition = .deleted → spec'.1.volumeEpoch = spec.1.volumeEpoch →
            spec'.1.lifecycle.disposition = .deleted)) ∧
    ∀ c c' : RegisterCluster Cluster.ClusterOperationRecord Uuid,
      Reaches Cluster.clusterOperationRegAdapter.step
        Cluster.clusterOperationRegAdapter.CounterLeft init c →
      Reaches Cluster.clusterOperationRegAdapter.step
        Cluster.clusterOperationRegAdapter.CounterLeft c c' →
      ∀ replica operation, Cluster.selectReplicatedOperation (c.replica replica).reg =
          some operation →
        ∃ operation', Cluster.selectReplicatedOperation (c'.replica replica).reg =
            some operation' ∧
          operation.precedenceCmp operation' ≠ .gt ∧
          operation.stage.rank ≤ operation'.stage.rank := by
  constructor
  · intro c c' h h' replica spec hspec
    obtain ⟨spec', hspec', hle⟩ := GuardedAdapter.selected_mono h h' hspec
    refine ⟨spec', hspec', hle, fun hdeleted hepoch => ?_⟩
    -- within an epoch a deletion takes precedence
    by_contra hnot
    refine hle ?_
    have hrank : compare spec.1.deletionRank.ctorIdx spec'.1.deletionRank.ctorIdx = .gt := by
      rw [Volumes.VolumeSpecValue.deletionRank, hdeleted, Volumes.VolumeSpecValue.deletionRank]
      cases hdisposition : spec'.1.lifecycle.disposition with
      | deleted => exact absurd hdisposition hnot
      | live => rfl
      | retained => rfl
    change Volumes.specPrecedence parseTimestamp spec spec' = .gt
    rw [Volumes.specPrecedence, Volumes.VolumeSpecValue.precedenceCmp, hepoch,
      compare_eq_iff_eq.mpr rfl, Ordering.eq_then, hrank, Ordering.gt_then]
  · intro c c' h h' replica operation hoperation
    obtain ⟨operation', hoperation', hle⟩ := GuardedAdapter.selected_mono h h' hoperation
    refine ⟨operation', hoperation', hle, not_lt.mp fun hlt => hle ?_⟩
    -- precedence puts the stage first
    change operation.precedenceCmp operation' = .gt
    rw [Cluster.ClusterOperationRecord.precedenceCmp, compare_gt_iff_gt.mpr hlt, Ordering.gt_then]

namespace Cluster

/-- An operation at a stage and time. -/
def sampleOperation (stage : ClusterOperationStage) (updatedAtUnixMs : ℕ) :
    ClusterOperationRecord where
  id := 1
  submittedByNodeId := 0
  kind := .merge
  stage := stage
  dryRun := false
  createdAtUnixMs := 0
  dependencyOperationIds := []
  sourceViews := []
  targetViews := []
  splitAssignments := []
  updatedAtUnixMs := updatedAtUnixMs
  details := ""

/-- Entries below those of the other side vanish in a merge. -/
lemma perm_merge_of_lt {r other : MvReg ClusterOperationRecord Uuid}
    (h : ∀ e ∈ r.entries, ∃ f ∈ other.entries, e.clock < f.clock) :
    (r.merge other).entries.Perm other.entries := by
  rw [MvReg.perm_iff]
  ext e
  simp only [MvReg.mem_entrySet, MvReg.mem_merge_iff]
  constructor
  · rintro (⟨he, hno⟩ | ⟨he, -⟩)
    · obtain ⟨f, hf, hlt⟩ := h e he
      exact absurd hlt (hno f hf)
    · exact he
  · intro he
    refine .inr ⟨he, fun f hf hle => ?_⟩
    obtain ⟨g, hg, hlt⟩ := h f hf
    exact other.normalized.not_lt he hg (hle.trans_lt hlt)

variable {r : MvReg ClusterOperationRecord Uuid} {entry : MvRegEntry ClusterOperationRecord Uuid}

lemma clock_of_single (h : r.entries = [entry]) : r.clock = entry.clock := by
  rw [MvReg.clock, h]
  exact bot_sup_eq _

variable (c : RegisterCluster ClusterOperationRecord Uuid)

lemma replica_writeAt_self (actor : Uuid)
    (value : ClusterOperationRecord) : ((c.writeAt actor value).replica actor).reg.entries =
        [⟨(c.replica actor).reg.clock.increment actor, value⟩] ∧
      (c.writeAt actor value).replica actor ∈ (c.writeAt actor value).history := by
  rw [replica_writeAt, if_pos rfl]
  exact ⟨MvReg.entries_write actor value, mem_history_writeAt.mpr (.inr rfl)⟩

lemma replica_writeAt_other {actor other : Uuid}
    (value : ClusterOperationRecord) (hne : other ≠ actor) :
    (c.writeAt actor value).replica other = c.replica other := by
  rw [replica_writeAt, if_neg hne]

variable {actor : Uuid} {clock : VectorClock Uuid}

/-- At the end of its counter a write leaves the clock as it was. -/
lemma increment_of_exhausted (h : clock.get actor = u64Max) : clock.increment actor = clock := by
  refine ext_get fun other => ?_
  rw [get_increment]
  split_ifs with heq
  · rw [← heq, h, saturatingAdd]
    omega
  · rfl

/-- Below that it does not. -/
lemma lt_increment (h : clock.get actor < u64Max) : clock < clock.increment actor := by
  refine lt_of_le_of_ne (le_increment _ _) fun heq => ?_
  have hget := get_increment_of_lt h actor
  rw [← heq, if_pos rfl] at hget
  omega

section Exhausted

variable [LinearOrder ClusterOperationRecord]

lemma sampleOperation_lt {stage stage' : ClusterOperationStage} {time time' : ℕ}
    (h : stage.rank < stage'.rank ∨ stage = stage' ∧ time < time') :
    (sampleOperation stage' time').precedenceCmp (sampleOperation stage time) = .gt := by
  simp only [ClusterOperationRecord.precedenceCmp, sampleOperation]
  rcases h with hrank | ⟨rfl, htime⟩
  · rw [compare_gt_iff_gt.mpr hrank, Ordering.gt_then]
  · rw [compare_eq_iff_eq.mpr rfl, Ordering.eq_then, compare_gt_iff_gt.mpr htime, Ordering.gt_then]

/-- What is selected of one entry. -/
lemma selectReplicatedOperation_single
    (h : r.entries = [entry]) : selectReplicatedOperation r = some entry.value := by
  refine (clusterOperationRegAdapter.selected_eq_some_iff).mpr ?_
  have hself : entry.value.precedenceCmp entry.value = .eq := Std.ReflCmp.compare_self
  rw [MvReg.readValues, h]
  simp [clusterOperationRegAdapter, hself]

variable {value : ClusterOperationRecord}

/-- A later operation is written over a single earlier one. -/
lemma operationUpsertWrites_single (h : r.entries = [entry])
    (hgt : value.precedenceCmp entry.value = .gt) : operationUpsertWrites r value = true := by
  rw [operationUpsertWrites, selectReplicatedOperation_single h]
  exact beq_iff_eq.mpr hgt

variable {c : RegisterCluster ClusterOperationRecord Uuid}

lemma step_write (h : operationUpsertWrites (c.replica actor).reg value = true) :
    clusterOperationRegAdapter.step c (.write actor value) = some (c.writeAt actor value) :=
  congrArg some (if_pos h)

/-- A state that is or was some replica's may be merged. -/
lemma exists_step_merge (actor : Uuid)
    {t : ReplicaState ClusterOperationRecord Uuid} (h : t ∈ c.history) :
    ∃ source, clusterOperationRegAdapter.step c (.merge actor source) =
      some (c.mergeAt actor t) := by
  obtain ⟨source, hsource⟩ := mem_iff_getElem?.mp h
  exact ⟨source, Option.map_eq_some_iff.mpr ⟨t, hsource, rfl⟩⟩

/-- One node may write as often as there are counters. -/
lemma exists_reaches_counter (n : ℕ) (hn : n < u64Max) :
    ∃ (c : RegisterCluster ClusterOperationRecord Uuid) (clock : VectorClock Uuid),
      Reaches clusterOperationRegAdapter.step anyStep init c ∧
      (c.replica 0).reg.entries = [⟨clock, sampleOperation .proposed n⟩] ∧
      clock.get 0 = n + 1 ∧ clock.get 1 = 0 ∧ c.replica 0 ∈ c.history ∧
        (c.replica 1).reg = .new := by
  induction n with
  | zero =>
    obtain ⟨hentries, hmem⟩ := replica_writeAt_self init 0 (sampleOperation .proposed 0)
    have hzero : (⊥ : VectorClock Uuid).get 0 < u64Max := hn
    refine ⟨_, _, Reaches.refl.tail trivial (step_write rfl), hentries, ?_, ?_, hmem, ?_⟩
    · exact (get_increment_of_lt hzero 0).trans (if_pos rfl)
    · exact (get_increment_of_lt hzero 1).trans (if_neg (by decide))
    · rfl
  | succ n ih =>
    obtain ⟨c, clock, hreach, hentries, hzero, hone, -, hnew⟩ := ih (by omega)
    have hwrites := operationUpsertWrites_single hentries
      (sampleOperation_lt (.inr ⟨rfl, Nat.lt_succ_self n⟩))
    obtain ⟨hentries', hmem⟩ := replica_writeAt_self c 0 (sampleOperation .proposed (n + 1))
    rw [clock_of_single hentries] at hentries'
    have hlt : clock.get 0 < u64Max := hzero.trans_lt hn
    refine ⟨_, _, hreach.tail trivial (step_write hwrites), hentries', ?_, ?_, hmem, ?_⟩
    · rw [get_increment_of_lt hlt, if_pos rfl, hzero]
    · rw [get_increment_of_lt hlt, if_neg (by decide), hone]
    · rw [replica_writeAt_other _ _ (by decide), hnew]

end Exhausted

instance [LinearOrder ClusterOperationRecord] (act : RegisterAction ClusterOperationRecord Uuid) :
    Decidable (clusterOperationRegAdapter.CounterLeft c act) := by
  cases act <;> dsimp only [GuardedAdapter.CounterLeft] <;> infer_instance

/-- Node 0 prepares an operation while node 1 commits it; node 1 receives the preparation and
compacts. -/
theorem guarded_registers_monotone_sample :
    letI := someOrder Volumes.VolumeDriver
    letI := someOrder Volumes.VolumeSpecValue
    letI := someOrder ClusterOperationRecord
    ∃ c c' : RegisterCluster ClusterOperationRecord Uuid,
      Reaches clusterOperationRegAdapter.step clusterOperationRegAdapter.CounterLeft init c ∧
      Reaches clusterOperationRegAdapter.step clusterOperationRegAdapter.CounterLeft c c' ∧
      selectReplicatedOperation (c.replica 1).reg = some (sampleOperation .committed 0) ∧
      c'.history.map (fun state => state.reg.entries.length) = [0, 1, 1, 1, 1, 2, 1] ∧
      ∃ operation', selectReplicatedOperation (c'.replica 1).reg = some operation' ∧
        (sampleOperation .committed 0).precedenceCmp operation' ≠ .gt ∧
        ClusterOperationStage.committed.rank ≤ operation'.stage.rank := by
  let _ := someOrder Volumes.VolumeDriver
  let _ := someOrder Volumes.VolumeSpecValue
  let _ := someOrder ClusterOperationRecord
  have hreach : Reaches clusterOperationRegAdapter.step clusterOperationRegAdapter.CounterLeft init
      _ :=
    reaches_of_runActions [.write 0 (sampleOperation .proposed 0), .merge 1 1,
      .write 0 (sampleOperation .prepared 0), .write 1 (sampleOperation .committed 0)] rfl
  have hlater : ∀ {c c'}, runActions clusterOperationRegAdapter.step
      clusterOperationRegAdapter.CounterLeft c [.merge 1 3, .compact 1 1] = some c' →
      Reaches _ _ c c' := reaches_of_runActions _
  exact ⟨_, _, hreach, hlater rfl, by decide +kernel, by decide +kernel,
    (guarded_registers_monotone fun text => some text.length).2 _ _ hreach (hlater rfl) 1 _
      (by decide +kernel)⟩

/-- At the end of a counter a commit is replaced by an earlier stage. -/
theorem saturated_counter_takes_back :
    letI := someOrder ClusterOperationRecord
    ∃ c c' : RegisterCluster ClusterOperationRecord Uuid,
      Reaches clusterOperationRegAdapter.step anyStep init c ∧
      Reaches clusterOperationRegAdapter.step anyStep c c' ∧
      ∃ operation operation',
        selectReplicatedOperation (c.replica 0).reg = some operation ∧
        selectReplicatedOperation (c'.replica 0).reg = some operation' ∧
        operation'.stage.rank < operation.stage.rank := by
  let _ := someOrder ClusterOperationRecord
  obtain ⟨c₀, clock, hreach, hentries, hzero, hone, hmem, hnew⟩ :=
    exists_reaches_counter (u64Max - 1) (by decide)
  -- node 1 receives the last proposal
  obtain ⟨source, hmerge⟩ := exists_step_merge 1 hmem
  let c₁ := c₀.mergeAt 1 (c₀.replica 0)
  have hentries₁ : (c₁.replica 1).reg.entries =
      [⟨clock, sampleOperation .proposed (u64Max - 1)⟩] := by
    have hreplica : (c₁.replica 1).reg = (c₀.replica 1).reg.merge (c₀.replica 0).reg := by
      simp [c₁, mergeAt]
    rw [hreplica, hnew, ← perm_singleton, ← hentries]
    exact perm_merge_of_lt nofun
  have hentries₀ : (c₁.replica 0).reg.entries =
      [⟨clock, sampleOperation .proposed (u64Max - 1)⟩] := by
    rw [← hentries]
    simp [c₁, mergeAt]
  -- node 0 commits under the same clock
  have hcommit : operationUpsertWrites (c₁.replica 0).reg (sampleOperation .committed 0) = true :=
    operationUpsertWrites_single hentries₀ (sampleOperation_lt (.inl (by decide)))
  let c₂ := c₁.writeAt 0 (sampleOperation .committed 0)
  have hentries₂ : (c₂.replica 0).reg.entries = [⟨clock, sampleOperation .committed 0⟩] := by
    rw [(replica_writeAt_self c₁ 0 _).1, clock_of_single hentries₀, increment_of_exhausted hzero]
  -- node 1 has not heard of it and prepares under a greater one
  have hother : c₂.replica 1 = c₁.replica 1 := replica_writeAt_other _ _ (by decide)
  have hprepare : operationUpsertWrites (c₂.replica 1).reg (sampleOperation .prepared 0) = true :=
    operationUpsertWrites_single (hother ▸ hentries₁) (sampleOperation_lt (.inl (by decide)))
  let c₃ := c₂.writeAt 1 (sampleOperation .prepared 0)
  have hentries₃ : (c₃.replica 1).reg.entries =
      [⟨clock.increment 1, sampleOperation .prepared 0⟩] := by
    rw [(replica_writeAt_self c₂ 1 _).1, hother, clock_of_single hentries₁]
  -- node 0 receives that and drops its commit
  obtain ⟨source', hmerge'⟩ := exists_step_merge 0 (replica_writeAt_self c₂ 1 _).2
  let c₄ := c₃.mergeAt 0 (c₃.replica 1)
  have hentries₄ : (c₄.replica 0).reg.entries =
      [⟨clock.increment 1, sampleOperation .prepared 0⟩] := by
    have hreplica : (c₄.replica 0).reg = (c₂.replica 0).reg.merge (c₃.replica 1).reg := by
      have hkept : c₃.replica 0 = c₂.replica 0 := replica_writeAt_other _ _ (by decide)
      rw [← hkept]
      simp [c₄, mergeAt]
    rw [hreplica, ← perm_singleton, ← hentries₃]
    refine perm_merge_of_lt fun e he => ?_
    rw [hentries₂, mem_singleton] at he
    rw [hentries₃]
    exact ⟨_, mem_singleton_self _, he ▸ lt_increment (hone.trans_lt (by decide))⟩
  refine ⟨c₂, c₄, (hreach.tail trivial hmerge).tail trivial (step_write hcommit),
    (Reaches.refl.tail trivial (step_write hprepare)).tail trivial hmerge',
    sampleOperation .committed 0, sampleOperation .prepared 0,
    selectReplicatedOperation_single hentries₂,
      selectReplicatedOperation_single hentries₄, by decide⟩

end Cluster

end Mantissa
