import Mantissa.Store.RegisterLevels
import Mantissa.Workload.Gossip

/-!
# Gang admission

A gang of workloads is admitted as a whole. Its coordinator stores a record in a register that all
nodes share and moves it from `Preparing` to `CommitDecided` and `Completed`, or to `AbortDecided`;
a node that finds the record still `Preparing` after its lease has run out aborts it. Members are
adopted by a node that selects a record which allows it, and cleaned up by one that selects an
abort. A member whose node has no record at all is removed once its row is older than a lease.

An abort outranks every other phase, but only between records that are visible together. The
coordinator writes its decision without looking at the register, and gossip looks at it before it
waits for the store, so a write may replace an abort that had arrived. `decidesOnTop` excludes
that: a record of another phase is stored only where no abort is selected, and no row expires where
there is no record. Then aborts are never undone, in the sense of `Store/RegisterLevels`, and
`gang_all_or_nothing` follows.

Without it a gang commits after one of its members was cleaned up, either because the coordinator
overwrites an abort (`commit_overwrites_abort`) or because the member's row expired before the
record arrived, for which no abort is stored (`row_expires_without_abort`).
-/

namespace Mantissa.Workload

open List

/-! ## Records -/

/-- `WorkloadAdmissionGroupRecord`. -/
structure WorkloadAdmissionGroupRecord where
  id : Uuid
  scopeId : Uuid
  coordinatorNodeId : Uuid
  targetNodeIds : List Uuid
  workloadIds : List Uuid
  workloadCount : ℕ
  leaseExpiresAtUnixMs : ℕ
  phase : WorkloadAdmissionGroupPhase
  reason : Option String
  createdAt : String
  updatedAt : String
  deriving DecidableEq

/-- `WorkloadAdmissionGroupPhase::precedence_rank`. -/
def WorkloadAdmissionGroupPhase.precedenceRank : WorkloadAdmissionGroupPhase → ℕ
  | .preparing => 0
  | .commitDecided => 1
  | .completed => 2
  | .abortDecided => 3

/-- `requires_abort`. -/
def WorkloadAdmissionGroupPhase.requiresAbort : WorkloadAdmissionGroupPhase → Bool
  | .abortDecided => true
  | _ => false

lemma requiresAbort_iff {phase : WorkloadAdmissionGroupPhase} :
    phase.requiresAbort = true ↔ phase = .abortDecided := by
  cases phase <;> decide

/-- `is_preparing_expired`. -/
def WorkloadAdmissionGroupRecord.isPreparingExpired (record : WorkloadAdmissionGroupRecord)
    (nowUnixMs : ℕ) : Bool :=
  record.phase = .preparing && record.leaseExpiresAtUnixMs ≤ nowUnixMs

variable (rules : TextRules) (current candidate : WorkloadAdmissionGroupRecord)

/-- `should_accept_admission_group_record`. -/
def shouldAcceptAdmissionGroupRecord : Bool :=
  match compare candidate.phase.precedenceRank current.phase.precedenceRank with
  | .eq =>
    let byNode : Bool := current.coordinatorNodeId < candidate.coordinatorNodeId
    match rules.parseTimestamp current.updatedAt, rules.parseTimestamp candidate.updatedAt with
    | some currentTs, some candidateTs =>
      if currentTs < candidateTs then true else if candidateTs < currentTs then false else byNode
    | none, some _ => true
    | some _, none => false
    | none, none => byNode
  | order => order.isGT

/-- What records are selected by. -/
def recordKey (record : WorkloadAdmissionGroupRecord) : ℕ ×ₗ WithBot ℕ ×ₗ Uuid :=
  toLex (record.phase.precedenceRank,
    toLex (stampKey (rules.parseTimestamp record.updatedAt), record.coordinatorNodeId))

lemma shouldAcceptAdmissionGroupRecord_iff :
    shouldAcceptAdmissionGroupRecord rules current candidate = true ↔
      recordKey rules current < recordKey rules candidate := by
  unfold shouldAcceptAdmissionGroupRecord recordKey
  simp only [Prod.Lex.toLex_lt_toLex]
  rcases lt_trichotomy candidate.phase.precedenceRank current.phase.precedenceRank with h | h | h
  · simp [Nat.compare_eq_lt.mpr h, h.not_gt, h.ne']
  · simp only [h, Std.ReflCmp.compare_self, lt_irrefl, false_or, true_and]
    generalize rules.parseTimestamp current.updatedAt = currentTs
    generalize rules.parseTimestamp candidate.updatedAt = candidateTs
    cases currentTs with
    | none => cases candidateTs <;> simp [stampKey]
    | some currentTs =>
      cases candidateTs with
      | none => simp [stampKey]
      | some candidateTs =>
        simp only [stampKey]
        split_ifs with h₁ h₂
        · simp [h₁]
        · simp [h₂.not_gt, h₂.ne']
        · simp [le_antisymm (not_lt.mp h₂) (not_lt.mp h₁)]
  · simp [Nat.compare_eq_gt.mpr h, h]

/-- `select_best_admission_group_record`. -/
def selectBestAdmissionGroupRecord (values : List WorkloadAdmissionGroupRecord) :
    Option WorkloadAdmissionGroupRecord :=
  selectBest (shouldAcceptAdmissionGroupRecord rules) values

variable {rules} {record : WorkloadAdmissionGroupRecord}

/-- An abort that is visible is selected. -/
lemma selected_abort {values : List WorkloadAdmissionGroupRecord} (hmem : record ∈ values)
    (hphase : record.phase = .abortDecided) :
    ∃ best, selectBestAdmissionGroupRecord rules values = some best ∧
      best.phase = .abortDecided := by
  cases hbest : selectBestAdmissionGroupRecord rules values with
  | none => exact absurd hmem (selectBest_eq_none.mp hbest ▸ not_mem_nil)
  | some best =>
    refine ⟨best, rfl, ?_⟩
    have hle := (selectBest_spec (shouldAcceptAdmissionGroupRecord_iff rules) hbest).2 record hmem
    have hrank : record.phase.precedenceRank ≤ best.phase.precedenceRank := by
      rcases Prod.Lex.toLex_le_toLex.mp hle with h | h
      · exact h.le
      · exact h.1.le
    rw [hphase] at hrank
    cases hb : best.phase with
    | abortDecided => rfl
    | preparing => exact absurd (hb ▸ hrank) (by decide)
    | commitDecided => exact absurd (hb ▸ hrank) (by decide)
    | completed => exact absurd (hb ▸ hrank) (by decide)

variable (rules)

/-- `WorkloadCompactionRank`, for records. -/
def recordRank (entry : MvRegEntry WorkloadAdmissionGroupRecord Uuid) :
    ℕ ×ₗ WithBot ℕ ×ₗ Uuid ×ₗ WorkloadAdmissionGroupRecordᵒᵈ :=
  let record := entry.value
  toLex (record.phase.precedenceRank, toLex
    (stampKey (parseWorkloadTimestamp rules record.updatedAt record.createdAt),
      toLex (record.coordinatorNodeId, OrderDual.toDual record)))

/-- What is not to be undone. -/
def abortLevel (record : WorkloadAdmissionGroupRecord) : Bool := record.phase.requiresAbort

lemma abortLevel_eq_true :
    abortLevel record = true ↔ record.phase = .abortDecided := requiresAbort_iff

/-! ## Nodes -/

/-- Where the coordinator of the gang is: it holds the record it wrote last. -/
inductive Coordinator
  | idle
  | preparing (record : WorkloadAdmissionGroupRecord)
  | launching (record : WorkloadAdmissionGroupRecord)
  | failing (record : WorkloadAdmissionGroupRecord)
  | launched (record : WorkloadAdmissionGroupRecord)
  | done

/-- Why a node is about to store a record, and what it does next: nothing, clean up its members if
the abort was stored, or clean up one member in any case. -/
inductive PendingKind
  | gossip
  | groupExpiry
  | memberExpiry (workloadId : Uuid)
  deriving DecidableEq

/-- The clean-up does not depend on the store. -/
def PendingKind.isMemberExpiry : PendingKind → Bool
  | .memberExpiry _ => true
  | _ => false

/-- A record that a node decided to store and has not stored yet. -/
structure PendingRecord where
  record : WorkloadAdmissionGroupRecord
  kind : PendingKind

/-- The node that coordinates the gang, and where its members are. -/
structure GangSettings where
  rules : TextRules
  coordinator : Uuid
  nodeOf : Uuid → Uuid

/-- The registers of the group's record, its coordinator, what nodes are about to store, the row of
each member on its node, and which members were adopted and which cleaned up. -/
structure GangCluster where
  registers : RegisterCluster WorkloadAdmissionGroupRecord Uuid
  coordinator : Coordinator
  pending : Uuid → List PendingRecord
  rows : Uuid → Option WorkloadSpec
  adopted : List Uuid
  cleaned : List Uuid

/-- What happens to one gang. `stored` tells whether the store took the write; `row` is a row of
the group, or its removal, that reaches the node of a member. -/
inductive GangAction
  | row (workloadId : Uuid) (row : Option WorkloadSpec)
  | prepare (draft : WorkloadAdmissionGroupRecord)
  | commitDecided (now : String)
  | launch
  | launchFailed (reason : Option String) (now : String) (rollback : List Uuid) (stored : Bool)
  | completed (now : String)
  | abortDecided (reason : Option String) (now : String) (rollback : List Uuid) (stored : Bool)
  | deliver (node : Uuid) (write : ℕ)
  | expire (node : Uuid) (nowUnixMs : ℕ) (now : String)
  | reconcile (workloadId : Uuid) (nowUnixMs : ℕ) (now : String)
  | store (node : Uuid) (index : ℕ) (stored : Bool)
  | merge (node : Uuid) (source : ℕ)
  | compact (node : Uuid) (maxValues : ℕ)

/-- `advance_admission_group_record`, before it is stored. -/
def WorkloadAdmissionGroupRecord.advance (record : WorkloadAdmissionGroupRecord)
    (phase : WorkloadAdmissionGroupPhase) (reason : Option String) (now : String) :
    WorkloadAdmissionGroupRecord :=
  { record with phase, reason := reason.filter fun text => !rules.isBlank text, updatedAt := now }

/-- The abort of a record whose lease has run out. -/
def WorkloadAdmissionGroupRecord.expired (record : WorkloadAdmissionGroupRecord) (now : String) :
    WorkloadAdmissionGroupRecord :=
  record.advance rules .abortDecided
    (some "preparing gang admission expired before commit decision") now

/-- `DEFAULT_PREPARED_LEASE_TTL_MS`. -/
def defaultPreparedLeaseTtlMs : ℕ := 30000

/-- The test of `cleanup_expired_pending_group`: a row that waits for its group and is as old as a
lease. Parsed time stamps count milliseconds. -/
def WorkloadSpec.isPendingExpired (row : WorkloadSpec) (nowUnixMs : ℕ) : Bool :=
  row.definition.admissionState = .pendingGroup &&
    (parseWorkloadTimestamp rules row.status.updatedAt row.status.createdAt).any fun observedAt =>
      observedAt + defaultPreparedLeaseTtlMs ≤ nowUnixMs

/-- The row of an adopted member. -/
def WorkloadSpec.groupCommitted (row : WorkloadSpec) (now : String) : WorkloadSpec :=
  if row.definition.admissionState = .pendingGroup then
    ⟨{ row.status with updatedAt := now }, { row.definition with
      admissionState := .groupCommitted, leaseId := none, leaseCoordinatorNodeId := none }⟩
  else row

/-- The phases in which `cleanup_aborted_group_member` stops a member; otherwise it removes the
row. -/
def WorkloadPhase.stopsOnAbort : WorkloadPhase → Bool
  | .pulling | .creating | .volumeUnavailable | .running | .stopping => true
  | _ => false

namespace GangCluster

/-- No record and no row anywhere. -/
def initial : GangCluster := ⟨.init, .idle, fun _ => [], fun _ => none, [], []⟩

variable (c : GangCluster)

/-- A node stores a record. -/
def write (node : Uuid) (record : WorkloadAdmissionGroupRecord) : GangCluster :=
  { c with registers := c.registers.writeAt node record }

/-- A node is about to store a record. -/
def setPending (node : Uuid) (records : List PendingRecord) : GangCluster :=
  { c with pending := Function.update c.pending node records }

/-- `cleanup_aborted_group_member`, for those of some workloads that have a row. -/
def cleanUp (workloadIds : List Uuid) : GangCluster :=
  { c with
    cleaned := c.cleaned ++ workloadIds.filter fun id => (c.rows id).isSome
    rows := fun id =>
      if id ∈ workloadIds then (c.rows id).filter fun row => row.status.state.stopsOnAbort
      else c.rows id }

/-- The members a node cleans up after a store, whether it succeeded or not. -/
def cleanedUp (settings : GangSettings) (node : Uuid) (pending : PendingRecord) (stored : Bool) :
    List Uuid :=
  match pending.kind with
  | .gossip => []
  | .groupExpiry =>
    if stored then pending.record.workloadIds.filter fun id => settings.nodeOf id = node else []
  | .memberExpiry workloadId => [workloadId]

section Model

variable [LinearOrder WorkloadAdmissionGroupRecord] (settings : GangSettings) (c : GangCluster)

/-- `load_admission_group_record`. -/
def selected (node : Uuid) : Option WorkloadAdmissionGroupRecord :=
  selectBestAdmissionGroupRecord settings.rules (c.registers.replica node).reg.snapshot.vals

/-- `prepare_grouped_task_for_reconcile`, for the row of a member on its node. -/
def reconcileMember (workloadId nowUnixMs : ℕ) (now : String) (row : WorkloadSpec) : GangCluster :=
  let node := settings.nodeOf workloadId
  match c.selected settings node with
  | none =>
    -- `cleanup_expired_pending_group`, which stores no abort
    if row.isPendingExpired settings.rules nowUnixMs then
      { c with
        cleaned := c.cleaned ++ [workloadId], rows := Function.update c.rows workloadId none }
    else c
  | some record =>
    if record.phase.requiresAbort then c.cleanUp [workloadId]
    else if record.phase = .preparing then
      if record.isPreparingExpired nowUnixMs then
        c.setPending node
          (c.pending node ++ [⟨record.expired settings.rules now, .memberExpiry workloadId⟩])
      else c
    else if record.phase.allowsAdoption then
      { c with
        adopted := c.adopted ++ [workloadId]
        rows := Function.update c.rows workloadId (some (row.groupCommitted now)) }
    else c

/-- `abort_admission_group_record` of the coordinator, and the roll-back of the rows it wrote, which
does not wait for the abort to be stored. -/
def abort (record : WorkloadAdmissionGroupRecord)
    (reason : Option String) (now : String) (rollback : List Uuid) (stored : Bool) : GangCluster :=
  let next := record.advance settings.rules .abortDecided reason now
  let c := if stored then c.write settings.coordinator next else c
  { c with cleaned := c.cleaned ++ rollback }

/-- One step of the cluster. -/
def step : GangAction → Option GangCluster
  | .row workloadId row =>
    if row.all fun row => row.definition.admissionGroupId.isSome then
      some { c with rows := Function.update c.rows workloadId row }
    else none
  | .prepare draft =>
    match c.coordinator with
    | .idle =>
      let record := { draft with
        coordinatorNodeId := settings.coordinator, phase := .preparing, reason := none
        updatedAt := draft.createdAt }
      some { c.write settings.coordinator record with coordinator := .preparing record }
    | _ => none
  | .commitDecided now =>
    match c.coordinator with
    | .preparing record =>
      let next := record.advance settings.rules .commitDecided none now
      some { c.write settings.coordinator next with coordinator := .launching next }
    | _ => none
  | .launch =>
    match c.coordinator with
    | .launching record =>
      some { c with
        coordinator := .launched record
        adopted := c.adopted ++
          record.workloadIds.filter fun id => settings.nodeOf id = settings.coordinator }
    | _ => none
  | .completed now =>
    match c.coordinator with
    | .launched record =>
      some { c.write settings.coordinator (record.advance settings.rules .completed none now) with
        coordinator := .done }
    | _ => none
  | .launchFailed reason now rollback stored =>
    match c.coordinator with
    | .launching record =>
      some { c.abort settings record reason now rollback stored with
        coordinator := .failing record }
    | _ => none
  | .abortDecided reason now rollback stored =>
    match c.coordinator with
    | .preparing record | .launching record | .failing record =>
      some { c.abort settings record reason now rollback stored with coordinator := .done }
    | _ => none
  | .deliver node write =>
    c.registers.writes[write]?.map fun w =>
      if (c.selected settings node).any fun current =>
          !shouldAcceptAdmissionGroupRecord settings.rules current w.entry.value then c
      else c.setPending node (c.pending node ++ [⟨w.entry.value, .gossip⟩])
  | .expire node nowUnixMs now =>
    (c.selected settings node).map fun record =>
      if record.isPreparingExpired nowUnixMs then
        c.setPending node
          (c.pending node ++ [⟨record.expired settings.rules now, .groupExpiry⟩])
      else if record.phase.requiresAbort then
        c.cleanUp (record.workloadIds.filter fun id => settings.nodeOf id = node)
      else c
  | .reconcile workloadId nowUnixMs now =>
    (c.rows workloadId).map (c.reconcileMember settings workloadId nowUnixMs now)
  | .store node index stored =>
    (c.pending node)[index]?.map fun pending =>
      let c' := c.setPending node ((c.pending node).eraseIdx index)
      let c' := if stored then c'.write node pending.record else c'
      c'.cleanUp (cleanedUp settings node pending stored)
  | .merge node source =>
    c.registers.history[source]?.map fun state =>
      { c with registers := c.registers.mergeAt node state }
  | .compact node maxValues =>
    some { c with registers := c.registers.compactAt (recordRank settings.rules) node maxValues }

/-- The node does not select an abort, and its write counter is not at its end. -/
def undecided (node : Uuid) : Prop :=
  (c.registers.replica node).reg.clock.get node < u64Max ∧
    ∀ record ∈ c.selected settings node, record.phase ≠ .abortDecided

/-- A record of another phase is stored only where no abort is selected, an abort for which members
are cleaned up is stored, and no row has expired where there is no record. -/
def decidesOnTop : GangAction → Prop
  | .prepare _ | .commitDecided _ | .completed _ => c.undecided settings settings.coordinator
  | .launchFailed _ _ _ stored | .abortDecided _ _ _ stored => stored = true ∧
      (c.registers.replica settings.coordinator).reg.clock.get settings.coordinator < u64Max
  | .store node index stored => ∀ pending ∈ (c.pending node)[index]?,
      (c.registers.replica node).reg.clock.get node < u64Max ∧
      (pending.record.phase ≠ .abortDecided → c.undecided settings node) ∧
      (pending.kind.isMemberExpiry = true → stored = true)
  | .reconcile workloadId nowUnixMs _ =>
    (c.selected settings (settings.nodeOf workloadId)).isNone = true →
      ∀ row ∈ c.rows workloadId, row.isPendingExpired settings.rules nowUnixMs = false
  | _ => True

instance (node : Uuid) : Decidable (c.undecided settings node) :=
  inferInstanceAs (Decidable (_ ∧ _))

instance (action : GangAction) : Decidable (c.decidesOnTop settings action) := by
  cases action <;> dsimp only [decidesOnTop] <;> infer_instance

end Model

/-! ## Runs -/

variable {settings : GangSettings} {c c' : GangCluster} {node : Uuid}

/-- What every run that decides on top maintains: aborts stay on top, members are cleaned up only
for an abort that was stored, and what a node stores for an expiry is an abort. -/
structure Invariant (c : GangCluster) : Prop where
  rising : c.registers.Rising abortLevel
  heard : c.registers.Heard
  cleaned : c.cleaned ≠ [] → ∃ w ∈ c.registers.writes, w.entry.value.phase = .abortDecided
  pending : ∀ node, ∀ pending ∈ c.pending node, pending.kind ≠ .gossip →
    pending.record.phase = .abortDecided

lemma invariant_initial : (initial : GangCluster).Invariant where
  rising := RegisterCluster.rising_init
  heard := RegisterCluster.heard_init
  cleaned h := absurd rfl h
  pending node pending hpending := by cases hpending

variable (h : c.Invariant)

include h

/-- An abort may be stored anywhere. -/
lemma Invariant.writeAbort (hcounts : (c.registers.replica node).reg.clock.get node < u64Max)
    (hphase : record.phase = .abortDecided) : (c.write node record).Invariant where
  rising := by
    refine h.rising.writeAt ⟨hcounts, fun e _ => ?_⟩
    rw [abortLevel_eq_true.mpr hphase]
    exact Bool.le_true _
  heard := h.heard.writeAt h.rising.toCausal
  cleaned _ := ⟨c.registers.nextWrite node record, mem_append_right _ (mem_singleton_self _),
    hphase⟩
  pending := h.pending

lemma Invariant.setCoordinator (coordinator : Coordinator) :
    { c with coordinator }.Invariant := ⟨h.rising, h.heard, h.cleaned, h.pending⟩

/-- Members may be cleaned up once an abort was stored. -/
lemma Invariant.cleanUp {cleaned : List Uuid} {rows : Uuid → Option WorkloadSpec}
    (habort : ∃ w ∈ c.registers.writes, w.entry.value.phase = .abortDecided) :
    { c with cleaned, rows }.Invariant := ⟨h.rising, h.heard, fun _ => habort, h.pending⟩

lemma Invariant.setRows (rows : Uuid → Option WorkloadSpec) : { c with rows }.Invariant :=
  ⟨h.rising, h.heard, h.cleaned, h.pending⟩

lemma Invariant.setPending {records : List PendingRecord}
    (hrecords : ∀ pending ∈ records, pending.kind ≠ .gossip →
      pending.record.phase = .abortDecided) : (c.setPending node records).Invariant where
  rising := h.rising
  heard := h.heard
  cleaned := h.cleaned
  pending other := by
    simp only [GangCluster.setPending, Function.update_apply]
    split_ifs
    · exact hrecords
    · exact h.pending other

lemma Invariant.addPending {pending : PendingRecord}
    (hpending : pending.kind ≠ .gossip → pending.record.phase = .abortDecided) :
    (c.setPending node (c.pending node ++ [pending])).Invariant := by
  refine h.setPending fun other hother => ?_
  rcases mem_append.mp hother with hother | hother
  · exact h.pending node other hother
  · obtain rfl := mem_singleton.mp hother
    exact hpending

/-- The coordinator stores an abort and rolls back. -/
lemma Invariant.abort (record : WorkloadAdmissionGroupRecord)
    (reason : Option String) (now : String) (rollback : List Uuid)
    (hcounts : (c.registers.replica settings.coordinator).reg.clock.get settings.coordinator
      < u64Max) (coordinator : Coordinator) :
    { c.abort settings record reason now rollback true with coordinator }.Invariant ∧
      c.registers.Extends (c.abort settings record reason now rollback true).registers := by
  have hwrite : (c.write settings.coordinator
      (record.advance settings.rules .abortDecided reason now)).Invariant :=
    h.writeAbort hcounts rfl
  refine ⟨(hwrite.cleanUp ?_).setCoordinator coordinator, RegisterCluster.extends_writeAt ..⟩
  exact ⟨_, mem_append_right _ (mem_singleton_self _), rfl⟩

omit h

section Steps

variable [LinearOrder WorkloadAdmissionGroupRecord]

/-- An abort that a node shows is the one it selects. -/
lemma selected_of_abort {e : MvRegEntry WorkloadAdmissionGroupRecord Uuid}
    (he : e ∈ (c.registers.replica node).reg.entries) (hphase : e.value.phase = .abortDecided) :
    ∃ record, c.selected settings node = some record ∧ record.phase = .abortDecided := by
  refine selected_abort ?_ hphase
  rw [MvReg.mem_vals_snapshot, MvReg.mem_readValues]
  exact ⟨e, he, rfl⟩

variable (h : c.Invariant)

include h

/-- Another record may be stored where no abort is selected. -/
lemma Invariant.writeUndecided (record : WorkloadAdmissionGroupRecord)
    (hundecided : c.undecided settings node) : (c.write node record).Invariant where
  rising := by
    refine h.rising.writeAt ⟨hundecided.1, fun e he => ?_⟩
    have hlevel : abortLevel e.value = false := by
      rw [← Bool.not_eq_true, abortLevel_eq_true]
      intro hphase
      obtain ⟨best, hbest, hbestphase⟩ := selected_of_abort he hphase
      exact hundecided.2 best hbest hbestphase
    rw [hlevel]
    exact Bool.false_le _
  heard := h.heard.writeAt h.rising.toCausal
  cleaned hcleaned := by
    obtain ⟨w, hw, hphase⟩ := h.cleaned hcleaned
    exact ⟨w, mem_append_left _ hw, hphase⟩
  pending := h.pending

/-- The abort a node selects was stored by someone. -/
lemma Invariant.exists_abort
    (hselected : c.selected settings node = some record) (hphase : record.phase = .abortDecided) :
    ∃ w ∈ c.registers.writes, w.entry.value.phase = .abortDecided := by
  have hmem := (selectBest_spec (shouldAcceptAdmissionGroupRecord_iff settings.rules) hselected).1
  rw [MvReg.mem_vals_snapshot, MvReg.mem_readValues] at hmem
  obtain ⟨e, he, rfl⟩ := hmem
  obtain ⟨w, hw, hvalue, -⟩ := h.rising.origin _ (h.rising.replica_mem node) e he
  exact ⟨w, hw, hvalue ▸ hphase⟩

/-- A member is cleaned up where an abort is selected, adopted where a commit is. -/
lemma Invariant.reconcileMember {workloadId nowUnixMs : ℕ} {now : String} {row : WorkloadSpec}
    (hrow : c.rows workloadId = some row)
    (hok : c.decidesOnTop settings (.reconcile workloadId nowUnixMs now)) :
    (c.reconcileMember settings workloadId nowUnixMs now row).Invariant ∧
      c.registers.Extends (c.reconcileMember settings workloadId nowUnixMs now row).registers := by
  simp only [GangCluster.reconcileMember]
  cases hselected : c.selected settings (settings.nodeOf workloadId) with
  | none =>
    have hfresh := hok (by rw [hselected, Option.isNone_none]) row hrow
    simp only [hfresh, Bool.false_eq_true, if_false]
    exact ⟨h, .refl _⟩
  | some record =>
    simp only
    split_ifs with habort hpreparing hexpired hadopts
    · exact ⟨h.cleanUp (h.exists_abort hselected (requiresAbort_iff.mp habort)), .refl _⟩
    · exact ⟨h.addPending fun _ => rfl, .refl _⟩
    · exact ⟨h, .refl _⟩
    · exact ⟨⟨h.rising, h.heard, h.cleaned, h.pending⟩, .refl _⟩
    · exact ⟨h, .refl _⟩

/-- A node stores what it decided to, and cleans up only after an abort. -/
lemma Invariant.store {index : ℕ} {stored : Bool} {pending : PendingRecord}
    (hpending : (c.pending node)[index]? = some pending)
    (hok : c.decidesOnTop settings (.store node index stored))
    (hstep : c.step settings (.store node index stored) = some c') :
    c'.Invariant ∧ c.registers.Extends c'.registers := by
  obtain ⟨hcounts, hundecided, hmember⟩ := hok pending hpending
  simp only [step, hpending, Option.map_some, Option.some.injEq] at hstep
  have herase : (c.setPending node ((c.pending node).eraseIdx index)).Invariant :=
    h.setPending fun other hother => h.pending node other (mem_of_mem_eraseIdx hother)
  cases stored with
  | false =>
    -- nothing is cleaned up: only a member's expiry would, and that is stored
    have hnone : cleanedUp settings node pending false = [] := by
      unfold cleanedUp
      cases hkind : pending.kind with
      | gossip => rfl
      | groupExpiry => rfl
      | memberExpiry workloadId => exact absurd (hmember (by rw [hkind]; rfl)) (by decide)
    simp only [hnone, GangCluster.cleanUp, filter_nil, append_nil, Bool.false_eq_true,
      if_false] at hstep
    exact hstep ▸ ⟨herase.setRows _, .refl _⟩
  | true =>
    subst hstep
    refine ⟨?_, RegisterCluster.extends_writeAt ..⟩
    by_cases hphase : pending.record.phase = .abortDecided
    · exact (herase.writeAbort hcounts hphase).cleanUp
        ⟨_, mem_append_right _ (mem_singleton_self _), hphase⟩
    · have hkind : pending.kind = .gossip := by
        by_contra hkind
        exact hphase (h.pending node pending (mem_of_getElem? hpending) hkind)
      have hnone : cleanedUp settings node pending true = [] := by rw [cleanedUp, hkind]
      have hundecided' :
          (c.setPending node ((c.pending node).eraseIdx index)).undecided settings node :=
        hundecided hphase
      have hwrite := herase.writeUndecided pending.record hundecided'
      rw [hnone, GangCluster.cleanUp, filter_nil, append_nil]
      exact hwrite.setRows _

/-- **Every step that decides on top maintains the invariant**, and no register forgets. -/
lemma Invariant.keep {action : GangAction}
    (hok : c.decidesOnTop settings action) (hstep : c.step settings action = some c') :
    c'.Invariant ∧ c.registers.Extends c'.registers := by
  cases action with
  | row workloadId row =>
    simp only [step] at hstep
    split_ifs at hstep
    exact Option.some.inj hstep ▸ ⟨h.setRows _, .refl _⟩
  | prepare | commitDecided | completed =>
    simp only [step] at hstep
    split at hstep <;> cases hstep
    exact ⟨(h.writeUndecided _ hok).setCoordinator _, RegisterCluster.extends_writeAt ..⟩
  | launch =>
    simp only [step] at hstep
    split at hstep <;> cases hstep
    exact ⟨⟨h.rising, h.heard, h.cleaned, h.pending⟩, .refl _⟩
  | launchFailed reason now rollback stored =>
    obtain ⟨rfl, hcounts⟩ := hok
    simp only [step] at hstep
    split at hstep <;> cases hstep
    exact h.abort _ reason now rollback hcounts _
  | abortDecided reason now rollback stored =>
    obtain ⟨rfl, hcounts⟩ := hok
    simp only [step] at hstep
    split at hstep <;> cases hstep
    all_goals exact h.abort _ reason now rollback hcounts _
  | deliver node write =>
    obtain ⟨w, hw, rfl⟩ := Option.map_eq_some_iff.mp hstep
    split_ifs
    · exact ⟨h, .refl _⟩
    · exact ⟨h.addPending fun hkind => absurd rfl hkind, .refl _⟩
  | expire node nowUnixMs now =>
    obtain ⟨record, hselected, rfl⟩ := Option.map_eq_some_iff.mp hstep
    split_ifs with hexpired habort
    · exact ⟨h.addPending fun _ => rfl, .refl _⟩
    · exact ⟨h.cleanUp (h.exists_abort hselected (requiresAbort_iff.mp habort)), .refl _⟩
    · exact ⟨h, .refl _⟩
  | reconcile workloadId nowUnixMs now =>
    obtain ⟨row, hrow, rfl⟩ := Option.map_eq_some_iff.mp hstep
    exact h.reconcileMember hrow hok
  | store node index stored =>
    obtain ⟨pending, hpending, -⟩ := Option.map_eq_some_iff.mp hstep
    exact h.store hpending hok hstep
  | merge node source =>
    obtain ⟨state, hstate, rfl⟩ := Option.map_eq_some_iff.mp hstep
    have hmem := mem_of_getElem? hstate
    exact ⟨⟨h.rising.mergeAt hmem node, h.heard.mergeAt h.rising.toCausal hmem node, h.cleaned,
      h.pending⟩, RegisterCluster.extends_mergeAt c.registers node state⟩
  | compact node maxValues =>
    cases hstep
    have hlevel (e f : MvRegEntry WorkloadAdmissionGroupRecord Uuid)
        (h : recordRank settings.rules e ≤ recordRank settings.rules f) :
        abortLevel e.value ≤ abortLevel f.value := by
      have hrank : e.value.phase.precedenceRank ≤ f.value.phase.precedenceRank :=
        (Prod.Lex.toLex_le_toLex.mp h).elim le_of_lt fun h => h.1.le
      unfold abortLevel
      revert hrank
      cases e.value.phase <;> cases f.value.phase <;> decide
    exact ⟨⟨h.rising.compactAt hlevel node maxValues,
      h.heard.compactAt h.rising.toCausal node maxValues, h.cleaned, h.pending⟩,
      RegisterCluster.extends_compactAt c.registers _ node maxValues⟩

lemma Invariant.of_reaches (hrun : Reaches (step settings) (decidesOnTop settings) c c') :
    c'.Invariant ∧ c.registers.Extends c'.registers := by
  refine hrun.invariant (P := fun d => d.Invariant ∧ c.registers.Extends d.registers)
    ⟨h, .refl _⟩ ?_
  intro x y action hx hok hstep
  obtain ⟨hy, hext⟩ := hx.1.keep hok hstep
  exact ⟨hy, hx.2.trans hext⟩

/-- A node that has received an abort selects one. -/
lemma Invariant.selected_of_received {i : ℕ}
    {w : WriteRecord WorkloadAdmissionGroupRecord Uuid} (hw : c.registers.writes[i]? = some w)
    (hphase : w.entry.value.phase = .abortDecided) (hi : i ∈ (c.registers.replica node).received) :
    ∃ record, c.selected settings node = some record ∧ record.phase = .abortDecided := by
  obtain ⟨f, hf, hle⟩ := h.rising.exists_ge_of_received h.heard hw hi
  rw [abortLevel_eq_true.mpr hphase] at hle
  exact selected_of_abort hf (abortLevel_eq_true.mp (Bool.eq_true_of_true_le hle))

end Steps

end GangCluster

open GangCluster

/-- **Gang admission is all or nothing.** In every run that decides on top: once an abort of the
group was stored on any node, every node that receives it selects an abort from then on; and once a
member was cleaned up as aborted, no node that has received everything selects a record that allows
adoption. -/
theorem gang_all_or_nothing [LinearOrder WorkloadAdmissionGroupRecord] (settings : GangSettings)
    {c : GangCluster} (h : Reaches (step settings) (decidesOnTop settings) initial c) :
    (∀ (i : ℕ) (w : WriteRecord WorkloadAdmissionGroupRecord Uuid),
      c.registers.writes[i]? = some w → w.entry.value.phase = .abortDecided →
      ∀ c', Reaches (step settings) (decidesOnTop settings) c c' →
      ∀ node, i ∈ (c'.registers.replica node).received →
      ∃ record, c'.selected settings node = some record ∧ record.phase = .abortDecided) ∧
    ∀ member ∈ c.cleaned,
      ∀ c', Reaches (step settings) (decidesOnTop settings) c c' →
      ∀ node, (∀ i < c'.registers.writes.length, i ∈ (c'.registers.replica node).received) →
      ∀ record, c'.selected settings node = some record → record.phase.allowsAdoption = false := by
  obtain ⟨hinv, -⟩ := invariant_initial.of_reaches h
  constructor
  · intro i w hw hphase c' hrun node hi
    obtain ⟨hinv', hext⟩ := hinv.of_reaches hrun
    exact hinv'.selected_of_received (hext.writes i w hw) hphase hi
  · intro member hmember c' hrun node hall record hrecord
    obtain ⟨hinv', hext⟩ := hinv.of_reaches hrun
    obtain ⟨w, hw, hphase⟩ := hinv.cleaned (ne_nil_of_mem hmember)
    obtain ⟨i, hi⟩ := mem_iff_getElem?.mp hw
    have hwrite := hext.writes i w hi
    obtain ⟨best, hbest, hbestphase⟩ := hinv'.selected_of_received hwrite hphase
      (hall i (List.getElem?_eq_some_iff.mp hwrite).1)
    obtain rfl := Option.some.inj (hrecord.symm.trans hbest)
    rw [hbestphase]
    rfl

/-! ## Gangs that commit in part -/

/-- Node 0 coordinates workload 10 on node 0 and workload 11 on node 1. -/
def pairSettings : GangSettings := ⟨⟨fun _ => some 0, fun _ => false⟩, 0, fun id => id % 10⟩

/-- The record of the pair, whose lease runs out at 100. -/
def pairRecord : WorkloadAdmissionGroupRecord where
  id := 5
  scopeId := 1
  coordinatorNodeId := 0
  targetNodeIds := [0, 1]
  workloadIds := [10, 11]
  workloadCount := 2
  leaseExpiresAtUnixMs := 100
  phase := .preparing
  reason := none
  createdAt := ""
  updatedAt := ""

/-- The row of workload 11 that the coordinator sends to node 1. -/
def pairRow : WorkloadSpec :=
  let spec := gossipSpec 1 []
  ⟨{ spec.status with id := 11 }, { spec.definition with
    leaseId := some 3, leaseCoordinatorNodeId := some 0, admissionGroupId := some 5
    admissionState := .pendingGroup }⟩

/-- The coordinator prepares, and node 1 hears of it. The lease runs out on node 1, which stores an
abort and cleans up its member; the coordinator hears of that. -/
def pairAborts : List GangAction :=
  [.prepare pairRecord, .merge 1 1, .row 11 (some pairRow), .reconcile 11 100 "", .store 1 0 true,
    .merge 0 3]

/-- The coordinator commits, launches its own member and completes. -/
def pairCompletes : List GangAction := [.commitDecided "", .launch, .completed ""]

section Sample

variable [LinearOrder WorkloadAdmissionGroupRecord]

/-- Both nodes have received everything and select `Completed`, with workload 10 adopted and
workload 11 cleaned up. -/
def SplitPair (c : GangCluster) : Prop :=
  (∀ node ∈ [0, 1],
    (∀ i < c.registers.writes.length, i ∈ (c.registers.replica node).received) ∧
      ∃ record ∈ c.selected pairSettings node, record.phase = .completed) ∧
  10 ∈ c.adopted ∧ 11 ∈ c.cleaned

instance : DecidablePred SplitPair := fun _ => inferInstanceAs (Decidable (_ ∧ _))

end Sample

/-- Once the abort of node 1 has reached the coordinator, its node selects an abort. -/
theorem gang_all_or_nothing_pair :
    letI := someOrder WorkloadAdmissionGroupRecord
    ∃ c : GangCluster, Reaches (step pairSettings) (decidesOnTop pairSettings) initial c ∧
      11 ∈ c.cleaned ∧
      ∃ record, c.selected pairSettings 0 = some record ∧ record.phase = .abortDecided := by
  let _ := someOrder WorkloadAdmissionGroupRecord
  have hrun : Reaches (step pairSettings) (decidesOnTop pairSettings) initial _ :=
    reaches_of_runActions pairAborts rfl
  exact ⟨_, hrun, by decide +kernel,
    (gang_all_or_nothing pairSettings hrun).1 1 _ rfl rfl _ .refl 0 (by decide +kernel)⟩

/-- **A commit overwrites an abort.** Node 1 stores an abort of the expired record and cleans up
its member; the abort reaches the coordinator and is selected there. The coordinator then commits
and completes all the same, and its record replaces the abort everywhere. -/
theorem commit_overwrites_abort :
    letI := someOrder WorkloadAdmissionGroupRecord
    ∃ aborted completed : GangCluster,
      Reaches (step pairSettings) anyStep initial aborted ∧
      (∃ record ∈ aborted.selected pairSettings 0, record.phase = .abortDecided) ∧
      Reaches (step pairSettings) anyStep aborted completed ∧ SplitPair completed := by
  let _ := someOrder WorkloadAdmissionGroupRecord
  exact ⟨_, _, reaches_of_runActions pairAborts rfl, by decide +kernel,
    reaches_of_runActions (pairCompletes ++ [.merge 1 6]) rfl, by decide +kernel⟩

/-- **A row expires without an abort.** The row of workload 11 reaches node 1 before the record
does, and after 30 seconds node 1 removes it. Nobody stores an abort, and the coordinator commits.
-/
theorem row_expires_without_abort :
    letI := someOrder WorkloadAdmissionGroupRecord
    ∃ c : GangCluster, Reaches (step pairSettings) anyStep initial c ∧ SplitPair c ∧
      ∀ w ∈ c.registers.writes, w.entry.value.phase ≠ .abortDecided := by
  exact exists_reaches_of_runActions ([.prepare pairRecord, .row 11 (some pairRow),
    .reconcile 11 30000 ""] ++ pairCompletes ++ [.merge 1 3]) (by decide +kernel)

end Mantissa.Workload
