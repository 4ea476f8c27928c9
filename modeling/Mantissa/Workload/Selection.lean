import Mantissa.Store.MvReg
import Mantissa.Workload.Model

/-!
# Which row of a workload counts

A workload's register may hold several values at once: rows that were written concurrently, and
removals, each of which covers every row up to a task epoch. `selectBestWorkloadValue` picks the
row everyone goes by. Between two rows the causal tuple decides (task epoch, phase version, time
stamp, phase), then completeness, then the node.

The comparisons of the source are chains of early returns; each is shown to be the order of a key
(`causalKey`, `preferKey`), and later files reason about keys only. The rest of the module is what
a node computes from the values it reads before it writes: the row a specification, a status or a
local phase change leads to, the check of a persist, and the removal a `Remove` stores.
-/

namespace Mantissa

open List

/-- Pairs are compared by their first and then by their second component. -/
lemma compare_toLex {α β : Type*} [LinearOrder α] [LinearOrder β] (a c : α) (b d : β) :
    compare (toLex (a, b)) (toLex (c, d)) = (compare a c).then (compare b d) := by
  rfl

/-- An order of the rows of a sample, where the derived order plays no part. -/
@[reducible]
noncomputable def someOrder (T : Type) : LinearOrder T :=
  IsWellOrder.linearOrder WellOrderingRel

namespace Workload

/-! ## Picking one of several -/

section Pick

variable {α K : Type*} [LinearOrder K]

/-- The loop of the selectors: keep the best so far, replace it by what is better. -/
def selectBest (better : α → α → Bool) (values : List α) : Option α :=
  values.foldl (fun best value =>
    match best with
    | none => some value
    | some current => if better current value then some value else some current) none

variable {better : α → α → Bool} {key : α → K}

/-- What the loop holds after some values: one of them, and none of them is better. -/
private lemma selectBest_fold {s : Set α} (htrans : ∀ a ∈ s, ∀ b ∈ s, ∀ c ∈ s, better a b = true →
      better b c = true → better a c = true) (hirrefl : ∀ a ∈ s, ¬ better a a = true) :
    ∀ (values : List α) (current : α), (∀ v ∈ values, v ∈ s) → current ∈ s → ∃ best,
      values.foldl (fun best value =>
        match best with
        | none => some value
        | some current => if better current value then some value else some current)
        (some current) = some best ∧ (best = current ∨ best ∈ values) ∧
      (∀ u ∈ s, ¬ better current u = true → ¬ better best u = true) ∧
      ∀ v ∈ values, ¬ better best v = true := by
  intro values
  induction values with
  | nil => exact fun current _ _ => ⟨current, rfl, .inl rfl, fun _ _ h => h, by simp⟩
  | cons v values ih =>
    intro current hvalues hcurrent
    obtain ⟨hv, hvalues⟩ := forall_mem_cons.mp hvalues
    simp only [foldl_cons, forall_mem_cons]
    by_cases hbetter : better current v = true
    · obtain ⟨best, heq, hmem, hkept, hall⟩ := ih v hvalues hv
      refine ⟨best, ?_, .inr (mem_cons.mpr hmem), ?_, hkept v hv (hirrefl v hv), hall⟩
      · rw [if_pos hbetter]
        exact heq
      · intro u hu hnot
        exact hkept u hu fun h => hnot (htrans current hcurrent v hv u hu hbetter h)
    · obtain ⟨best, heq, hmem, hkept, hall⟩ := ih current hvalues hcurrent
      refine ⟨best, ?_, hmem.imp_right (mem_cons_of_mem v), hkept, hkept v hv hbetter, hall⟩
      rw [if_neg hbetter]
      exact heq

lemma selectBest_eq_none : ∀ {values : List α}, selectBest better values = none ↔ values = []
  | [] => by simp [selectBest]
  | v :: values => by
    have hsome : ∀ (l : List α) (current : α), l.foldl (fun best value =>
        match best with
        | none => some value
        | some current => if better current value then some value else some current)
        (some current) ≠ none := by
      intro l
      induction l with
      | nil => exact fun _ => Option.some_ne_none _
      | cons w l ih =>
        intro current
        simp only [foldl_cons]
        split_ifs
        · exact ih w
        · exact ih current
    simpa [selectBest] using hsome values v

variable {values : List α}

/-- **The pick is one of the values, and none of them is better**, where being better is
transitive. -/
lemma selectBest_unbeaten {s : Set α} (htrans : ∀ a ∈ s, ∀ b ∈ s, ∀ c ∈ s, better a b = true →
      better b c = true → better a c = true) (hirrefl : ∀ a ∈ s, ¬ better a a = true)
    (hvalues : ∀ v ∈ values, v ∈ s) {best : α} (h : selectBest better values = some best) :
    best ∈ values ∧ ∀ v ∈ values, ¬ better best v = true := by
  cases values with
  | nil => cases h
  | cons v values =>
    obtain ⟨hv, hvalues⟩ := forall_mem_cons.mp hvalues
    obtain ⟨best', heq, hmem, hkept, hall⟩ := selectBest_fold htrans hirrefl values v hvalues hv
    obtain rfl : best' = best := Option.some.inj (heq.symm.trans h)
    exact ⟨mem_cons.mpr hmem, forall_mem_cons.mpr ⟨hkept v hv (hirrefl v hv), hall⟩⟩

/-- The pick has the greatest key. -/
lemma selectBest_spec (hkey : ∀ a b, better a b = true ↔ key a < key b) {best : α}
    (h : selectBest better values = some best) :
    best ∈ values ∧ ∀ v ∈ values, key v ≤ key best := by
  have htrans : ∀ a ∈ Set.univ, ∀ b ∈ Set.univ, ∀ c ∈ Set.univ, better a b = true →
      better b c = true → better a c = true := by
    intro a _ b _ c _ hab hbc
    exact (hkey a c).mpr (((hkey a b).mp hab).trans ((hkey b c).mp hbc))
  have hirrefl : ∀ a ∈ Set.univ, ¬ better a a = true := fun a _ ha => lt_irrefl _ ((hkey a a).mp ha)
  obtain ⟨hmem, hbest⟩ := selectBest_unbeaten htrans hirrefl (fun v _ => Set.mem_univ v) h
  refine ⟨hmem, ?_⟩
  intro v hv
  exact not_lt.mp fun hlt => hbest v hv ((hkey best v).mpr hlt)

end Pick

/-- `saturating_add(1)` on a `u64`. -/
def saturatingSucc (n : ℕ) : ℕ := if n < u64Max then n + 1 else n

lemma le_saturatingSucc (n : ℕ) : n ≤ saturatingSucc n := by
  unfold saturatingSucc
  split_ifs <;> omega

/-! ## Causal order -/

/-- What the code asks of texts: how a time stamp parses, and whether a text is blank. -/
structure TextRules where
  parseTimestamp : String → Option ℕ
  isBlank : String → Bool

variable (rules : TextRules)

/-- `parse_workload_timestamp`. -/
def parseWorkloadTimestamp (updatedAt createdAt : String) : Option ℕ :=
  (rules.parseTimestamp updatedAt).or (rules.parseTimestamp createdAt)

variable (current candidate : WorkloadStatus)

/-- `compare_workload_causality_record`, on the fields rows, specifications and statuses share. -/
def compareWorkloadCausality : Ordering :=
  match compare candidate.taskEpoch current.taskEpoch with
  | .eq =>
    match compare candidate.phaseVersion current.phaseVersion with
    | .eq =>
      let byRank := compare candidate.state.precedenceRank current.state.precedenceRank
      match parseWorkloadTimestamp rules current.updatedAt current.createdAt,
        parseWorkloadTimestamp rules candidate.updatedAt candidate.createdAt with
      | some currentTs, some candidateTs =>
        if currentTs < candidateTs then .gt else if candidateTs < currentTs then .lt else byRank
      | none, some _ => .gt
      | some _, none => .lt
      | none, none => byRank
    | order => order
  | order => order

/-- A time stamp that does not parse comes before every one that does. -/
def stampKey : Option ℕ → WithBot ℕ
  | none => ⊥
  | some stamp => (stamp : WithBot ℕ)

/-- The comparison of optional time stamps. -/
def compareStamps : Option ℕ → Option ℕ → Ordering
  | some left, some right => compare left right
  | none, some _ => .lt
  | some _, none => .gt
  | none, none => .eq

lemma compareStamps_eq (left right : Option ℕ) :
    compareStamps left right = compare (stampKey left) (stampKey right) := by
  cases left with
  | none =>
    cases right with
    | none => simp [stampKey, compareStamps]
    | some right => exact (compare_lt_iff_lt.mpr (WithBot.bot_lt_coe right)).symm
  | some left =>
    cases right with
    | none => exact (compare_gt_iff_gt.mpr (WithBot.bot_lt_coe left)).symm
    | some right =>
      simp only [compareStamps]
      rcases lt_trichotomy left right with hlt | rfl | hlt
      · rw [compare_lt_iff_lt.mpr hlt]
        exact (compare_lt_iff_lt.mpr (WithBot.coe_lt_coe.mpr hlt)).symm
      · simp
      · rw [compare_gt_iff_gt.mpr hlt]
        exact (compare_gt_iff_gt.mpr (WithBot.coe_lt_coe.mpr hlt)).symm

variable (status : WorkloadStatus)

/-- The causal tuple. -/
def causalKey : ℕ ×ₗ ℕ ×ₗ WithBot ℕ ×ₗ ℕ :=
  toLex (status.taskEpoch, toLex (status.phaseVersion,
    toLex (stampKey (parseWorkloadTimestamp rules status.updatedAt status.createdAt),
      status.state.precedenceRank)))

/-- A candidate wins exactly when its causal tuple is greater. -/
lemma compareWorkloadCausality_isGT :
    (compareWorkloadCausality rules current candidate).isGT = true ↔
      causalKey rules current < causalKey rules candidate := by
  unfold compareWorkloadCausality causalKey
  simp only [Prod.Lex.toLex_lt_toLex]
  rcases lt_trichotomy candidate.taskEpoch current.taskEpoch with h | h | h
  · simp [Nat.compare_eq_lt.mpr h, h.not_gt, h.ne']
  · rcases lt_trichotomy candidate.phaseVersion current.phaseVersion with h' | h' | h'
    · simp [h, Nat.compare_eq_lt.mpr h', h'.not_gt, h'.ne']
    · simp only [h, h', Std.ReflCmp.compare_self, lt_irrefl, false_or, true_and]
      generalize parseWorkloadTimestamp rules current.updatedAt current.createdAt = currentTs
      generalize parseWorkloadTimestamp rules candidate.updatedAt candidate.createdAt = candidateTs
      cases currentTs with
      | none =>
        cases candidateTs with
        | none => simp [stampKey, Nat.compare_eq_gt]
        | some candidateTs => simp [stampKey]
      | some currentTs =>
        cases candidateTs with
        | none => simp [stampKey]
        | some candidateTs =>
          simp only [stampKey]
          split_ifs with h₁ h₂
          · simp [h₁]
          · simp [h₂.not_gt, h₂.ne']
          · simp [le_antisymm (not_lt.mp h₂) (not_lt.mp h₁), Nat.compare_eq_gt]
    · simp [h, Nat.compare_eq_gt.mpr h', h']
  · simp [Nat.compare_eq_gt.mpr h, h]

/-- The part of the causal tuple that no text enters. -/
def rowVersion : ℕ ×ₗ ℕ := toLex (status.taskEpoch, status.phaseVersion)

lemma rowVersion_le_of_causalKey_le {a b : WorkloadStatus}
    (h : causalKey rules a ≤ causalKey rules b) : rowVersion a ≤ rowVersion b := by
  rw [rowVersion, rowVersion, Prod.Lex.toLex_le_toLex]
  rcases Prod.Lex.toLex_le_toLex.mp h with h | ⟨heq, h⟩
  · exact .inl h
  · rcases Prod.Lex.toLex_le_toLex.mp h with h | ⟨heq', -⟩
    · exact .inr ⟨heq, h.le⟩
    · exact .inr ⟨heq, heq'.le⟩

lemma taskEpoch_le_of_rowVersion_le {a b : WorkloadStatus} (h : rowVersion a ≤ rowVersion b) :
    a.taskEpoch ≤ b.taskEpoch := by
  rcases Prod.Lex.toLex_le_toLex.mp h with h | ⟨heq, -⟩
  · exact h.le
  · exact heq.le

variable (current candidate : WorkloadValue)

/-- `should_prefer_workload_value`. -/
def shouldPreferWorkloadValue : Bool :=
  if (compareWorkloadCausality rules current.status candidate.status).isGT then true
  else if (compareWorkloadCausality rules candidate.status current.status).isGT then false
  else if candidate.definitionComplete ≠ current.definitionComplete then
    candidate.definitionComplete
  else current.status.nodeId < candidate.status.nodeId

variable (value : WorkloadValue)

/-- What the selector orders rows by. -/
def preferKey : (ℕ ×ₗ ℕ ×ₗ WithBot ℕ ×ₗ ℕ) ×ₗ Bool ×ₗ Uuid :=
  toLex (causalKey rules value.status, toLex (value.definitionComplete, value.status.nodeId))

lemma shouldPreferWorkloadValue_iff : shouldPreferWorkloadValue rules current candidate = true ↔
      preferKey rules current < preferKey rules candidate := by
  unfold shouldPreferWorkloadValue preferKey
  simp only [compareWorkloadCausality_isGT, Prod.Lex.toLex_lt_toLex]
  rcases lt_trichotomy (causalKey rules current.status) (causalKey rules candidate.status)
    with h | h | h
  · simp [h]
  · simp only [h, lt_irrefl, if_false, false_or, true_and]
    cases hc : current.definitionComplete <;> cases hd : candidate.definitionComplete <;> simp
  · simp [h, h.not_gt, h.ne']

/-! ## Values of a workload's register -/

/-- `WorkloadRemoval`. -/
structure WorkloadRemoval where
  id : Uuid
  taskEpoch : ℕ
  deriving DecidableEq

/-- What the register of a workload holds: of the kinds of `WorkloadStoreValue`, the rows and the
removals. The other kinds are stored under ids of their own. -/
inductive TaskRecord
  | workload (value : WorkloadValue)
  | removal (removal : WorkloadRemoval)

/-- `WorkloadStoreValue::workload`. -/
def TaskRecord.row : TaskRecord → Option WorkloadValue
  | .workload value => some value
  | .removal _ => none

/-- `removed_task_epoch`. -/
def TaskRecord.removedTaskEpoch : TaskRecord → Option ℕ
  | .workload _ => none
  | .removal removed => some removed.taskEpoch

/-- `select_removed_task_epoch`. -/
def selectRemovedTaskEpoch (values : List TaskRecord) : Option ℕ :=
  (values.filterMap TaskRecord.removedTaskEpoch).max?

/-- An epoch that some removal covers. -/
def covered (values : List TaskRecord) (taskEpoch : ℕ) : Bool :=
  (selectRemovedTaskEpoch values).any (taskEpoch ≤ ·)

variable {values : List TaskRecord}

lemma covered_iff {taskEpoch : ℕ} : covered values taskEpoch = true ↔
      ∃ removal, .removal removal ∈ values ∧ taskEpoch ≤ removal.taskEpoch := by
  have hmem : ∀ epoch, epoch ∈ values.filterMap TaskRecord.removedTaskEpoch ↔
      ∃ removal, .removal removal ∈ values ∧ removal.taskEpoch = epoch := by
    intro epoch
    rw [mem_filterMap]
    constructor
    · rintro ⟨record, hrecord, heq⟩
      cases record with
      | workload value => cases heq
      | removal removal => exact ⟨removal, hrecord, Option.some.inj heq⟩
    · rintro ⟨removal, hremoval, rfl⟩
      exact ⟨_, hremoval, rfl⟩
  unfold covered selectRemovedTaskEpoch
  cases hmax : (values.filterMap TaskRecord.removedTaskEpoch).max? with
  | none =>
    have hnil := max?_eq_none_iff.mp hmax
    refine ⟨fun h => Bool.noConfusion h, ?_⟩
    rintro ⟨removal, hremoval, -⟩
    have := (hmem _).mpr ⟨removal, hremoval, rfl⟩
    rw [hnil] at this
    cases this
  | some epoch =>
    obtain ⟨hin, hle⟩ := max?_eq_some_iff.mp hmax
    simp only [Option.any_some, decide_eq_true_eq]
    constructor
    · intro h
      obtain ⟨removal, hremoval, rfl⟩ := (hmem _).mp hin
      exact ⟨removal, hremoval, h⟩
    · rintro ⟨removal, hremoval, h⟩
      exact h.trans (hle _ ((hmem _).mpr ⟨removal, hremoval, rfl⟩))

/-- The rows that no removal covers. -/
def selectableRows (values : List TaskRecord) : List WorkloadValue :=
  (values.filterMap TaskRecord.row).filter fun value => !covered values value.status.taskEpoch

lemma mem_selectableRows {value : WorkloadValue} : value ∈ selectableRows values ↔
      .workload value ∈ values ∧ covered values value.status.taskEpoch = false := by
  rw [selectableRows, mem_filter, mem_filterMap, Bool.not_eq_true']
  refine and_congr_left fun _ => ?_
  constructor
  · rintro ⟨record, hrecord, heq⟩
    cases record with
    | workload row =>
      cases heq
      exact hrecord
    | removal removal => cases heq
  · exact fun h => ⟨_, h, rfl⟩

/-- `select_best_workload_value`. -/
def selectBestWorkloadValue (values : List TaskRecord) : Option WorkloadValue :=
  selectBest (shouldPreferWorkloadValue rules) (selectableRows values)

variable {rules}

/-- **The selected row** is stored and not covered, and no such row is preferred to it. -/
lemma selectBestWorkloadValue_spec {best : WorkloadValue}
    (h : selectBestWorkloadValue rules values = some best) : best ∈ selectableRows values ∧
      ∀ value ∈ selectableRows values, preferKey rules value ≤ preferKey rules best :=
  selectBest_spec (shouldPreferWorkloadValue_iff rules) h

/-- No stored row that counts is of a later version than the selected one. -/
lemma rowVersion_le_of_selected {best value : WorkloadValue}
    (h : selectBestWorkloadValue rules values = some best)
    (hvalue : value ∈ selectableRows values) :
    rowVersion value.status ≤ rowVersion best.status := by
  refine rowVersion_le_of_causalKey_le rules ?_
  rcases Prod.Lex.toLex_le_toLex.mp ((selectBestWorkloadValue_spec h).2 value hvalue) with h | h
  · exact h.le
  · exact h.1.le

variable (rules)

@[simp] lemma covered_row (epoch : ℕ) : covered [.workload value] epoch = false := rfl

@[simp] lemma covered_removal (removal : WorkloadRemoval) (epoch : ℕ) :
    covered [.removal removal] epoch = decide (epoch ≤ removal.taskEpoch) := rfl

@[simp] lemma selectBestWorkloadValue_row :
    selectBestWorkloadValue rules [.workload value] = some value := rfl

@[simp] lemma selectBestWorkloadValue_removal (removal : WorkloadRemoval) :
    selectBestWorkloadValue rules [.removal removal] = none := rfl

/-! ## Merges -/

@[simp] lemma status_specToValue (spec : WorkloadSpec) : (specToValue spec).status =
    spec.status := rfl

/-- `workload_values_match`: every field but the time of the update. -/
def workloadValuesMatch (left right : WorkloadValue) : Bool :=
  decide ({ left.status with updatedAt := right.status.updatedAt } = right.status ∧
    left.definition = right.definition ∧ left.definitionComplete = right.definitionComplete)

/-- `merge_status_into_value`. -/
def mergeStatusIntoValue (current : Option WorkloadValue) (status : WorkloadStatus) :
    WorkloadValue :=
  match current with
  | some current => { current with status }
  | none => ⟨status, .placeholder, false⟩

/-- The fields of a status that a running workload changes, over those it was started with. -/
def WorkloadStatus.withLifecycle (status lifecycle : WorkloadStatus) : WorkloadStatus :=
  { status with
    state := lifecycle.state
    phaseReason := lifecycle.phaseReason
    phaseProgress := lifecycle.phaseProgress
    updatedAt := lifecycle.updatedAt
    taskEpoch := lifecycle.taskEpoch
    phaseVersion := lifecycle.phaseVersion
    launchAttempt := lifecycle.launchAttempt
    lastTerminalObservedLaunch := lifecycle.lastTerminalObservedLaunch }

/-- `merge_definition_into_value`. -/
def mergeDefinitionIntoValue (current : WorkloadValue) (spec : WorkloadSpec) : WorkloadValue :=
  { specToValue spec with
    status := spec.status.withLifecycle current.status
    definitionComplete := true }

/-! ## What a node decides to write

Each of these reads the values of the register once; what it returns is written later. -/

/-- `handle_event`, `UpsertSpec`: the row to persist, if any. -/
def upsertSpec (values : List TaskRecord) (spec : WorkloadSpec) : Option WorkloadValue :=
  if covered values spec.status.taskEpoch then none
  else
    let incoming := specToValue spec
    match selectBestWorkloadValue rules values with
    | none => some incoming
    | some current =>
      if workloadValuesMatch current incoming then none
      else if (compareWorkloadCausality rules current.status incoming.status).isGT then some
        incoming
      else if !current.definitionComplete && current.status.taskEpoch == spec.status.taskEpoch then
        some (mergeDefinitionIntoValue current spec)
      else none

/-- `handle_event`, `UpsertStatus`: the row to persist, if any. -/
def upsertStatus (values : List TaskRecord) (status : WorkloadStatus) : Option WorkloadValue :=
  if covered values status.taskEpoch then none
  else
    let current := selectBestWorkloadValue rules values
    if current.any fun current => !(compareWorkloadCausality rules current.status status).isGT then
      none
    else some (mergeStatusIntoValue current status)

/-- `is_stale_phase_regression`. -/
def isStalePhaseRegression (current requested : WorkloadPhase) : Bool :=
  let advanced : Bool :=
    match current with
    | .running | .paused | .stopping | .stopped | .failed | .exited _ | .unknown => true
    | _ => false
  match requested with
  | .pending => current = .pulling || current = .creating || advanced
  | .pulling => current = .creating || advanced
  | .creating => advanced
  | _ => false

/-- The new phase in a status. Entering `Pulling` starts a launch attempt. -/
def WorkloadStatus.enter (state : WorkloadPhase)
    (phaseReason phaseProgress : Option String) (now : String) : WorkloadStatus :=
  { status with
    phaseVersion :=
      if status.state ≠ state then saturatingSucc status.phaseVersion else status.phaseVersion
    launchAttempt :=
      if status.state ≠ state ∧ state = .pulling then saturatingSucc status.launchAttempt
      else status.launchAttempt
    state
    phaseReason
    phaseProgress
    updatedAt := now }

/-- `update_task_phase`: the row to persist, if any. -/
def updateTaskPhase (values : List TaskRecord) (state : WorkloadPhase)
    (phaseReason phaseProgress : Option String) (now : String) : Option WorkloadValue :=
  match selectBestWorkloadValue rules values with
  | none => none
  | some value =>
    let spec := valueToSpec value
    let nextReason := phaseReason.filter fun text => !rules.isBlank text
    let nextProgress := phaseProgress.filter fun text => !rules.isBlank text
    if isStalePhaseRegression spec.status.state state then none
    else if spec.status.state = state ∧ spec.status.phaseReason = nextReason ∧
        spec.status.phaseProgress = nextProgress then none
    else
      some (specToValue
        { spec with status := spec.status.enter state nextReason nextProgress now })

/-- The greatest epoch of the stored rows and removals. -/
def greatestEpoch (values : List TaskRecord) : ℕ :=
  max (((values.filterMap TaskRecord.row).map fun value => value.status.taskEpoch).max?.getD 0)
    ((selectRemovedTaskEpoch values).getD 0)

/-- Some stored row has another node or other slots. -/
def conflictingAssignment (values : List TaskRecord) (nodeId : Uuid)
    (slotIds : List Scheduler.SlotId) : Bool :=
  (values.filterMap TaskRecord.row).any fun value =>
    value.status.nodeId ≠ nodeId || value.definition.slotIds ≠ slotIds

/-- `next_task_epoch_for_assignment`. -/
def nextTaskEpochForAssignment (values : List TaskRecord) (nodeId : Uuid)
    (slotIds : List Scheduler.SlotId) : ℕ :=
  match selectBestWorkloadValue rules values with
  | none => (selectRemovedTaskEpoch values).elim 0 saturatingSucc
  | some _ =>
    if conflictingAssignment values nodeId slotIds then saturatingSucc (greatestEpoch values)
    else greatestEpoch values

/-- `persist_value` and, for one workload of its batch, `persist_specs_batch`: what is written,
unless a removal covers the row. -/
def persistValue (values : List TaskRecord) (value : WorkloadValue) : Option TaskRecord :=
  if covered values value.status.taskEpoch then none else some (.workload value)

/-- `remove_spec_through_epoch`: the removal that is written, unless a newer row or a removal that
reaches as far is stored. -/
def removeSpecThroughEpoch (values : List TaskRecord) (id : Uuid) (removedThroughEpoch : ℕ) :
    Option TaskRecord :=
  if (selectBestWorkloadValue rules values).any fun current =>
      removedThroughEpoch < current.status.taskEpoch then none
  else if covered values removedThroughEpoch then none
  else some (.removal ⟨id, removedThroughEpoch⟩)

end Workload

end Mantissa
