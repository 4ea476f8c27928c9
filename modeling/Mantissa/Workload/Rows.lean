import Mantissa.Store.RegisterLevels
import Mantissa.Workload.Gossip

/-!
# The row of a workload on every node

Every node keeps a register for the workload. A lifecycle update, a gossip event or a new
assignment first reads it and works out a row; the row is written later, after other tasks may have
run, and at that moment only the removals are looked at again (`persistValue`). Between the two the
row is
*working*: it is kept together with the row that was selected when it was worked out. Besides,
nodes remove the workload through an epoch, merge any state the register of a node ever had, and
compact.

`keepsUp` is what the code does not check: that the selected row is still the one that was read, and
that a new assignment does not restart the phase version of a row it keeps the epoch of. Where
every step of every node keeps it, writes only rise in the sense of `Store/RegisterLevels`, with a
removal above the rows of its epoch and below those of the next, so a removal is never undone, and
no persist replaces a row of a later version.

Without it both fail at once: `stale_persist_revives_removed_row`.
-/

namespace Mantissa.Workload

open TaskRecord List Function

/-! ## Compaction of a workload's register -/

variable (rules : TextRules)

/-- `WorkloadCompactionRank`, for rows and removals: a removal comes after the rows of its epoch. -/
def TaskRecord.rank (entry : MvRegEntry TaskRecord Uuid) :
    ℕ ×ₗ WithTop (ℕ ×ₗ WithBot ℕ ×ₗ ℕ ×ₗ Bool ×ₗ Uuid ×ₗ TaskRecordᵒᵈ) :=
  match entry.value with
  | .workload value =>
    let status := value.status
    toLex (status.taskEpoch, ((toLex (status.phaseVersion, toLex
      (stampKey (parseWorkloadTimestamp rules status.updatedAt status.createdAt), toLex
        (status.state.precedenceRank, toLex (value.definitionComplete, toLex
          (status.nodeId, OrderDual.toDual entry.value))))) :
        ℕ ×ₗ WithBot ℕ ×ₗ ℕ ×ₗ Bool ×ₗ Uuid ×ₗ TaskRecordᵒᵈ) : WithTop _))
  | .removal removed => toLex (removed.taskEpoch, ⊤)

/-- What is not to be undone: later epochs, and in one epoch its removal. -/
def TaskRecord.level : TaskRecord → ℕ ×ₗ Bool
  | .workload value => toLex (value.status.taskEpoch, false)
  | .removal removed => toLex (removed.taskEpoch, true)

lemma level_row_le_row {a b : WorkloadValue} :
    (workload a).level ≤ (workload b).level ↔
      a.status.taskEpoch ≤ b.status.taskEpoch := by
  rw [level, level, Prod.Lex.toLex_le_toLex]
  simp [le_iff_lt_or_eq]

lemma level_row_le_removal {a : WorkloadValue} {b : WorkloadRemoval} :
    (workload a).level ≤ (removal b).level ↔
      a.status.taskEpoch ≤ b.taskEpoch := by
  rw [level, level, Prod.Lex.toLex_le_toLex]
  simp [le_iff_lt_or_eq]

lemma level_removal_le_row {a : WorkloadRemoval} {b : WorkloadValue} :
    (removal a).level ≤ (workload b).level ↔
      a.taskEpoch < b.status.taskEpoch := by
  rw [level, level, Prod.Lex.toLex_le_toLex]
  simp

lemma level_removal_le_removal {a b : WorkloadRemoval} :
    (removal a).level ≤ (removal b).level ↔ a.taskEpoch ≤ b.taskEpoch := by
  rw [level, level, Prod.Lex.toLex_le_toLex]
  simp [le_iff_lt_or_eq]

section Register

variable [LinearOrder TaskRecord]

/-- Compaction ranks higher levels higher. -/
lemma level_le_of_rank_le (e f : MvRegEntry TaskRecord Uuid)
    (h : rank rules e ≤ rank rules f) : e.value.level ≤ f.value.level := by
  obtain ⟨clock, _ | _⟩ := e <;> obtain ⟨clock', _ | _⟩ := f <;>
    rcases Prod.Lex.toLex_le_toLex.mp h with h | ⟨heq, hle⟩
  case removal.workload.inr => exact absurd (top_le_iff.mp hle) WithTop.coe_ne_top
  case workload.workload.inr | workload.removal.inr | removal.removal.inr =>
    exact Prod.Lex.toLex_le_toLex.mpr (.inr ⟨heq, by simp⟩)
  all_goals exact Prod.Lex.toLex_le_toLex.mpr (.inl h)

end Register

/-! ## Reading and writing -/

/-- A row that was worked out and not written yet, or written and worked on further, with the row
that was selected when it was read. -/
structure WorkingRow where
  read : Option WorkloadValue
  value : WorkloadValue

/-- What the other lifecycle updates do to a row they loaded: they change fields, keep the epoch and
never lower the phase version. -/
structure LifecycleEdit where
  apply : WorkloadSpec → WorkloadSpec
  epoch : ∀ spec, (apply spec).status.taskEpoch = spec.status.taskEpoch
  version : ∀ spec, spec.status.phaseVersion ≤ (apply spec).status.phaseVersion

/-- The row after an edit. -/
def LifecycleEdit.row (edit : LifecycleEdit) (value : WorkloadValue) : WorkloadValue :=
  specToValue (edit.apply (valueToSpec value))

/-- The pending row of a new assignment, `persist_pending_batch_with_admission` and
`materialize_remote_specs_with_admission`. -/
def assignedRow (values : List TaskRecord) (draft : WorkloadSpec) : WorkloadValue :=
  specToValue { draft with status := { draft.status with
    taskEpoch := nextTaskEpochForAssignment rules values draft.status.nodeId
      draft.definition.slotIds
    phaseVersion := 0 } }

/-- The registers of the workload, and the working rows of every node. -/
structure RowCluster where
  registers : RegisterCluster TaskRecord Uuid
  working : Uuid → List WorkingRow

/-- What nodes do about one workload. -/
inductive RowAction
  | updatePhase (node : Uuid) (state : WorkloadPhase) (phaseReason phaseProgress : Option String)
      (now : String)
  | load (node : Uuid) (edit : LifecycleEdit)
  | gossipSpec (node : Uuid) (spec : WorkloadSpec)
  | gossipStatus (node : Uuid) (status : WorkloadStatus)
  | assign (node : Uuid) (draft : WorkloadSpec)
  | edit (node : Uuid) (index : ℕ) (edit : LifecycleEdit)
  | persist (node : Uuid) (index : ℕ)
  | abandon (node : Uuid) (index : ℕ)
  | remove (node : Uuid) (removedThroughEpoch : ℕ)
  | merge (node : Uuid) (source : ℕ)
  | compact (node : Uuid) (maxValues : ℕ)

namespace RowCluster

/-- No rows anywhere. -/
def initial : RowCluster := ⟨.init, fun _ => []⟩

section Model

variable [LinearOrder TaskRecord]

variable (c : RowCluster) (node : Uuid)

/-- What a node reads. -/
def values : List TaskRecord :=
  (c.registers.replica node).reg.snapshot.vals

/-- The row a node goes by. -/
def selected : Option WorkloadValue :=
  selectBestWorkloadValue rules (c.values node)

/-- The working rows of a node change. -/
def setWorking (rows : List WorkingRow) : RowCluster :=
  { c with working := update c.working node rows }

/-- A node starts to work on a row. -/
def start : Option WorkloadValue → RowCluster
  | none => c
  | some value => c.setWorking node (c.working node ++ [⟨c.selected rules node, value⟩])

/-- A node writes its register. -/
def write (record : TaskRecord) : RowCluster :=
  { c with registers := c.registers.writeAt node record }

/-- One step of the cluster, for the workload `id`. -/
def step (id : Uuid) (c : RowCluster) : RowAction → Option RowCluster
  | .updatePhase node state phaseReason phaseProgress now =>
    some (c.start rules node
      (updateTaskPhase rules (c.values node) state phaseReason phaseProgress now))
  | .load node edit => some (c.start rules node ((c.selected rules node).map edit.row))
  | .gossipSpec node spec => some (c.start rules node (upsertSpec rules (c.values node) spec))
  | .gossipStatus node status =>
    some (c.start rules node (upsertStatus rules (c.values node) status))
  | .assign node draft => some (c.start rules node (some (assignedRow rules (c.values node) draft)))
  | .edit node index edit =>
    (c.working node)[index]?.map fun working =>
      c.setWorking node ((c.working node).set index ⟨working.read, edit.row working.value⟩)
  | .persist node index =>
    (c.working node)[index]?.map fun working =>
      match persistValue (c.values node) working.value with
      | none => c.setWorking node ((c.working node).eraseIdx index)
      | some record =>
        (c.write node record).setWorking node
          ((c.working node).set index ⟨some working.value, working.value⟩)
  | .abandon node index => some (c.setWorking node ((c.working node).eraseIdx index))
  | .remove node removedThroughEpoch =>
    some ((removeSpecThroughEpoch rules (c.values node) id removedThroughEpoch).elim c
      (c.write node))
  | .merge node source =>
    c.registers.history[source]?.map fun state =>
      { c with registers := c.registers.mergeAt node state }
  | .compact node maxValues =>
    some { c with registers := c.registers.compactAt (rank rules) node maxValues }

/-- The draft is a new assignment of the workload, or the row it replaces is at its first phase. -/
def startsAnew (values : List TaskRecord) (draft : WorkloadSpec) : Prop :=
  ∀ best ∈ selectBestWorkloadValue rules values,
    best.status.phaseVersion = 0 ∨
    conflictingAssignment values draft.status.nodeId draft.definition.slotIds = true ∧
      greatestEpoch values < u64Max

/-- The write counter of a node is not at its end. -/
def counts : Prop :=
  (c.registers.replica node).reg.clock.get node < u64Max

/-- A row is written while the selected row is still the one that was read, and an assignment that
keeps an epoch does not restart its phase version. -/
def keepsUp : RowAction → Prop
  | .persist node index => c.counts node ∧ ∀ working ∈ (c.working node)[index]?,
      c.selected rules node = working.read
  | .assign node draft => startsAnew rules (c.values node) draft
  | .remove node _ => c.counts node
  | _ => True

instance (action : RowAction) : Decidable (c.keepsUp rules action) := by
  cases action <;> dsimp only [keepsUp, startsAnew, counts] <;> infer_instance

end Model

/-! ## Rows that are worked out -/

variable {rules} {values : List TaskRecord} {best value : WorkloadValue}

lemma rowVersion_le_edit (edit : LifecycleEdit) (value : WorkloadValue) :
    rowVersion value.status ≤ rowVersion (edit.row value).status := by
  rw [rowVersion, rowVersion, Prod.Lex.toLex_le_toLex]
  exact .inr ⟨(edit.epoch (valueToSpec value)).symm, edit.version (valueToSpec value)⟩

variable (hbest : selectBestWorkloadValue rules values = some best)

include hbest

lemma rowVersion_le_upsertStatus {status : WorkloadStatus}
    (h : upsertStatus rules values status = some value) :
    rowVersion best.status ≤ rowVersion value.status := by
  simp only [upsertStatus, hbest, Option.any_some, Bool.not_eq_true'] at h
  split_ifs at h with _ hnewer
  cases h
  refine rowVersion_le_of_causalKey_le rules (le_of_lt ?_)
  exact (compareWorkloadCausality_isGT rules _ _).mp (Bool.of_not_eq_false hnewer)

omit hbest

lemma lt_of_not_covered {taskEpoch : ℕ} (h : covered values taskEpoch = false)
    {removal : WorkloadRemoval} (hremoval : .removal removal ∈ values) :
    removal.taskEpoch < taskEpoch := by
  by_contra hle
  rw [covered_iff.mpr ⟨removal, hremoval, not_lt.mp hle⟩] at h
  cases h

variable (rules) in
/-- A stored row is covered by a removal, or it is not newer than the selected one. -/
lemma covered_or_le_selected {row : WorkloadValue} (hrow : .workload row ∈ values) :
    (∃ removal, .removal removal ∈ values ∧ row.status.taskEpoch ≤ removal.taskEpoch) ∨
      ∃ best, selectBestWorkloadValue rules values = some best ∧
        rowVersion row.status ≤ rowVersion best.status := by
  rw [← covered_iff]
  refine or_iff_not_imp_left.mpr fun hgone => ?_
  have hselectable := mem_selectableRows.mpr ⟨hrow, Bool.eq_false_of_not_eq_true hgone⟩
  cases hselected : selectBestWorkloadValue rules values with
  | none => exact absurd hselectable (selectBest_eq_none.mp hselected ▸ not_mem_nil)
  | some best => exact ⟨best, rfl, rowVersion_le_of_selected hselected hselectable⟩

/-! ### The epoch of an assignment -/

lemma le_getD_max? {epochs : List ℕ} {epoch : ℕ} (h : epoch ∈ epochs) :
    epoch ≤ epochs.max?.getD 0 := by
  cases hmax : epochs.max? with
  | none => exact absurd h (max?_eq_none_iff.mp hmax ▸ not_mem_nil)
  | some top => exact (max?_eq_some_iff.mp hmax).2 _ h

lemma getD_max?_lt {epochs : List ℕ} {bound : ℕ} (hbound : 0 < bound)
    (h : ∀ epoch ∈ epochs, epoch < bound) : epochs.max?.getD 0 < bound := by
  cases hmax : epochs.max? with
  | none => exact hbound
  | some top => exact h _ (max?_eq_some_iff.mp hmax).1

lemma taskEpoch_le_greatestEpoch (h : .workload value ∈ values) :
    value.status.taskEpoch ≤ greatestEpoch values :=
  le_max_of_le_left (le_getD_max? (mem_map.mpr ⟨value, mem_filterMap.mpr ⟨_, h, rfl⟩, rfl⟩))

/-- The epoch of a row or a removal. -/
def epochOf : TaskRecord → ℕ
  | .workload value => value.status.taskEpoch
  | .removal removed => removed.taskEpoch

lemma greatestEpoch_lt (h : ∀ record ∈ values, epochOf record < u64Max) :
    greatestEpoch values < u64Max := by
  refine max_lt (getD_max?_lt (by decide) ?_) (getD_max?_lt (by decide) ?_)
  · simp only [mem_map, mem_filterMap]
    rintro _ ⟨row, ⟨record, hrecord, hrow⟩, rfl⟩
    cases record with
    | workload value =>
      cases hrow
      exact h _ hrecord
    | removal removed => cases hrow
  · simp only [mem_filterMap]
    rintro epoch ⟨record, hrecord, hepoch⟩
    cases record with
    | workload value => cases hepoch
    | removal removed =>
      cases hepoch
      exact h _ hrecord

/-- A row of another node or with other slots. -/
def Conflicts (nodeId : Uuid) (slotIds : List Scheduler.SlotId) (row : WorkloadValue) : Prop :=
  row.status.nodeId ≠ nodeId ∨ row.definition.slotIds ≠ slotIds

variable (rules) in
/-- The new epoch is past every stored removal. -/
lemma removed_lt_nextTaskEpoch (hbelow : ∀ record ∈ values, epochOf record < u64Max) (nodeId : Uuid)
    (slotIds : List Scheduler.SlotId) {removed : WorkloadRemoval}
    (h : .removal removed ∈ values) :
    removed.taskEpoch < nextTaskEpochForAssignment rules values nodeId slotIds := by
  rw [nextTaskEpochForAssignment]
  have hgreatest := greatestEpoch_lt hbelow
  cases hbest : selectBestWorkloadValue rules values with
  | none =>
    have hmem : removed.taskEpoch ∈ values.filterMap removedTaskEpoch :=
      mem_filterMap.mpr ⟨_, h, rfl⟩
    have hle : removed.taskEpoch ≤ (selectRemovedTaskEpoch values).getD 0 := le_getD_max? hmem
    have hlast : (selectRemovedTaskEpoch values).getD 0 < u64Max :=
      (le_max_right _ _).trans_lt hgreatest
    cases hremoved : selectRemovedTaskEpoch values with
    | none => exact absurd hmem (max?_eq_none_iff.mp hremoved ▸ not_mem_nil)
    | some last =>
      simp only [hremoved, Option.getD_some] at hle hlast
      simp only [Option.elim_some, saturatingSucc, if_pos hlast]
      omega
  | some best =>
    -- the selected row is past every removal already
    obtain ⟨hmem, hcovered⟩ := mem_selectableRows.mp (selectBestWorkloadValue_spec hbest).1
    have hlt := lt_of_not_covered hcovered h
    have hle := taskEpoch_le_greatestEpoch hmem
    split_ifs
    · exact (hlt.trans_le hle).trans_le (le_saturatingSucc _)
    · exact hlt.trans_le hle

variable (rules) in
/-- The new epoch is that of the newest row or later, and past every row it conflicts with. -/
lemma row_le_nextTaskEpoch (hbelow : ∀ record ∈ values, epochOf record < u64Max) (nodeId : Uuid)
    (slotIds : List Scheduler.SlotId) (h : .workload value ∈ values) :
    value.status.taskEpoch ≤ nextTaskEpochForAssignment rules values nodeId slotIds ∧
      (Conflicts nodeId slotIds value →
        value.status.taskEpoch < nextTaskEpochForAssignment rules values nodeId slotIds) := by
  have hle := taskEpoch_le_greatestEpoch h
  have hgreatest := greatestEpoch_lt hbelow
  cases hbest : selectBestWorkloadValue rules values with
  | none =>
    -- nothing is selected, so a removal covers the row
    obtain ⟨removed, hremoved, hcovers⟩ := (covered_or_le_selected rules h).resolve_right
      fun ⟨_, hsome, _⟩ => by cases hbest.symm.trans hsome
    have hlt := hcovers.trans_lt (removed_lt_nextTaskEpoch rules hbelow nodeId slotIds hremoved)
    exact ⟨hlt.le, fun _ => hlt⟩
  | some best =>
    simp only [nextTaskEpochForAssignment, hbest, saturatingSucc, if_pos hgreatest]
    refine ⟨by split_ifs <;> omega, fun hconflict => ?_⟩
    have hconflicting : conflictingAssignment values nodeId slotIds = true :=
      any_eq_true.mpr ⟨value, mem_filterMap.mpr ⟨_, h, rfl⟩, by simpa [Conflicts] using hconflict⟩
    rw [if_pos hconflicting]
    omega

/-- **A new assignment dominates.** Its epoch is above every stored removal, not below any stored
row, and above every row of another node or with other slots. So a row written with it is preferred
to each of those, and whichever stored values it is merged with, what is selected is no such row. -/
theorem nextTaskEpoch_dominates (rules : TextRules) (values : List TaskRecord)
    (hbelow : ∀ record ∈ values, epochOf record < u64Max) (nodeId : Uuid)
    (slotIds : List Scheduler.SlotId) :
    (∀ removed, .removal removed ∈ values →
      removed.taskEpoch < nextTaskEpochForAssignment rules values nodeId slotIds) ∧
    (∀ row, .workload row ∈ values →
      row.status.taskEpoch ≤ nextTaskEpochForAssignment rules values nodeId slotIds ∧
      (Conflicts nodeId slotIds row →
        row.status.taskEpoch < nextTaskEpochForAssignment rules values nodeId slotIds)) ∧
    ∀ written : WorkloadValue, ¬ Conflicts nodeId slotIds written →
      written.status.taskEpoch = nextTaskEpochForAssignment rules values nodeId slotIds →
      (∀ row, .workload row ∈ values → Conflicts nodeId slotIds row →
        shouldPreferWorkloadValue rules row written = true) ∧
      ∀ merged : List TaskRecord, .workload written ∈ merged →
        (∀ record ∈ merged, record = .workload written ∨ record ∈ values) →
        ∃ best, selectBestWorkloadValue rules merged = some best ∧
          ¬ Conflicts nodeId slotIds best := by
  have hremoved := fun removed (h : .removal removed ∈ values) =>
    removed_lt_nextTaskEpoch rules hbelow nodeId slotIds h
  have hrows := fun row (h : .workload row ∈ values) =>
    row_le_nextTaskEpoch rules hbelow nodeId slotIds h
  refine ⟨hremoved, hrows, fun written hwritten hepoch => ⟨?_, ?_⟩⟩
  · intro row hrow hconflict
    refine (shouldPreferWorkloadValue_iff rules row written).mpr (Prod.Lex.toLex_lt_toLex.mpr ?_)
    exact .inl (causalKey_lt_of_taskEpoch_lt (hepoch ▸ (hrows row hrow).2 hconflict))
  · intro merged hmem hfrom
    -- no removal that is merged in covers the written row
    have hselectable : written ∈ selectableRows merged := by
      refine mem_selectableRows.mpr ⟨hmem, Bool.eq_false_of_not_eq_true fun hcovered => ?_⟩
      obtain ⟨removed, hin, hle⟩ := covered_iff.mp hcovered
      have hlt := hremoved removed ((hfrom _ hin).resolve_left nofun)
      omega
    cases hbest : selectBestWorkloadValue rules merged with
    | none =>
      rw [selectBest_eq_none.mp hbest] at hselectable
      exact absurd hselectable not_mem_nil
    | some best =>
      refine ⟨best, rfl, fun hconflict => ?_⟩
      have hin := (selectBestWorkloadValue_spec hbest).1
      have hle := taskEpoch_le_of_rowVersion_le (rowVersion_le_of_selected hbest hselectable)
      rcases hfrom _ (mem_selectableRows.mp hin).1 with heq | hstored
      · exact hwritten (workload.inj heq ▸ hconflict)
      · have hlt := (hrows best hstored).2 hconflict
        omega

/-- Two rows of epoch 2 and a removal through epoch 1: the workload moves to slot 5 with epoch 3. -/
theorem nextTaskEpoch_dominates_moved :
    let values := [.workload (specToValue (gossipSpec 2 [3])), .removal ⟨7, 1⟩,
      .workload (specToValue (gossipSpec 2 [4]))]
    let written := specToValue (gossipSpec 3 [5])
    nextTaskEpochForAssignment plainRules values 1 [5] = 3 ∧
      ∃ best, selectBestWorkloadValue plainRules (values ++ [.workload written]) = some best ∧
        best.definition.slotIds = [5] := by
  intro values written
  have hnext : nextTaskEpochForAssignment plainRules values 1 [5] = 3 := by decide +kernel
  have hbelow : ∀ record ∈ values, epochOf record < u64Max := by decide
  obtain ⟨best, hbest, hconflict⟩ := ((nextTaskEpoch_dominates plainRules values hbelow 1 [5]).2.2
    written (by rintro (h | h) <;> exact h rfl) hnext.symm).2 (values ++ [.workload written])
      (by simp) fun record hrecord => by simpa [or_comm] using hrecord
  exact ⟨hnext, best, hbest, not_not.mp fun h => hconflict (.inr h)⟩

lemma rowVersion_le_assignedRow {draft : WorkloadSpec} (hstarts : startsAnew rules values draft)
    (hbest : selectBestWorkloadValue rules values = some best) :
    rowVersion best.status ≤ rowVersion (assignedRow rules values draft).status := by
  have hepoch := taskEpoch_le_greatestEpoch
    (mem_selectableRows.mp (selectBestWorkloadValue_spec hbest).1).1
  have hnext : (assignedRow rules values draft).status.taskEpoch =
      if conflictingAssignment values draft.status.nodeId draft.definition.slotIds then
        saturatingSucc (greatestEpoch values) else greatestEpoch values := by
    simp only [assignedRow, status_specToValue, nextTaskEpochForAssignment, hbest]
  rw [rowVersion, rowVersion, Prod.Lex.toLex_le_toLex, hnext]
  rcases hstarts best hbest with hzero | ⟨hconflict, hlt⟩
  · -- the first phase of an epoch is the least version of it
    have hle : best.status.taskEpoch ≤ if conflictingAssignment values draft.status.nodeId
        draft.definition.slotIds then saturatingSucc (greatestEpoch values)
        else greatestEpoch values := by
      split_ifs
      · exact hepoch.trans (le_saturatingSucc _)
      · exact hepoch
    rcases hle.lt_or_eq with hlt | heq
    · exact .inl hlt
    · exact .inr ⟨heq, hzero.le⟩
  · rw [if_pos hconflict, saturatingSucc, if_pos hlt]
    exact .inl (Nat.lt_succ_of_le hepoch)

/-! ## Writes -/

variable {record : TaskRecord}

/-- The row is at least as new as the one that was read. -/
def AtLeast (read : Option WorkloadValue) (row : WorkloadValue) : Prop :=
  ∀ best, read = some best → rowVersion best.status ≤ rowVersion row.status

/-- **A row that is at least as new as the selected one is at least as new as every row it
replaces**, since the others are older or covered by a removal that the persist looks at. -/
lemma rowVersion_le_of_persist (hbest : AtLeast (selectBestWorkloadValue rules values) value)
    (h : persistValue values value = some record) {row : WorkloadValue}
    (hrow : .workload row ∈ values) : rowVersion row.status ≤ rowVersion value.status := by
  rw [persistValue] at h
  split_ifs at h with hcovered
  rcases covered_or_le_selected rules hrow with ⟨removal, hremoval, hle⟩ | ⟨best, hselected, hle⟩
  · have hlt := lt_of_not_covered (Bool.eq_false_of_not_eq_true hcovered) hremoval
    exact Prod.Lex.toLex_le_toLex.mpr (.inl (hle.trans_lt hlt))
  · exact hle.trans (hbest best hselected)

variable {stored : TaskRecord}

/-- Such a row is at least as high as everything stored. -/
lemma level_le_of_persist (hbest : AtLeast (selectBestWorkloadValue rules values) value)
    (h : persistValue values value = some record) (hstored : stored ∈ values) :
    stored.level ≤ record.level := by
  have hrecord : covered values value.status.taskEpoch = false ∧ record = .workload value := by
    rw [persistValue] at h
    split_ifs at h with hcovered
    exact ⟨Bool.eq_false_of_not_eq_true hcovered, (Option.some.inj h).symm⟩
  obtain ⟨hcovered, rfl⟩ := hrecord
  cases stored with
  | workload row =>
    exact level_row_le_row.mpr
      (taskEpoch_le_of_rowVersion_le (rowVersion_le_of_persist hbest h hstored))
  | removal removal => exact level_removal_le_row.mpr (lt_of_not_covered hcovered hstored)

/-- A removal is at least as high as everything stored. -/
lemma level_le_of_remove {id epoch : ℕ}
    (h : removeSpecThroughEpoch rules values id epoch = some record)
    (hstored : stored ∈ values) : stored.level ≤ record.level := by
  rw [removeSpecThroughEpoch] at h
  split_ifs at h with hnewer hcovered
  cases h
  have hremovals {removal} (hremoval : .removal removal ∈ values) :=
    lt_of_not_covered (Bool.eq_false_of_not_eq_true hcovered) hremoval
  cases stored with
  | removal removal => exact level_removal_le_removal.mpr (hremovals hstored).le
  | workload row =>
    rw [level_row_le_removal]
    rcases covered_or_le_selected rules hstored with
      ⟨removal, hremoval, hle⟩ | ⟨best, hselected, hle⟩
    · exact hle.trans (hremovals hremoval).le
    · rw [hselected] at hnewer
      refine (taskEpoch_le_of_rowVersion_le hle).trans ?_
      simpa using hnewer

/-- Where something at least as high as a removal is stored, no row it covers is selected. -/
lemma lt_taskEpoch_of_selected {removed : WorkloadRemoval}
    (hstored : stored ∈ values) (hlevel : (removal removed).level ≤ stored.level)
    (hselected : selectBestWorkloadValue rules values = some value) :
    removed.taskEpoch < value.status.taskEpoch := by
  obtain ⟨-, hcovered⟩ := mem_selectableRows.mp (selectBestWorkloadValue_spec hselected).1
  cases stored with
  | removal removal =>
    exact (level_removal_le_removal.mp hlevel).trans_lt (lt_of_not_covered hcovered hstored)
  | workload row =>
    have hlt := level_removal_le_row.mp hlevel
    rcases covered_or_le_selected rules hstored with ⟨removal, hremoval, hle⟩ | ⟨best, hbest, hle⟩
    · exact (hlt.trans_le hle).trans (lt_of_not_covered hcovered hremoval)
    · obtain rfl := Option.some.inj (hselected.symm.trans hbest)
      exact hlt.trans_le (taskEpoch_le_of_rowVersion_le hle)

/-! ## Runs -/

variable {c c' : RowCluster} {node : Uuid}

/-- A working row is at least as new as the row it was worked out from. -/
def WorkingRow.UpToDate (working : WorkingRow) : Prop := AtLeast working.read working.value

/-- What every run that keeps up maintains. -/
structure Invariant (c : RowCluster) : Prop where
  rising : c.registers.Rising level
  working : ∀ node, ∀ row ∈ c.working node, WorkingRow.UpToDate row

lemma invariant_initial : (initial : RowCluster).Invariant where
  rising := RegisterCluster.rising_init
  working node row hrow := by cases hrow

lemma Invariant.setWorking (h : c.Invariant) {rows : List WorkingRow}
    (hrows : ∀ row ∈ rows, WorkingRow.UpToDate row) : (c.setWorking node rows).Invariant where
  rising := h.rising
  working other := by
    simp only [RowCluster.setWorking, update_apply]
    split_ifs
    · exact hrows
    · exact h.working other

lemma Invariant.set (h : c.Invariant) (node : Uuid) {index : ℕ} {row : WorkingRow}
    (hrow : WorkingRow.UpToDate row) :
    (c.setWorking node ((c.working node).set index row)).Invariant := by
  refine h.setWorking fun other hother => ?_
  rcases mem_or_eq_of_mem_set hother with hother | rfl
  · exact h.working node other hother
  · exact hrow

lemma Invariant.erase (h : c.Invariant) {index : ℕ} :
    (c.setWorking node ((c.working node).eraseIdx index)).Invariant :=
  h.setWorking fun other hother => h.working node other (mem_of_mem_eraseIdx hother)

section Steps

variable [LinearOrder TaskRecord]

lemma mem_values : record ∈ c.values node ↔
    ∃ e ∈ (c.registers.replica node).reg.entries, e.value = record := by
  rw [values, MvReg.mem_vals_snapshot, MvReg.mem_readValues]

lemma Invariant.start (h : c.Invariant) {value : Option WorkloadValue}
    (hvalue : ∀ row, value = some row → AtLeast (c.selected rules node) row) :
    (c.start rules node value).Invariant := by
  cases value with
  | none => exact h
  | some row =>
    refine h.setWorking fun other hother => ?_
    rcases mem_append.mp hother with hother | hother
    · exact h.working node other hother
    · obtain rfl := mem_singleton.mp hother
      exact hvalue row rfl

/-- A row that is written in time is at least as new as the selected one. -/
lemma Invariant.atLeast {index : ℕ} {working : WorkingRow} (h : c.Invariant)
    (hok : c.keepsUp rules (.persist node index)) (hrow : (c.working node)[index]? = some working) :
    AtLeast (c.selected rules node) working.value := by
  rw [hok.2 working hrow]
  exact h.working node working (mem_of_getElem? hrow)

/-- A write that is at least as high as what its node reads. -/
lemma Invariant.write (h : c.Invariant) (hcounts : c.counts node)
    (hlevel : ∀ stored ∈ c.values node, stored.level ≤ record.level) :
    (c.write node record).Invariant where
  rising := h.rising.writeAt ⟨hcounts, fun e he => hlevel e.value (mem_values.mpr ⟨e, he, rfl⟩)⟩
  working := h.working

/-- **Every step that keeps up maintains the invariant**, and no register forgets. -/
lemma Invariant.keep {id : Uuid} {action : RowAction} (h : c.Invariant)
    (hok : c.keepsUp rules action) (hstep : c.step rules id action = some c') :
    c'.Invariant ∧ c.registers.Extends c'.registers := by
  have hstart : ∀ {node : Uuid} {value : Option WorkloadValue},
      (∀ row, value = some row → AtLeast (c.selected rules node) row) →
      some (c.start rules node value) = some c' →
      c'.Invariant ∧ c.registers.Extends c'.registers := by
    intro node value hvalue heq
    cases heq
    refine ⟨h.start hvalue, ?_⟩
    cases value <;> exact .refl _
  cases action with
  | updatePhase node state reason progress now =>
    refine hstart (fun row hrow best hbest => ?_) hstep
    rw [updateTaskPhase, show selectBestWorkloadValue rules _ = _ from hbest] at hrow
    dsimp only at hrow
    split_ifs at hrow
    cases hrow
    refine Prod.Lex.toLex_le_toLex.mpr (.inr ⟨rfl, ?_⟩)
    change _ ≤ if best.status.state ≠ state then saturatingSucc best.status.phaseVersion
      else best.status.phaseVersion
    split_ifs
    · exact le_saturatingSucc _
    · exact le_rfl
  | load node edit =>
    refine hstart (fun row hrow best hbest => ?_) hstep
    rw [hbest] at hrow
    cases hrow
    exact rowVersion_le_edit edit best
  | gossipSpec node spec =>
    refine hstart (fun row hrow best hbest => ?_) hstep
    rw [upsertSpec, show selectBestWorkloadValue rules _ = _ from hbest] at hrow
    dsimp only at hrow
    split_ifs at hrow with _ _ hnewer
    · cases hrow
      exact rowVersion_le_of_causalKey_le rules
        ((compareWorkloadCausality_isGT rules _ _).mp hnewer).le
    · cases hrow
      exact le_rfl
  | gossipStatus node status =>
    exact hstart (fun row hrow best hbest => rowVersion_le_upsertStatus hbest hrow) hstep
  | assign node draft =>
    refine hstart (fun row hrow best hbest => ?_) hstep
    cases hrow
    exact rowVersion_le_assignedRow hok hbest
  | edit node index edit =>
    obtain ⟨row, hrow, rfl⟩ := Option.map_eq_some_iff.mp hstep
    refine ⟨h.set node fun best hbest => ?_, .refl _⟩
    exact (h.working node row (mem_of_getElem? hrow) best hbest).trans
      (rowVersion_le_edit edit row.value)
  | persist node index =>
    obtain ⟨row, hrow, heq⟩ := Option.map_eq_some_iff.mp hstep
    have hbest := h.atLeast hok hrow
    cases hpersist : persistValue (c.values node) row.value with
    | none =>
      simp only [hpersist] at heq
      exact heq ▸ ⟨h.erase, .refl _⟩
    | some record =>
      simp only [hpersist] at heq
      have hwrite := h.write hok.1 fun stored hstored => level_le_of_persist hbest hpersist hstored
      subst heq
      exact ⟨hwrite.set node fun best hbest => Option.some.inj hbest ▸ le_rfl,
        RegisterCluster.extends_writeAt c.registers node record⟩
  | abandon node index =>
    cases hstep
    exact ⟨h.erase, .refl _⟩
  | remove node epoch =>
    cases hstep
    cases hremove : removeSpecThroughEpoch rules (c.values node) id epoch with
    | none => exact ⟨h, .refl _⟩
    | some record =>
      exact ⟨h.write hok fun stored hstored => level_le_of_remove hremove hstored,
        RegisterCluster.extends_writeAt c.registers node record⟩
  | merge node source =>
    obtain ⟨state, hstate, rfl⟩ := Option.map_eq_some_iff.mp hstep
    exact ⟨⟨h.rising.mergeAt (mem_of_getElem? hstate) node, h.working⟩,
      RegisterCluster.extends_mergeAt c.registers node state⟩
  | compact node maxValues =>
    cases hstep
    exact ⟨⟨h.rising.compactAt (level_le_of_rank_le rules) node maxValues, h.working⟩,
      RegisterCluster.extends_compactAt c.registers _ node maxValues⟩

lemma Invariant.of_reaches {id : Uuid} (h : c.Invariant)
    (hrun : Reaches (step rules id) (keepsUp rules) c c') :
    c'.Invariant ∧ c.registers.Extends c'.registers := by
  refine hrun.invariant (P := fun d => d.Invariant ∧ c.registers.Extends d.registers)
    ⟨h, .refl _⟩ ?_
  intro x y action hx hok hstep
  obtain ⟨hy, hext⟩ := hx.1.keep hok hstep
  exact ⟨hy, hx.2.trans hext⟩

end Steps

end RowCluster

open RowCluster

/-- **Rows never go back.** In every run of the nodes that keeps up: once a node stores a removal
through an epoch, it never again selects a row of that epoch or an earlier one; and no persist that
succeeds replaces a row of a greater task epoch and phase version. -/
theorem rows_never_go_back [LinearOrder TaskRecord] (rules : TextRules) (id : Uuid) {c : RowCluster}
    (h : Reaches (step rules id) (keepsUp rules) initial c) :
    (∀ node removal, .removal removal ∈ c.values node →
      ∀ c', Reaches (step rules id) (keepsUp rules) c c' →
      ∀ row, c'.selected rules node = some row → removal.taskEpoch < row.status.taskEpoch) ∧
    ∀ node index working record, (c.working node)[index]? = some working →
      c.keepsUp rules (.persist node index) →
      persistValue (c.values node) working.value = some record →
      ∀ row, .workload row ∈ c.values node →
        ¬ rowVersion working.value.status < rowVersion row.status := by
  obtain ⟨hinv, -⟩ := invariant_initial.of_reaches h
  constructor
  · intro node removal hremoval c' hrun row hrow
    obtain ⟨hinv', hext⟩ := hinv.of_reaches hrun
    obtain ⟨e, he, hvalue⟩ := mem_values.mp hremoval
    obtain ⟨f, hf, hle⟩ := hinv.rising.exists_ge_later hinv'.rising hext he
    rw [hvalue] at hle
    exact lt_taskEpoch_of_selected (mem_values.mpr ⟨f, hf, rfl⟩) hle hrow
  · intro node index working record hworking hok hpersist row hrow
    exact not_lt.mpr (rowVersion_le_of_persist (hinv.atLeast hok hworking) hpersist hrow)

/-! ## A row that was read too early -/

/-- The first row of workload 7 is stored on slot 3 of node 1, an update reads it, and the workload
is removed through epoch 0. -/
def removeAfterRead : List RowAction :=
  [.assign 1 (gossipSpec 0 [3]), .persist 1 0, .updatePhase 1 .pulling none none "", .remove 1 0]

/-- It is assigned anew, to slot 4. -/
def assignAnew : List RowAction := [.assign 1 (gossipSpec 0 [4]), .persist 1 2]

/-- The row that is assigned after the removal is of a later epoch. -/
theorem rows_never_go_back_removed :
    letI := someOrder TaskRecord
    ∃ removed anew : RowCluster, ∃ removal row,
      Reaches (step plainRules 7) (keepsUp plainRules) initial removed ∧
      .removal removal ∈ removed.values 1 ∧
      Reaches (step plainRules 7) (keepsUp plainRules) removed anew ∧
      anew.selected plainRules 1 = some row ∧ removal.taskEpoch < row.status.taskEpoch := by
  let _ := someOrder TaskRecord
  obtain ⟨removed, hremoved, hcovered, hlater⟩ : ∃ removed : RowCluster,
      Reaches (step plainRules 7) (keepsUp plainRules) initial removed ∧
      covered (removed.values 1) 0 = true ∧
      (runActions (step plainRules 7) (keepsUp plainRules) removed assignAnew).any
        (fun anew => (selected plainRules anew 1).isSome) = true :=
    exists_reaches_of_runActions removeAfterRead (by decide +kernel)
  obtain ⟨removal, hremoval, -⟩ := covered_iff.mp hcovered
  obtain ⟨anew, hrun, hrow⟩ := (Option.any_eq_true _ _).mp hlater
  obtain ⟨row, hrow⟩ := Option.isSome_iff_exists.mp hrow
  have hanew := reaches_of_runActions assignAnew hrun
  exact ⟨removed, anew, removal, row, hremoved, hremoval, hanew, hrow,
    (rows_never_go_back plainRules 7 hremoved).1 1 removal hremoval anew hanew row hrow⟩

/-- **A stale persist revives a removed row.** The removal through epoch 0 is replaced by the row
of epoch 1, after which nothing keeps the update that was read before the removal from writing its
row of epoch 0 over it. -/
theorem stale_persist_revives_removed_row :
    letI := someOrder TaskRecord
    ∃ removed anew revived : RowCluster, ∃ working : WorkingRow,
      Reaches (step plainRules 7) anyStep initial removed ∧
      .removal ⟨7, 0⟩ ∈ removed.values 1 ∧
      Reaches (step plainRules 7) anyStep removed anew ∧
      (anew.working 1)[1]? = some working ∧
      persistValue (anew.values 1) working.value = some (.workload working.value) ∧
      (∃ row, .workload row ∈ anew.values 1 ∧
        rowVersion working.value.status < rowVersion row.status) ∧
      step plainRules 7 anew (.persist 1 1) = some revived ∧
      ∃ row, revived.selected plainRules 1 = some row ∧ row.status.taskEpoch ≤ 0 := by
  exact ⟨_, _, _, _, reaches_of_runActions removeAfterRead rfl, mem_singleton.mpr rfl,
    reaches_of_runActions assignAnew rfl, rfl, rfl, ⟨_, mem_singleton.mpr rfl, by decide⟩, rfl, _,
      rfl,
    by decide⟩

end Mantissa.Workload
