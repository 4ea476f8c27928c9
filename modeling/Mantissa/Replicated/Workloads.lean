import Mantissa.Replicated.Winner
import Mantissa.Workload.Gang
import Mantissa.Workload.Rows

/-!
# The workload store

One rank, `WorkloadCompactionRank`, serves all kinds of values of the workload store. For the rows
and removals of a task it says what the selectors say: the value that ranks highest is the selected
row, or a removal that covers every row (`task_winner_kept`).

For the other two kinds it does not. An admission group is ranked by its creation time where its
update time does not parse, and selected without that fallback. A progress report is ranked by the
number of tasks it has seen before its time, and selected by its time first. So for these the
winner survives exactly if the rank and the selection have the same maximum
(`workload_winner_kept_iff`), and a late report about fewer tasks is replaced by an older one
(`recent_progress_dropped`).
-/

namespace Mantissa.Workload

open MvReg TaskRecord List

variable (rules : TextRules)

/-! ## Rows and removals -/

section Tasks

variable [LinearOrder TaskRecord] {rules}

/-- Rows in the order in which their records are sorted. -/
@[reducible]
def rowOrder : LinearOrder WorkloadValue :=
  LinearOrder.lift' workload fun _ _ h => workload.inj h

/-- The rows of a sorted list of records are sorted. -/
lemma pairwise_selectableRows {values : List TaskRecord} (h : values.Pairwise (· < ·)) :
    letI := rowOrder
    (selectableRows values).Pairwise (· < ·) := by
  refine List.Pairwise.filter _ (List.Pairwise.filterMap _ ?_ h)
  intro a b hab value hvalue value' hvalue'
  cases a with
  | removal removal => cases hvalue
  | workload row =>
    cases b with
    | removal removal => cases hvalue'
    | workload row' =>
      cases hvalue
      cases hvalue'
      exact hab

/-- Among rows the rank is what they are selected by, with ties going to the smaller record. -/
lemma preferKey_le_of_rank_le {a b : WorkloadValue} {clock clock' : VectorClock Uuid}
    (h : rank rules ⟨clock, .workload a⟩ ≤ rank rules ⟨clock', .workload b⟩) :
    letI := rowOrder
    toLex (preferKey rules a, OrderDual.toDual a) ≤
      toLex (preferKey rules b, OrderDual.toDual b) := by
  simp only [rank, Prod.Lex.toLex_le_toLex, WithTop.coe_le_coe] at h
  simp only [preferKey, causalKey, Prod.Lex.toLex_le_toLex, Prod.Lex.toLex_lt_toLex,
    EmbeddingLike.apply_eq_iff_eq, Prod.mk.injEq]
  rcases h with h | ⟨h₁, h | ⟨h₂, h | ⟨h₃, h | ⟨h₄, h | ⟨h₅, h | ⟨h₆, h⟩⟩⟩⟩⟩⟩
  · exact .inl (.inl (.inl h))
  · exact .inl (.inl (.inr ⟨h₁, .inl h⟩))
  · exact .inl (.inl (.inr ⟨h₁, .inr ⟨h₂, .inl h⟩⟩))
  · exact .inl (.inl (.inr ⟨h₁, .inr ⟨h₂, .inr ⟨h₃, h⟩⟩⟩))
  · exact .inl (.inr ⟨⟨h₁, h₂, h₃, h₄⟩, .inl h⟩)
  · exact .inl (.inr ⟨⟨h₁, h₂, h₃, h₄⟩, .inr ⟨h₅, h⟩⟩)
  · exact .inr ⟨⟨⟨h₁, h₂, h₃, h₄⟩, h₅, h₆⟩, h⟩

/-- The selected row of a register. -/
lemma selectBestWorkloadValue_eq_some_iff {r : MvReg TaskRecord Uuid} {best : WorkloadValue} :
    letI := rowOrder
    selectBestWorkloadValue rules r.snapshot.vals = some best ↔
      best ∈ selectableRows r.snapshot.vals ∧ ∀ value ∈ selectableRows r.snapshot.vals,
        toLex (preferKey rules value, OrderDual.toDual value) ≤
          toLex (preferKey rules best, OrderDual.toDual best) :=
  letI := rowOrder
  picks_selectBest (shouldPreferWorkloadValue_iff rules) _
    (pairwise_selectableRows r.pairwise_vals_snapshot) best

variable {r : MvReg TaskRecord Uuid}

/-- A row that ranks highest is the selected one. -/
lemma selected_of_top_row {value : WorkloadValue}
    (hvalue : .workload value ∈ r.readValues)
    (hbest : ∀ e ∈ r.entries, rank rules e ≤ rank rules ⟨⊥, .workload value⟩) :
    selectBestWorkloadValue rules r.snapshot.vals = some value := by
  refine selectBestWorkloadValue_eq_some_iff.mpr ⟨?_, ?_⟩
  · refine mem_selectableRows.mpr ⟨mem_vals_snapshot.mpr hvalue, ?_⟩
    rw [Bool.eq_false_iff]
    intro hcovered
    obtain ⟨removal, hremoval, hle⟩ := covered_iff.mp hcovered
    obtain ⟨e, he, heq⟩ := mem_readValues.mp (mem_vals_snapshot.mp hremoval)
    have hlevel := level_le_of_rank_le rules _ _ (hbest e he)
    rw [heq, level_removal_le_row] at hlevel
    omega
  · intro other hother
    obtain ⟨hmem, -⟩ := mem_selectableRows.mp hother
    obtain ⟨⟨clock, _⟩, he, rfl⟩ := mem_readValues.mp (mem_vals_snapshot.mp hmem)
    exact preferKey_le_of_rank_le (hbest _ he)

/-- A removal that ranks highest covers every row, and no removal goes further. -/
lemma removed_of_top_removal {removal : WorkloadRemoval}
    (hremoval : .removal removal ∈ r.readValues)
    (hbest : ∀ e ∈ r.entries, rank rules e ≤ rank rules ⟨⊥, .removal removal⟩) :
    selectBestWorkloadValue rules r.snapshot.vals = none ∧
      selectRemovedTaskEpoch r.snapshot.vals = some removal.taskEpoch := by
  have hlevel : ∀ v ∈ r.snapshot.vals, v.level ≤ (TaskRecord.removal removal).level := by
    intro v hv
    obtain ⟨e, he, rfl⟩ := mem_readValues.mp (mem_vals_snapshot.mp hv)
    exact level_le_of_rank_le rules _ _ (hbest e he)
  have hmem := mem_vals_snapshot.mpr hremoval
  constructor
  · refine selectBest_eq_none.mpr (eq_nil_iff_forall_not_mem.mpr ?_)
    intro value hvalue
    obtain ⟨hin, huncovered⟩ := mem_selectableRows.mp hvalue
    rw [Bool.eq_false_iff] at huncovered
    exact huncovered (covered_iff.mpr ⟨removal, hmem, level_row_le_removal.mp (hlevel _ hin)⟩)
  · refine max?_eq_some_iff.mpr ⟨mem_filterMap.mpr ⟨_, hmem, rfl⟩, ?_⟩
    intro epoch hepoch
    obtain ⟨record, hrecord, heq⟩ := mem_filterMap.mp hepoch
    cases record with
    | workload value => cases heq
    | removal other =>
      cases heq
      exact level_removal_le_removal.mp (hlevel _ hrecord)

/-- **Compaction keeps what counts of a task**: the selected row, and where there is none the epoch
its removals go through. -/
lemma task_winner_kept (r : MvReg TaskRecord Uuid) {n : ℕ} (hn : 1 ≤ n) :
    selectBestWorkloadValue rules (r.compactWith n (rank rules)).1.snapshot.vals =
        selectBestWorkloadValue rules r.snapshot.vals ∧
      (selectBestWorkloadValue rules r.snapshot.vals = none →
        selectRemovedTaskEpoch (r.compactWith n (rank rules)).1.snapshot.vals =
          selectRemovedTaskEpoch r.snapshot.vals) := by
  by_cases hne : r.entries = []
  · rw [compactWith, if_pos (.inr (by simp [hne]))]
    exact ⟨rfl, fun _ => rfl⟩
  obtain ⟨top, htop, hcompacts⟩ :=
    compactWith_compacts (rank rules) (Nat.one_le_iff_ne_zero.mp hn) hne
  have hvalue : ∀ v, top.value = v → v ∈ r.readValues ∧
      v ∈ (r.compactWith n (rank rules)).1.readValues := by
    rintro v rfl
    exact ⟨mem_readValues.mpr ⟨top, hcompacts.top_mem, rfl⟩, hcompacts.top_mem_readValues⟩
  have hrank : ∀ v, top.value = v → ∀ e ∈ r.entries, rank rules e ≤ rank rules ⟨⊥, v⟩ := by
    rintro v rfl e he
    exact Prod.Lex.monotone_fst _ _ (htop e he)
  -- what is left has the values of some entries there were, and the rank reads values only
  have hrank' : ∀ v, top.value = v → ∀ e ∈ (r.compactWith n (rank rules)).1.entries,
        rank rules e ≤ rank rules ⟨⊥, v⟩ := by
    intro v hv e he
    obtain ⟨f, hf, hfe⟩ := hcompacts.value_mem e he
    have hle := hrank v hv f hf
    have hsame : rank rules f = rank rules e := by
      simp only [rank, hfe]
    rwa [hsame] at hle
  cases hcase : top.value with
  | workload value =>
    have hbefore := selected_of_top_row (hvalue _ hcase).1 (hrank _ hcase)
    have hafter := selected_of_top_row (hvalue _ hcase).2 (hrank' _ hcase)
    refine ⟨hafter.trans hbefore.symm, fun hnone => ?_⟩
    rw [hbefore] at hnone
    cases hnone
  | removal removal =>
    obtain ⟨hbefore, hepoch⟩ := removed_of_top_removal (hvalue _ hcase).1 (hrank _ hcase)
    obtain ⟨hafter, hepoch'⟩ := removed_of_top_removal (hvalue _ hcase).2 (hrank' _ hcase)
    exact ⟨hafter.trans hbefore.symm, fun _ => hepoch'.trans hepoch.symm⟩

end Tasks

/-! ## Admission groups and progress reports -/

/-- `ServiceGenerationProgressCounts`. -/
structure ServiceGenerationProgressCounts where
  observed : ℕ
  running : ℕ
  starting : ℕ
  blocked : ℕ
  stopping : ℕ
  terminal : ℕ
  deriving DecidableEq

/-- `ServiceGenerationProgressRecord`. -/
structure ServiceGenerationProgressRecord where
  id : Uuid
  serviceId : Uuid
  serviceName : String
  serviceEpoch : ℕ
  nodeId : Uuid
  nodeName : String
  counts : ServiceGenerationProgressCounts
  detail : Option String
  createdAt : String
  updatedAt : String
  deriving DecidableEq

/-- `observed_total`. -/
def ServiceGenerationProgressRecord.observedTotal (record : ServiceGenerationProgressRecord) : ℕ :=
  record.counts.observed

section Records

variable [LinearOrder WorkloadAdmissionGroupRecord] [LinearOrder ServiceGenerationProgressRecord]

variable (current candidate : ServiceGenerationProgressRecord)

/-- `should_accept_service_generation_progress_record`. -/
def shouldAcceptServiceGenerationProgressRecord :
    Bool :=
  let byCounts : Bool :=
    match compare candidate.observedTotal current.observedTotal with
    | .eq =>
      match compare candidate.counts.running current.counts.running with
      | .eq => current < candidate
      | order => order.isGT
    | order => order.isGT
  match rules.parseTimestamp current.updatedAt, rules.parseTimestamp candidate.updatedAt with
  | some currentTs, some candidateTs =>
    if currentTs < candidateTs then true else if candidateTs < currentTs then false else byCounts
  | none, some _ => true
  | some _, none => false
  | none, none => byCounts

variable (record : ServiceGenerationProgressRecord)

/-- What progress reports are selected by. -/
def progressKey :
    WithBot ℕ ×ₗ ℕ ×ₗ ℕ ×ₗ ServiceGenerationProgressRecord :=
  toLex (stampKey (rules.parseTimestamp record.updatedAt), toLex (record.observedTotal,
    toLex (record.counts.running, record)))

omit [LinearOrder WorkloadAdmissionGroupRecord] in
lemma shouldAcceptServiceGenerationProgressRecord_iff :
    shouldAcceptServiceGenerationProgressRecord rules current candidate = true ↔
      progressKey rules current < progressKey rules candidate := by
  have hcounts : (match compare candidate.observedTotal current.observedTotal with
      | .eq =>
        match compare candidate.counts.running current.counts.running with
        | .eq => decide (current < candidate)
        | order => order.isGT
      | order => order.isGT) = true ↔
      toLex (current.observedTotal, toLex (current.counts.running, current)) <
        toLex (candidate.observedTotal, toLex (candidate.counts.running, candidate)) := by
    simp only [Prod.Lex.toLex_lt_toLex]
    rcases lt_trichotomy candidate.observedTotal current.observedTotal with h | h | h
    · simp [Nat.compare_eq_lt.mpr h, h.not_gt, h.ne']
    · simp only [h, Std.ReflCmp.compare_self, lt_irrefl, false_or, true_and]
      rcases lt_trichotomy candidate.counts.running current.counts.running with h' | h' | h'
      · simp [Nat.compare_eq_lt.mpr h', h'.not_gt, h'.ne']
      · simp [h']
      · simp [Nat.compare_eq_gt.mpr h', h']
    · simp [Nat.compare_eq_gt.mpr h, h]
  unfold shouldAcceptServiceGenerationProgressRecord progressKey
  rw [Prod.Lex.toLex_lt_toLex]
  simp only [← hcounts]
  generalize rules.parseTimestamp current.updatedAt = currentTs
  generalize rules.parseTimestamp candidate.updatedAt = candidateTs
  cases currentTs with
  | none => cases candidateTs <;> simp [stampKey]
  | some currentTs =>
    cases candidateTs with
    | none => simp [stampKey]
    | some candidateTs =>
      simp only [stampKey]
      split_ifs with h₁ h₂
      · simp [h₁]
      · simp [h₂.not_gt, h₂.ne']
      · simp [le_antisymm (not_lt.mp h₂) (not_lt.mp h₁)]

/-- `select_best_service_generation_progress_record`. -/
def selectBestServiceGenerationProgressRecord (values : List ServiceGenerationProgressRecord) :
    Option ServiceGenerationProgressRecord :=
  selectBest (shouldAcceptServiceGenerationProgressRecord rules) values

/-- `WorkloadCompactionRank`, for progress reports. -/
def progressRank :
    ℕ ×ₗ ℕ ×ₗ WithBot ℕ ×ₗ Uuid ×ₗ ServiceGenerationProgressRecordᵒᵈ :=
  toLex (record.serviceEpoch, toLex (record.observedTotal, toLex
    (stampKey (parseWorkloadTimestamp rules record.updatedAt record.createdAt), toLex
      (record.nodeId, OrderDual.toDual record))))

variable (record : WorkloadAdmissionGroupRecord)

/-- `WorkloadCompactionRank` of an admission group, which reads nothing but the record. -/
def groupRank : ℕ ×ₗ WithBot ℕ ×ₗ Uuid ×ₗ WorkloadAdmissionGroupRecordᵒᵈ :=
  recordRank rules ⟨⊥, record⟩

/-- What admission groups are selected by, the smaller record first among equals. -/
def groupKey : (ℕ ×ₗ WithBot ℕ ×ₗ Uuid) ×ₗ WorkloadAdmissionGroupRecordᵒᵈ :=
  toLex (recordKey rules record, OrderDual.toDual record)

omit [LinearOrder WorkloadAdmissionGroupRecord] in
lemma picks_selectBestServiceGenerationProgressRecord :
    Picks (selectBestServiceGenerationProgressRecord rules) (progressKey rules) := by
  refine picks_of_injective ?_ fun a b _ =>
    shouldAcceptServiceGenerationProgressRecord_iff rules a b
  intro a b h
  simp only [progressKey, EmbeddingLike.apply_eq_iff_eq, Prod.mk.injEq] at h
  exact h.2.2.2

/-- **What compaction keeps of the workload store.** Of a task the selected row, or the epoch of
its removals where no row is left; of an admission group and of a progress report the selected
record exactly if no record ranks highest without being preferred to all others. -/
theorem workload_winner_kept_iff [LinearOrder TaskRecord] :
    (∀ (r : MvReg TaskRecord Uuid) (n : ℕ), 1 ≤ n →
      selectBestWorkloadValue rules (r.compactWith n (rank rules)).1.snapshot.vals =
        selectBestWorkloadValue rules r.snapshot.vals ∧
      (selectBestWorkloadValue rules r.snapshot.vals = none →
        selectRemovedTaskEpoch (r.compactWith n (rank rules)).1.snapshot.vals =
          selectRemovedTaskEpoch r.snapshot.vals)) ∧
    (∀ r : MvReg WorkloadAdmissionGroupRecord Uuid,
      (∀ n, 1 ≤ n →
        selectBestAdmissionGroupRecord rules (r.compactWith n (recordRank rules)).1.snapshot.vals =
          selectBestAdmissionGroupRecord rules r.snapshot.vals) ↔
      RanksAlike (groupRank rules) (groupKey rules) r.readValues) ∧
    (∀ r : MvReg ServiceGenerationProgressRecord Uuid,
      (∀ n, 1 ≤ n → selectBestServiceGenerationProgressRecord rules
          (r.compactWith n fun e => progressRank rules e.value).1.snapshot.vals =
        selectBestServiceGenerationProgressRecord rules r.snapshot.vals) ↔
      RanksAlike (progressRank rules) (progressKey rules) r.readValues) := by
  refine ⟨fun r n hn => task_winner_kept r hn, fun r => ?_, fun r => ?_⟩
  · have hrank : (recordRank rules : MvRegEntry WorkloadAdmissionGroupRecord Uuid → _) =
        fun e => groupRank rules e.value := rfl
    rw [hrank]
    exact (picks_selectBest (shouldAcceptAdmissionGroupRecord_iff rules)).kept_iff r
  · exact (picks_selectBestServiceGenerationProgressRecord rules).kept_iff r

end Records

/-- Two time stamps that parse. -/
def sampleTexts : TextRules where
  parseTimestamp text :=
    if text = "2026-01-01T00:00:01Z" then some 1
    else if text = "2026-01-01T00:00:02Z" then some 2
    else none
  isBlank text := text = ""

/-- The row of an earlier epoch is dropped. -/
theorem workload_winner_kept_sample :
    letI := someOrder TaskRecord
    letI := someOrder WorkloadAdmissionGroupRecord
    letI := someOrder ServiceGenerationProgressRecord
    let r : MvReg TaskRecord Uuid :=
      (new.write 0 (.workload (specToValue (gossipSpec 1 [3])))).merge
        (new.write 1 (.workload (specToValue (gossipSpec 2 [4]))))
    let compacted := (r.compactWith 1 (rank sampleTexts)).1
    r.entries.length = 2 ∧ compacted.entries.length = 1 ∧
      selectBestWorkloadValue sampleTexts compacted.snapshot.vals =
        selectBestWorkloadValue sampleTexts r.snapshot.vals := by
  let _ := someOrder TaskRecord
  let _ := someOrder WorkloadAdmissionGroupRecord
  let _ := someOrder ServiceGenerationProgressRecord
  exact ⟨by decide +kernel, by decide +kernel,
    ((workload_winner_kept_iff sampleTexts).1 _ 1 le_rfl).1⟩

/-- A report of node 0 about generation 1 of a service. -/
def progressReport (observed : ℕ) (updatedAt : String) : ServiceGenerationProgressRecord where
  id := 5
  serviceId := 1
  serviceName := "web"
  serviceEpoch := 1
  nodeId := 0
  nodeName := "node-0"
  counts := ⟨observed, observed, 0, 0, 0, 0⟩
  detail := none
  createdAt := "2026-01-01T00:00:01Z"
  updatedAt := updatedAt

/-- The report of one moment stored by node 0, and an earlier one stored by node 1. -/
def sampleProgress : MvReg ServiceGenerationProgressRecord Uuid :=
  (new.write 0 (progressReport 1 "2026-01-01T00:00:02Z")).merge
    (new.write 1 (progressReport 2 "2026-01-01T00:00:01Z"))

/-- The later of two reports is selected, and compaction keeps the earlier one: it has seen more
tasks. -/
theorem recent_progress_dropped :
    letI := someOrder ServiceGenerationProgressRecord
    selectBestServiceGenerationProgressRecord sampleTexts
        (sampleProgress.compactWith 1 fun e => progressRank sampleTexts e.value).1.snapshot.vals ≠
      selectBestServiceGenerationProgressRecord sampleTexts sampleProgress.snapshot.vals := by
  let _ := someOrder ServiceGenerationProgressRecord
  intro hkept
  have halike := (picks_selectBestServiceGenerationProgressRecord
    sampleTexts).ranksAlike_of_kept_one hkept
  rw [show sampleProgress.readValues = [progressReport 1 "2026-01-01T00:00:02Z",
    progressReport 2 "2026-01-01T00:00:01Z"] by decide +kernel] at halike
  have hrank : progressRank sampleTexts (progressReport 1 "2026-01-01T00:00:02Z") <
      progressRank sampleTexts (progressReport 2 "2026-01-01T00:00:01Z") :=
    Prod.Lex.toLex_lt_toLex.mpr (.inr ⟨rfl, Prod.Lex.toLex_lt_toLex.mpr (.inl (by decide))⟩)
  have hkey : progressKey sampleTexts (progressReport 2 "2026-01-01T00:00:01Z") <
      progressKey sampleTexts (progressReport 1 "2026-01-01T00:00:02Z") :=
    Prod.Lex.toLex_lt_toLex.mpr (.inl (by decide))
  refine absurd (halike _ (by simp) ?_ _ (mem_cons_self ..)) (not_le.mpr hkey)
  intro other hother
  rcases mem_pair.mp hother with rfl | rfl
  · exact Prod.Lex.toLex_le_toLex.mpr (.inl hrank)
  · exact le_rfl

end Mantissa.Workload
