import Mantissa.Agents.Model
import Mantissa.Jobs.Model
import Mantissa.Store.RowHistory

/-!
# Late events about jobs and agents

Jobs, agent sessions and agent runs are three kinds of rows with a history, so `Store/RowHistory`
applies to each. Controllers leave a job that has ended and a closed session alone; a run that has
ended they still change, when its session is cancelled or closed.

The event handlers of the three write the row of an event whatever is stored. A late event
therefore takes a node back: a job it knew to have succeeded runs again (`late_job_event`). Nodes
that only handle events that are not late never go back: `rows_survive_gossip`.
-/

namespace Mantissa.Agents

open RowNode

open Jobs (JobSpecValue JobOp JobText jobKey compareJobSpecs)
open Workload (saturatingSucc compareStamps_eq)

/-- A first component that does not fall and a second one that rises. -/
lemma toLex_lt_of_le_of_lt {α β : Type*} [LinearOrder α] [LinearOrder β] {γ : Type*} [LinearOrder γ]
    {a a' : α} {b b' : β} {c c' : γ} (ha : a ≤ a') (hb : b < b') :
    toLex (a, toLex (b, c)) < toLex (a', toLex (b', c')) := by
  rcases ha.lt_or_eq with hlt | rfl
  · exact Prod.Lex.toLex_lt_toLex.mpr (.inl hlt)
  · exact Prod.Lex.toLex_lt_toLex.mpr (.inr ⟨rfl, Prod.Lex.toLex_lt_toLex.mpr (.inl hb)⟩)

lemma lt_saturatingSucc {n : ℕ} (h : n < u64Max) : n < saturatingSucc n := by
  unfold saturatingSucc
  rw [if_pos h]
  exact Nat.lt_succ_self n

/-- Job rows. -/
def jobRules (text : JobText) : RowRules JobSpecValue JobOp (ℕ ×ₗ ℕ ×ₗ ℕ ×ₗ WithBot ℕ ×ₗ Uuid) where
  compareRows := compareJobSpecs text
  apply := JobOp.apply text
  isFinal := JobSpecValue.isTerminal
  raises _ job := job.phaseVersion < u64Max
  key := jobKey text
  compareRows_eq left right := by
    simp [compareJobSpecs, jobKey, compare_toLex, compareStamps_eq, Ordering.then_assoc]
  key_lt_apply op job hraises := by
    obtain ⟨hnext, hattempts⟩ := op.apply_mono text job
    refine toLex_lt_of_le_of_lt hattempts ?_
    rw [hnext]
    exact lt_saturatingSucc (of_decide_eq_true hraises)

/-- Session rows. -/
def sessionRules (text : AgentText) :
    RowRules AgentSessionSpecValue SessionOp (ℕ ×ₗ ℕ ×ₗ ℕ ×ₗ WithBot ℕ ×ₗ Uuid) where
  compareRows := compareAgentSessions text
  apply := SessionOp.apply text
  isFinal := AgentSessionSpecValue.isTerminal
  raises _ session := session.phaseVersion < u64Max
  key := sessionKey text
  compareRows_eq left right := by
    simp [compareAgentSessions, sessionKey, compare_toLex, compareStamps_eq, Ordering.then_assoc]
  key_lt_apply op session hraises := by
    obtain ⟨hnext, hevents⟩ := op.apply_mono text session
    refine toLex_lt_of_le_of_lt hevents ?_
    rw [hnext]
    exact lt_saturatingSucc (of_decide_eq_true hraises)

/-- Run rows. -/
def runRules (text : AgentText) :
    RowRules AgentRunSpecValue RunOp (ℕ ×ₗ ℕ ×ₗ WithBot ℕ ×ₗ Uuid) where
  compareRows := compareAgentRuns text
  apply := RunOp.apply text
  isFinal _ := false
  raises := RunOp.raises text
  key := runKey text
  compareRows_eq left right := by
    simp [compareAgentRuns, runKey, compare_toLex, compareStamps_eq, Ordering.then_assoc]
  key_lt_apply op run hraises := by
    cases op with
    | waitForPlacement error now =>
      -- phase version and status are the same, so the time stamps decide
      have hlt := of_decide_eq_true hraises
      simp [RunOp.apply, AgentRunSpecValue.waitForPlacement, runKey, Prod.Lex.toLex_lt_toLex, hlt]
    | _ =>
      exact Prod.Lex.toLex_lt_toLex.mpr (.inl (lt_saturatingSucc (of_decide_eq_true hraises)))

section Runs

variable [LinearOrder JobSpecValue] [LinearOrder AgentSessionSpecValue]
  [LinearOrder AgentRunSpecValue]

/-- **Events that are not late never bring back an older job, session or run.** -/
theorem rows_survive_gossip (jobText : JobText) (text : AgentText) (actor : Uuid) :
    (∀ (first : JobSpecValue) (node later : RowNode JobSpecValue Uuid),
      Reaches (step (jobRules jobText) actor) (RowNode.InOrder (jobRules jobText))
        (start first) node →
      Reaches (step (jobRules jobText) actor) (RowNode.InOrder (jobRules jobText))
        node later →
      RowNode.Kept (jobRules jobText) node later ∧
        ∀ job job', node.selected (jobRules jobText) = some job →
          later.selected (jobRules jobText) = some job' →
          job.attemptsStarted ≤ job'.attemptsStarted) ∧
    (∀ (first : AgentSessionSpecValue) (node later : RowNode AgentSessionSpecValue Uuid),
      Reaches (step (sessionRules text) actor) (RowNode.InOrder (sessionRules text))
        (start first) node →
      Reaches (step (sessionRules text) actor) (RowNode.InOrder (sessionRules text))
        node later →
      RowNode.Kept (sessionRules text) node later) ∧
    (∀ (first : AgentRunSpecValue) (node later : RowNode AgentRunSpecValue Uuid),
      Reaches (step (runRules text) actor) (RowNode.InOrder (runRules text))
        (start first) node →
      Reaches (step (runRules text) actor) (RowNode.InOrder (runRules text)) node later →
      RowNode.Kept (runRules text) node later) := by
  refine ⟨?_, ?_, ?_⟩
  · intro first node later hnode hlater
    have hkept := rowsKept hnode hlater
    refine ⟨hkept, ?_⟩
    intro job job' hjob hjob'
    obtain ⟨row, hrow, -, hle, -⟩ := hkept.grows job hjob
    obtain rfl : row = job' := Option.some.inj (hrow.symm.trans hjob')
    -- The key of a job starts with its attempts.
    rcases Prod.Lex.toLex_le_toLex.mp hle with hlt | ⟨heq, -⟩
    · exact hlt.le
    · exact heq.le
  · intro first node later hnode hlater
    exact rowsKept hnode hlater
  · intro first node later hnode hlater
    exact rowsKept hnode hlater

end Runs

/-! ## A job that runs again -/

/-- A job as submitted. -/
def sampleJob : JobSpecValue :=
  .new ⟨1, "job", "", .oci, .standard, none, .incremental, ⟨0, 2⟩, ⟨60, 60⟩⟩ "t0"

/-- The changes of a job whose only attempt succeeds. -/
def sampleOps : List JobOp :=
  [.reserveAttempt 5 "t1", .markRunning 5 none "t2", .markSucceeded 5 none "t3"]

/-- The job after some of the changes. -/
def sampleRow (text : JobText) (changes : ℕ) : JobSpecValue :=
  (sampleOps.take changes).foldl (fun job op => op.apply text job) sampleJob

/-- No text is a time stamp, and details are kept as they are. -/
def plainText : JobText := ⟨fun _ => none, id⟩

/-- Two changes are published. The node hears of the first, then of the second, and makes the third
itself. It started with the reserved attempt and ends with the success, which is the newest row. -/
theorem rows_survive_gossip_sample :
    letI := someOrder JobSpecValue
    ∃ node later : RowNode JobSpecValue Uuid,
      Reaches (step (jobRules plainText) 9) (RowNode.InOrder (jobRules plainText))
        (start sampleJob) node ∧
      Reaches (step (jobRules plainText) 9) (RowNode.InOrder (jobRules plainText))
        node later ∧
      node.selected (jobRules plainText) = some (sampleRow plainText 1) ∧
      later.selected (jobRules plainText) = some (sampleRow plainText 3) ∧
      RowNode.Kept (jobRules plainText) node later := by
  let _ := someOrder JobSpecValue
  let _ := someOrder AgentSessionSpecValue
  let _ := someOrder AgentRunSpecValue
  have hnode : Reaches (step (jobRules plainText) 9) (RowNode.InOrder (jobRules plainText))
      (start sampleJob) _ := reaches_of_runActions [.publish (.reserveAttempt 5 "t1"),
        .publish (.markRunning 5 none "t2"), .handle 1] rfl
  have hlater : ∀ {s t}, runActions (step (jobRules plainText) 9)
      (RowNode.InOrder (jobRules plainText)) s
        [.handle 0, .transition (.markSucceeded 5 none "t3")] = some t → Reaches _ _ s t :=
    reaches_of_runActions _
  exact ⟨_, _, hnode, hlater rfl, by decide +kernel, by decide +kernel,
    ((rows_survive_gossip plainText ⟨fun _ => none, id⟩ 9).1 sampleJob _ _ hnode (hlater rfl)).1⟩

/-- The event of the submission arrives after the one of the success: the node takes the job for
pending again, with no attempt started. -/
theorem late_job_event :
    letI := someOrder JobSpecValue
    ∃ node later : RowNode JobSpecValue Uuid, ∃ succeeded : JobSpecValue,
      Reaches (step (jobRules plainText) 9) anyStep (start sampleJob) node ∧
      node.step (jobRules plainText) 9 (.handle 3) = some later ∧
      node.selected (jobRules plainText) = some succeeded ∧ succeeded.status = .succeeded ∧
      later.selected (jobRules plainText) = some sampleJob ∧ sampleJob.isTerminal = false ∧
      compareJobSpecs plainText sampleJob succeeded = .lt ∧
      sampleJob.attemptsStarted < succeeded.attemptsStarted := by
  let _ := someOrder JobSpecValue
  exact ⟨_, _, sampleRow plainText 3,
    reaches_of_runActions (sampleOps.map .publish ++ [.handle 0]) rfl, rfl,
    selected_upsert _ _, rfl, selected_upsert _ _, rfl, rfl, Nat.zero_lt_one⟩

end Mantissa.Agents
