import Mantissa.Workload.Selection

/-!
# Agent sessions and runs

A session is the durable record of an agent, and a run is one execution slice of it. Both rows have
a phase version. A session also numbers its events, and `compareAgentSessions` puts that number
first.

The changes are the methods of the two records, collected in `SessionOp` and `RunOp`. All but one
raise the phase version: a run that waits for a placement is stored again with a new detail and time
stamp only.
-/

namespace Mantissa.Agents

open Workload (stampKey compareStamps saturatingSucc le_saturatingSucc)

/-- How texts are read. -/
structure AgentText where
  parseTimestamp : String → Option ℕ
  normalizeOptionalText : Option String → Option String

/-! ## Sessions -/

inductive AgentEventKind
  | userInput
  | needInput
  | runQueued
  | runStarted
  | runCompleted
  | runFailed
  | runCancelled
  | sessionClosed
  deriving DecidableEq

structure AgentEventEntry where
  sequence : ℕ
  createdAt : String
  kind : AgentEventKind
  runId : Option Uuid
  message : Option String
  deriving DecidableEq

inductive AgentSessionStatus
  | waitingInput
  | queued
  | running
  | failed
  | closing
  | closed
  deriving DecidableEq

/-- `AgentSessionStatus::precedence_rank`. -/
def AgentSessionStatus.precedenceRank : AgentSessionStatus → ℕ
  | .waitingInput => 0
  | .queued => 1
  | .running => 2
  | .failed => 3
  | .closing => 4
  | .closed => 5

/-- `AgentSessionSpecValue`, without the execution template and the policies. -/
structure AgentSessionSpecValue where
  id : Uuid
  updatedAt : String
  phaseVersion : ℕ
  status : AgentSessionStatus
  statusDetail : Option String
  activeRunId : Option Uuid
  lastRunId : Option Uuid
  pendingInput : Option String
  eventSequence : ℕ
  events : List AgentEventEntry
  deriving DecidableEq

/-- `MAX_AGENT_EVENTS`. -/
def maxAgentEvents : ℕ := 64

namespace AgentSessionSpecValue

variable (text : AgentText)

variable (session : AgentSessionSpecValue)

/-- `is_terminal`. -/
def isTerminal : Bool := decide (session.status = .closed)

/-- `push_event`. -/
def pushEvent (kind : AgentEventKind) (runId : Option Uuid)
    (message : Option String) (now : String) : AgentSessionSpecValue :=
  let sequence := saturatingSucc session.eventSequence
  let events := session.events ++
    [⟨sequence, now, kind, runId, text.normalizeOptionalText message⟩]
  { session with eventSequence := sequence, events := events.drop (events.length - maxAgentEvents) }

/-- What every change starts with: the next phase version, a status and its detail. -/
def enter (status : AgentSessionStatus) (detail : Option String)
    (now : String) : AgentSessionSpecValue :=
  { session with
    phaseVersion := saturatingSucc session.phaseVersion
    status := status
    statusDetail := detail
    updatedAt := now }

/-- `queue_input`. -/
def queueInput (input now : String) : AgentSessionSpecValue :=
  { session.enter .queued (some "agent run queued") now with pendingInput := some input }.pushEvent
    text .userInput none (some input) now

variable (runId : Uuid)

/-- `mark_run_queued`; `runName` is the id as a text. -/
def markRunQueued (runName now : String) : AgentSessionSpecValue :=
  { session.enter .queued (some s!"agent run {runName} queued") now with
    activeRunId := some runId, lastRunId := some runId, pendingInput := none }.pushEvent
    text .runQueued (some runId) (some "sandbox run queued") now

variable (detail : Option String) (now : String)

/-- `mark_run_running`. -/
def markRunRunning : AgentSessionSpecValue :=
  let detail := text.normalizeOptionalText detail
  { session.enter .running detail now with
    activeRunId := some runId, lastRunId := some runId }.pushEvent
    text .runStarted (some runId) detail now

/-- `mark_waiting_input`. -/
def markWaitingInput : AgentSessionSpecValue :=
  let detail := text.normalizeOptionalText detail
  ({ session.enter .waitingInput detail now with
    activeRunId := none, lastRunId := some runId }.pushEvent
    text .runCompleted (some runId) detail now).pushEvent
    text .needInput none (some "agent session is waiting for more input") now

/-- `mark_failed`. -/
def markFailed : AgentSessionSpecValue :=
  let detail := text.normalizeOptionalText detail
  { session.enter .failed detail now with activeRunId := none, lastRunId := some runId }.pushEvent
    text .runFailed (some runId) detail now

/-- `mark_cancel_requested`, which records no event. -/
def markCancelRequested : AgentSessionSpecValue :=
  let status := if session.status ≠ .running then .queued else session.status
  { session.enter status (text.normalizeOptionalText detail) now with
    activeRunId := some runId, lastRunId := some runId, pendingInput := none }

/-- `mark_cancelled_waiting_input`. -/
def markCancelledWaitingInput : AgentSessionSpecValue :=
  let detail := text.normalizeOptionalText detail
  ({ session.enter .waitingInput detail now with
    activeRunId := none, lastRunId := some runId, pendingInput := none }.pushEvent
    text .runCancelled (some runId) detail now).pushEvent
    text .needInput none (some "agent session is waiting for more input") now

/-- `mark_cancelled_closed`. -/
def markCancelledClosed : AgentSessionSpecValue :=
  let detail := text.normalizeOptionalText detail
  ({ session.enter .closed detail now with
    activeRunId := none, lastRunId := some runId, pendingInput := none }.pushEvent
    text .runCancelled (some runId) detail now).pushEvent
    text .sessionClosed none detail now

/-- `cancel_pending_input`. -/
def cancelPendingInput : AgentSessionSpecValue :=
  { session.enter .waitingInput (text.normalizeOptionalText detail) now with
    activeRunId := none, pendingInput := none }.pushEvent
    text .needInput none (some "agent session is waiting for more input") now

/-- `request_close`, which records no event. -/
def requestClose : AgentSessionSpecValue :=
  { session.enter .closing (text.normalizeOptionalText detail) now with pendingInput := none }

/-- `close`. -/
def close : AgentSessionSpecValue :=
  let detail := text.normalizeOptionalText detail
  { session.enter .closed detail now with activeRunId := none, pendingInput := none }.pushEvent
    text .sessionClosed none detail now

end AgentSessionSpecValue

/-- The changes of a session row. -/
inductive SessionOp
  | queueInput (input now : String)
  | markRunQueued (runId : Uuid) (runName now : String)
  | markRunRunning (runId : Uuid) (detail : Option String) (now : String)
  | markWaitingInput (runId : Uuid) (detail : Option String) (now : String)
  | markFailed (runId : Uuid) (detail : Option String) (now : String)
  | markCancelRequested (runId : Uuid) (detail : Option String) (now : String)
  | markCancelledWaitingInput (runId : Uuid) (detail : Option String) (now : String)
  | markCancelledClosed (runId : Uuid) (detail : Option String) (now : String)
  | cancelPendingInput (detail : Option String) (now : String)
  | requestClose (detail : Option String) (now : String)
  | close (detail : Option String) (now : String)
  deriving DecidableEq

variable (text : AgentText)

/-- The row after a change. -/
def SessionOp.apply (op : SessionOp) (session : AgentSessionSpecValue) : AgentSessionSpecValue :=
  match op with
  | .queueInput input now => session.queueInput text input now
  | .markRunQueued runId runName now => session.markRunQueued text runId runName now
  | .markRunRunning runId detail now => session.markRunRunning text runId detail now
  | .markWaitingInput runId detail now => session.markWaitingInput text runId detail now
  | .markFailed runId detail now => session.markFailed text runId detail now
  | .markCancelRequested runId detail now => session.markCancelRequested text runId detail now
  | .markCancelledWaitingInput runId detail now =>
    session.markCancelledWaitingInput text runId detail now
  | .markCancelledClosed runId detail now => session.markCancelledClosed text runId detail now
  | .cancelPendingInput detail now => session.cancelPendingInput text detail now
  | .requestClose detail now => session.requestClose text detail now
  | .close detail now => session.close text detail now

/-- A change raises the phase version and does not take event numbers back. -/
lemma SessionOp.apply_mono (op : SessionOp) (session : AgentSessionSpecValue) :
    (op.apply text session).phaseVersion = saturatingSucc session.phaseVersion ∧
      session.eventSequence ≤ (op.apply text session).eventSequence := by
  have hone := le_saturatingSucc session.eventSequence
  have htwo := le_saturatingSucc (saturatingSucc session.eventSequence)
  cases op with
  | markWaitingInput | markCancelledWaitingInput | markCancelledClosed =>
    exact ⟨rfl, hone.trans htwo⟩
  | markCancelRequested | requestClose => exact ⟨rfl, le_rfl⟩
  | _ => exact ⟨rfl, hone⟩

/-- `compare_agent_sessions`. -/
def compareAgentSessions (left right : AgentSessionSpecValue) : Ordering :=
  ((((compare left.eventSequence right.eventSequence).then
    (compare left.phaseVersion right.phaseVersion)).then
    (compare left.status.precedenceRank right.status.precedenceRank)).then
    (compareStamps (text.parseTimestamp left.updatedAt)
      (text.parseTimestamp right.updatedAt))).then
    (compare left.id right.id)

/-- What `compare_agent_sessions` compares. -/
def sessionKey (session : AgentSessionSpecValue) : ℕ ×ₗ ℕ ×ₗ ℕ ×ₗ WithBot ℕ ×ₗ Uuid :=
  toLex (session.eventSequence, toLex (session.phaseVersion, toLex (session.status.precedenceRank,
    toLex (stampKey (text.parseTimestamp session.updatedAt), session.id))))

/-! ## Runs -/

inductive AgentRunStatus
  | pending
  | running
  | succeeded
  | failed
  | cancelled
  deriving DecidableEq

/-- `AgentRunStatus::precedence_rank`. -/
def AgentRunStatus.precedenceRank : AgentRunStatus → ℕ
  | .pending => 0
  | .running => 1
  | .cancelled => 2
  | .failed => 3
  | .succeeded => 4

/-- `AgentRunSpecValue`, without the execution template and the policies. -/
structure AgentRunSpecValue where
  id : Uuid
  sessionId : Uuid
  updatedAt : String
  phaseVersion : ℕ
  status : AgentRunStatus
  statusDetail : Option String
  workloadId : Option Uuid
  exitCode : Option ℤ
  startedAt : Option String
  finishedAt : Option String
  deriving DecidableEq

namespace AgentRunSpecValue

variable (run : AgentRunSpecValue)

/-- What most changes start with: the next phase version, a status and its detail. -/
def enter (status : AgentRunStatus) (detail : Option String) (now : String) : AgentRunSpecValue :=
  { run with
    phaseVersion := saturatingSucc run.phaseVersion
    status := status
    statusDetail := text.normalizeOptionalText detail
    updatedAt := now }

variable (workloadId : Uuid) (exitCode : Option ℤ) (detail : Option String) (now : String)

/-- `mark_pending_detail`. -/
def markPendingDetail : AgentRunSpecValue :=
  run.enter text .pending detail now

/-- `bind_workload`. -/
def bindWorkload : AgentRunSpecValue :=
  { run.enter text .pending detail now with workloadId := some workloadId }

/-- `mark_running`. -/
def markRunning : AgentRunSpecValue :=
  { run.enter text .running detail now with
    workloadId := some workloadId, startedAt := run.startedAt.or (some now) }

/-- What `mark_succeeded`, `mark_failed` and `mark_cancelled` share. -/
def finish (status : AgentRunStatus) (exitCode : Option ℤ)
    (detail : Option String) (now : String) : AgentRunSpecValue :=
  { run.enter text status detail now with exitCode := exitCode, finishedAt := some now }

/-- `mark_succeeded`. -/
def markSucceeded : AgentRunSpecValue :=
  run.finish text .succeeded exitCode detail now

/-- `mark_failed`. -/
def markFailed : AgentRunSpecValue :=
  run.finish text .failed exitCode detail now

/-- `request_cancel`, which leaves the status. -/
def requestCancel : AgentRunSpecValue :=
  run.enter text run.status detail now

/-- `mark_cancelled`. -/
def markCancelled : AgentRunSpecValue :=
  run.finish text .cancelled exitCode detail now

/-- What `ensure_run_started` stores when a start may be tried again. The phase version stays. -/
def waitForPlacement (error now : String) : AgentRunSpecValue :=
  { run with statusDetail := some s!"waiting for sandbox placement: {error}", updatedAt := now }

end AgentRunSpecValue

/-- The changes of a run row. -/
inductive RunOp
  | markPendingDetail (detail : Option String) (now : String)
  | bindWorkload (workloadId : Uuid) (detail : Option String) (now : String)
  | markRunning (workloadId : Uuid) (detail : Option String) (now : String)
  | markSucceeded (exitCode : Option ℤ) (detail : Option String) (now : String)
  | markFailed (exitCode : Option ℤ) (detail : Option String) (now : String)
  | requestCancel (detail : Option String) (now : String)
  | markCancelled (exitCode : Option ℤ) (detail : Option String) (now : String)
  | waitForPlacement (error now : String)
  deriving DecidableEq

/-- The row after a change. -/
def RunOp.apply (op : RunOp) (run : AgentRunSpecValue) : AgentRunSpecValue :=
  match op with
  | .markPendingDetail detail now => run.markPendingDetail text detail now
  | .bindWorkload workloadId detail now => run.bindWorkload text workloadId detail now
  | .markRunning workloadId detail now => run.markRunning text workloadId detail now
  | .markSucceeded exitCode detail now => run.markSucceeded text exitCode detail now
  | .markFailed exitCode detail now => run.markFailed text exitCode detail now
  | .requestCancel detail now => run.requestCancel text detail now
  | .markCancelled exitCode detail now => run.markCancelled text exitCode detail now
  | .waitForPlacement error now => run.waitForPlacement error now

/-- When a change gives a later row: a new phase version, or else a later time stamp. -/
def RunOp.raises (op : RunOp) (run : AgentRunSpecValue) : Bool :=
  match op with
  | .waitForPlacement _ now =>
    stampKey (text.parseTimestamp run.updatedAt) < stampKey (text.parseTimestamp now)
  | _ => run.phaseVersion < u64Max

/-- `compare_agent_runs`. -/
def compareAgentRuns (left right : AgentRunSpecValue) : Ordering :=
  (((compare left.phaseVersion right.phaseVersion).then
    (compare left.status.precedenceRank right.status.precedenceRank)).then
    (compareStamps (text.parseTimestamp left.updatedAt)
      (text.parseTimestamp right.updatedAt))).then
    (compare left.id right.id)

/-- What `compare_agent_runs` compares. -/
def runKey (run : AgentRunSpecValue) : ℕ ×ₗ ℕ ×ₗ WithBot ℕ ×ₗ Uuid :=
  toLex (run.phaseVersion, toLex (run.status.precedenceRank,
    toLex (stampKey (text.parseTimestamp run.updatedAt), run.id)))

end Mantissa.Agents
