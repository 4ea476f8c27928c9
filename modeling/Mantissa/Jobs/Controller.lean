import Mantissa.Core.FairRun
import Mantissa.Jobs.Model

/-!
# The job controller of one node

A job is changed by two kinds of tasks on a node: at most one reconcile worker, and the calls of
`cancel_job`. Both read the row, wait for the workload manager and write the row again, and another
task can run at every `await`. A task is therefore a program counter with what it has read
(`WorkerPc`, `CancelPc`); a step goes from one `await` to the next. A write is a step of its own,
after the step that computed the row.

What a task learns from outside is an input: the observed phase of a workload (`none` if it is
missing), the outcome of a start, deadlines, ids and times.
-/

namespace Mantissa.Jobs

open Workload (WorkloadPhase)

/-- What a task learns from outside at one step. -/
structure Inputs where
  owned : Bool
  workloadId : Uuid
  nowSecs : ℕ
  now : String
  deadline : String
  /-- The phase of the inspected workload and whether its healthy deadline has passed. -/
  observed : Option (WorkloadPhase × Bool)
  progressExpired : Bool
  readiness : Option String
  /-- The started workload, or the error and whether it can be retried. -/
  started : Except (String × Bool) Uuid

/-- `workload_phase_is_terminal`. -/
def workloadPhaseIsTerminal : WorkloadPhase → Bool
  | .exited _ | .failed | .stopped => true
  | _ => false

/-- The debug text of the phases before a workload runs. -/
def startupPhaseName : WorkloadPhase → Option String
  | .pending => some "Pending"
  | .pulling => some "Pulling"
  | .creating => some "Creating"
  | .volumeUnavailable => some "VolumeUnavailable"
  | _ => none

variable (text : JobText)

variable (job : JobSpecValue)

/-- The row `fail_or_retry_task` writes. -/
def failOrRetryTask (workloadId : Option Uuid) (detail : String)
    (exitCode : Option ℤ) (input : Inputs) : JobSpecValue :=
  if job.canRetry then job.markRetrying text (some detail) input.deadline input.now
  else job.markFailed text workloadId (some detail) exitCode input.now

variable (workloadId : Uuid)

/-- The row `adopt_observed_task` writes, for an active workload in the given phase. -/
def observedRow (phase : WorkloadPhase) (healthExpired : Bool) (input : Inputs) : JobSpecValue :=
  match phase with
  | .exited code =>
    if code = 0 then
      job.markSucceeded text workloadId (some "completed successfully") input.now
    else
      failOrRetryTask text job (some workloadId)
        s!"attempt {job.attemptsStarted} exited with code {code}" (some code) input
  | .failed =>
    failOrRetryTask text job (some workloadId) s!"attempt {job.attemptsStarted} failed" none input
  | .stopped =>
    failOrRetryTask text job (some workloadId)
      s!"attempt {job.attemptsStarted} stopped before success" none input
  | phase =>
    let attempt := max job.attemptsStarted 1
    let running := job.markRunning text workloadId (some s!"attempt {attempt} active") input.now
    match startupPhaseName phase, healthExpired with
    | some name, true =>
      let limit := job.deploymentPolicy.healthyDeadlineSecs
      failOrRetryTask text job (some workloadId)
        s!"attempt {job.attemptsStarted} exceeded {limit}s healthy deadline while in {name}"
        none input
    | _, _ => running

/-- `adopt_observed_task` up to its write; `none` if there is nothing to write. -/
def adoptObservedTask (phase : WorkloadPhase)
    (healthExpired : Bool) (input : Inputs) : Option JobSpecValue :=
  if job.isTerminal then none
  else if job.activeWorkloadId ≠ some workloadId then none
  else some (observedRow text job workloadId phase healthExpired input)

/-! ## The reconcile worker -/

/-- For which status a worker inspects a workload. -/
inductive Purpose
  | pending
  | running
  | cancelling
  deriving DecidableEq

inductive WorkerPc
  /-- Spawned, before `reconcile_job` reads the row. -/
  | spawned
  /-- In `inspect_workload`, with the row that was read before. -/
  | inspecting (spec : JobSpecValue) (workloadId : Uuid) (purpose : Purpose)
  /-- In `apply_upsert`; `launch` is the attempt to launch afterwards. -/
  | writing (row : JobSpecValue) (launch : Option Uuid)
  /-- After the broadcast of a reservation, before `launch_reserved_attempt`. -/
  | launching (workloadId : Uuid)
  /-- In `start_workloads_with_admission_policy`. -/
  | starting (workloadId : Uuid)
  /-- In `request_workload_stop`. -/
  | stopping
  /-- Before `finish_job` removes the marker. -/
  | finishing
  deriving DecidableEq

variable (input : Inputs)

/-- `launch_reserved_attempt` up to its next `await`. -/
def launchReservedAttempt : WorkerPc :=
  if job.isTerminal ∨ job.status ≠ .pending ∨ job.activeWorkloadId ≠ some workloadId then .finishing
  else if job.activeAttemptStartedAt.isSome ∧ input.progressExpired then
    let attempt := job.attemptsStarted
    let limit := job.deploymentPolicy.progressDeadlineSecs
    .writing (failOrRetryTask text job (some workloadId)
      s!"launch attempt {attempt} exceeded {limit}s deployment progress deadline before workload start"
      none input) none
  else
    match input.readiness with
    | some detail =>
      if job.statusDetail ≠ some detail then
        .writing (job.markPendingDetail text (some detail) input.now) none
      else .finishing
    | none => .starting workloadId

/-- `reconcile_job` up to its first `await`. -/
def reconcileJob : WorkerPc :=
  if !input.owned ∨ job.isTerminal then .finishing
  else
    match job.status, job.activeWorkloadId with
    | .pending, none =>
      .writing (job.reserveAttempt input.workloadId input.now) (some input.workloadId)
    | .pending, some workloadId => .inspecting job workloadId .pending
    | .running, none =>
      .writing (failOrRetryTask text job none "running job lost its active task id" none input) none
    | .running, some workloadId => .inspecting job workloadId .running
    | .retrying, _ =>
      if job.retryDue text input.nowSecs then
        .writing (job.reserveAttempt input.workloadId input.now) (some input.workloadId)
      else .finishing
    | .cancelling, none =>
      .writing (job.markCancelled text job.lastWorkloadId (some "cancelled") input.now) none
    | .cancelling, some workloadId => .inspecting job workloadId .cancelling
    | _, _ => .finishing

/-- The check of `reconcile_cancelling_job` before it stores the end of the cancellation. -/
def cancelObserved (detail : String) (input : Inputs) : WorkerPc :=
  if job.isTerminal ∨ job.status ≠ .cancelling ∨ job.activeWorkloadId ≠ some workloadId then
    .finishing
  else .writing (job.markCancelled text (some workloadId) (some detail) input.now) none

/-- What follows an inspection; `job` is the row now, `spec` the one that was read before. -/
def afterInspection (job spec : JobSpecValue) (workloadId : Uuid) (purpose : Purpose)
    (input : Inputs) : WorkerPc :=
  match purpose, input.observed with
  | .cancelling, some (phase, _) =>
    if workloadPhaseIsTerminal phase then cancelObserved text job workloadId "cancelled" input
    else .stopping
  | .cancelling, none =>
    cancelObserved text job workloadId "cancelled after the workload attempt disappeared" input
  | .pending, none => launchReservedAttempt text job workloadId input
  | .running, none =>
    .writing (failOrRetryTask text spec none
      s!"active workload {workloadId} is missing from the replicated workload store" none input)
        none
  | _, some (phase, healthExpired) =>
    match adoptObservedTask text job workloadId phase healthExpired input with
    | some row => .writing row none
    | none => .finishing

/-- What follows the start of a workload. -/
def afterStart : WorkerPc :=
  if job.isTerminal ∨ job.activeWorkloadId ≠ some workloadId then .finishing
  else
    match input.started with
    | .ok taskId =>
      .writing (job.markRunning text taskId (some s!"attempt {job.attemptsStarted} running")
        input.now) none
    | .error (error, retryable) =>
      let detail := s!"launch attempt {job.attemptsStarted} failed: {error}"
      if job.canRetry ∧ retryable then
        .writing (job.markRetrying text (some detail) input.deadline input.now) none
      else .writing (job.markFailed text (some workloadId) (some detail) none input.now) none

/-! ## Calls of `cancel_job` -/

inductive CancelPc
  /-- Before the row is read. -/
  | called
  /-- In `inspect_workload`. -/
  | inspecting (workloadId : Uuid)
  /-- In the `apply_upsert` of an adopted phase. -/
  | adopting (row : JobSpecValue)
  /-- In the `apply_upsert` of the cancellation. -/
  | storing (row : JobSpecValue)
  /-- In `request_workload_stop`. -/
  | stopping
  | returned
  deriving DecidableEq

/-- The row that records the cancellation. -/
def cancellationRow (input : Inputs) : JobSpecValue :=
  if job.activeWorkloadId.isSome then
    job.markCancelling text (some "cancellation requested") input.now
  else
    job.markCancelled text job.lastWorkloadId
      (some "cancelled before launching a workload attempt") input.now

/-- `cancel_job` from its second read to the write. -/
def recordCancellation (input : Inputs) : CancelPc :=
  if job.isTerminal then .returned else .storing (cancellationRow text job input)

/-- `cancel_job` up to its next `await`. -/
def cancelJob (pc : CancelPc) (input : Inputs) : CancelPc :=
  match pc with
  | .called =>
    if job.isTerminal then .returned
    else
      match job.activeWorkloadId with
      | some workloadId => .inspecting workloadId
      | none => recordCancellation text job input
  | .inspecting workloadId =>
    match input.observed with
    | some (phase, healthExpired) =>
      if workloadPhaseIsTerminal phase then
        match adoptObservedTask text job workloadId phase healthExpired input with
        | some row => .adopting row
        | none => .returned
      else recordCancellation text job input
    | none => recordCancellation text job input
  | .storing row => if row.activeWorkloadId.isSome then .stopping else .returned
  | .adopting _ | .stopping | .returned => .returned

/-- The row a call is about to write. -/
def CancelPc.row? : CancelPc → Option JobSpecValue
  | .adopting row | .storing row => some row
  | _ => none

/-- The call is about to store the cancellation. -/
def CancelPc.stores : CancelPc → Bool
  | .storing _ => true
  | _ => false

/-! ## The node -/

/-- The row of a job on its node and the tasks that work on it. `cancelStored` and `launches`
record that a cancellation was stored and how many workloads were started. -/
structure JobNode where
  job : JobSpecValue
  worker : Option WorkerPc
  cancels : List CancelPc
  cancelStored : Bool
  launches : ℕ

/-- A job with no task. -/
def JobNode.start : JobNode := ⟨job, none, [], false, 0⟩

inductive JobAction
  | spawn
  | worker (input : Inputs)
  | callCancel
  | cancel (call : ℕ) (input : Inputs)

namespace JobNode

variable (node : JobNode)

/-- The worker goes on; entering `starting` launches a workload. -/
def setWorker (pc : WorkerPc) : JobNode :=
  { node with
    worker := some pc
    launches := match pc with
      | .starting _ => node.launches + 1
      | _ => node.launches }

/-- One step of the worker. -/
def workerStep (pc : WorkerPc) (input : Inputs) : JobNode :=
  match pc with
  | .spawned => node.setWorker (reconcileJob text node.job input)
  | .inspecting spec workloadId purpose =>
    node.setWorker (afterInspection text node.job spec workloadId purpose input)
  | .writing row none => { node with job := row }.setWorker .finishing
  | .writing row (some workloadId) => { node with job := row }.setWorker (.launching workloadId)
  | .launching workloadId => node.setWorker (launchReservedAttempt text node.job workloadId input)
  | .starting workloadId => node.setWorker (afterStart text node.job workloadId input)
  | .stopping => node.setWorker .finishing
  | .finishing => { node with worker := none }

/-- One step of a call of `cancel_job`. -/
def cancelStep (call : ℕ) (pc : CancelPc) (input : Inputs) : JobNode :=
  { node with
    job := pc.row?.getD node.job
    cancelStored := node.cancelStored || pc.stores
    cancels := node.cancels.set call (cancelJob text node.job pc input) }

/-- One step of the node. -/
def step : JobAction → Option JobNode
  | .spawn =>
    if node.worker.isNone ∧ node.job.isTerminal = false then
      some { node with worker := some .spawned }
    else none
  | .worker input => node.worker.map fun pc => node.workerStep text pc input
  | .callCancel => some { node with cancels := node.cancels ++ [.called] }
  | .cancel call input =>
    match node.cancels[call]? with
    | some .returned | none => none
    | some pc => some (node.cancelStep text call pc input)

end JobNode

end Mantissa.Jobs
