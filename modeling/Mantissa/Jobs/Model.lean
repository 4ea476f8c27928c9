import Mantissa.Workload.Selection

/-!
# Jobs

A job owns a sequence of workload attempts. Its row carries the attempts started so far, a phase
version that every change raises, and the status. `compareJobSpecs` orders rows by these three,
then by time and id; `jobKey` is the key it compares.

The changes of a row are the methods of `JobSpecValue`, collected in `JobOp`. Each takes the
current time as a text. Reading a time stamp and trimming a detail are parameters.
-/

namespace Mantissa.Jobs

open Workload (stampKey compareStamps saturatingSucc)

inductive JobStatus
  | pending
  | running
  | retrying
  | cancelling
  | succeeded
  | failed
  | cancelled
  deriving DecidableEq

/-- `JobStatus::precedence_rank`. -/
def JobStatus.precedenceRank : JobStatus → ℕ
  | .pending => 0
  | .retrying => 1
  | .running => 2
  | .cancelling => 3
  | .succeeded => 4
  | .cancelled => 5
  | .failed => 6

structure JobRetryPolicy where
  maxRetries : ℕ
  backoffSecs : ℕ
  deriving DecidableEq

/-- `JobDeploymentPolicy`: the deadlines of an attempt. -/
structure JobDeploymentPolicy where
  progressDeadlineSecs : ℕ
  healthyDeadlineSecs : ℕ
  deriving DecidableEq

/-- `u32::MAX`. -/
def u32Max : ℕ := 2 ^ 32 - 1

/-- `u32::saturating_add(1)`. -/
def saturatingSucc32 (n : ℕ) : ℕ := if n < u32Max then n + 1 else n

lemma le_saturatingSucc32 (n : ℕ) : n ≤ saturatingSucc32 n := by
  unfold saturatingSucc32
  split_ifs <;> omega

/-- `total_attempts`. -/
def JobRetryPolicy.totalAttempts (policy : JobRetryPolicy) : ℕ := saturatingSucc32 policy.maxRetries

inductive WorkloadAdmissionMode
  | incremental
  | gang
  deriving DecidableEq

/-- What a submission fixes; the execution is in its serialised form. -/
structure JobDefinition where
  id : Uuid
  name : String
  execution : String
  executionPlatform : Workload.ExecutionPlatform
  isolationMode : Workload.IsolationMode
  isolationProfile : Option String
  admissionMode : WorkloadAdmissionMode
  retryPolicy : JobRetryPolicy
  deploymentPolicy : JobDeploymentPolicy
  deriving DecidableEq

/-- `JobSpecValue`. Its completion policy has one value and is left out. -/
structure JobSpecValue extends JobDefinition where
  createdAt : String
  updatedAt : String
  startedAt : Option String
  completedAt : Option String
  phaseVersion : ℕ
  status : JobStatus
  statusDetail : Option String
  activeWorkloadId : Option Uuid
  lastWorkloadId : Option Uuid
  successfulWorkloadId : Option Uuid
  attemptsStarted : ℕ
  activeAttemptStartedAt : Option String
  retryNotBefore : Option String
  terminalExitCode : Option ℤ
  deriving DecidableEq

/-- How texts are read. -/
structure JobText where
  parseTimestamp : String → Option ℕ
  normalizeDetail : Option String → Option String

namespace JobSpecValue

/-- `JobSpecValue::new`. -/
def new (definition : JobDefinition) (now : String) : JobSpecValue where
  toJobDefinition := definition
  createdAt := now
  updatedAt := now
  startedAt := none
  completedAt := none
  phaseVersion := 0
  status := .pending
  statusDetail := none
  activeWorkloadId := none
  lastWorkloadId := none
  successfulWorkloadId := none
  attemptsStarted := 0
  activeAttemptStartedAt := none
  retryNotBefore := none
  terminalExitCode := none

variable (text : JobText) (job : JobSpecValue)

/-- `is_terminal`. -/
def isTerminal : Bool :=
  match job.status with
  | .succeeded | .failed | .cancelled => true
  | _ => false

/-- `can_retry`. -/
def canRetry : Bool := decide (job.attemptsStarted < job.retryPolicy.totalAttempts)

/-- `retry_due`. -/
def retryDue (now : ℕ) : Bool :=
  match job.retryNotBefore with
  | none => true
  | some notBefore =>
    match text.parseTimestamp notBefore with
    | some deadline => decide (deadline ≤ now)
    | none => true

/-- `phase_version.saturating_add(1)`. -/
def nextPhase : ℕ := saturatingSucc job.phaseVersion

/-- `reserve_attempt`. -/
def reserveAttempt (workloadId : Uuid) (now : String) : JobSpecValue :=
  let attempts := saturatingSucc32 job.attemptsStarted
  { job with
    phaseVersion := job.nextPhase
    attemptsStarted := attempts
    status := .pending
    statusDetail := some s!"launch attempt {attempts} pending"
    activeWorkloadId := some workloadId
    lastWorkloadId := some workloadId
    activeAttemptStartedAt := some now
    retryNotBefore := none
    completedAt := none
    terminalExitCode := none
    updatedAt := now }

variable (workloadId : Uuid) (detail : Option String) (now : String)

/-- `mark_pending_detail`. -/
def markPendingDetail : JobSpecValue :=
  { job with
    phaseVersion := job.nextPhase
    status := .pending
    statusDetail := text.normalizeDetail detail
    updatedAt := now }

/-- `mark_running`. -/
def markRunning : JobSpecValue :=
  { job with
    phaseVersion := job.nextPhase
    status := .running
    statusDetail := text.normalizeDetail detail
    retryNotBefore := none
    activeAttemptStartedAt := none
    startedAt := job.startedAt.or (some now)
    completedAt := none
    terminalExitCode := none
    activeWorkloadId := some workloadId
    attemptsStarted :=
      if job.lastWorkloadId ≠ some workloadId then saturatingSucc32 job.attemptsStarted
      else job.attemptsStarted
    lastWorkloadId := some workloadId
    updatedAt := now }

/-- `mark_retrying`; `deadline` is the end of the backoff. -/
def markRetrying (detail : Option String) (deadline now : String) : JobSpecValue :=
  { job with
    phaseVersion := job.nextPhase
    status := .retrying
    statusDetail := text.normalizeDetail detail
    activeWorkloadId := none
    activeAttemptStartedAt := none
    completedAt := none
    terminalExitCode := none
    retryNotBefore := some deadline
    updatedAt := now }

/-- `mark_succeeded`. -/
def markSucceeded : JobSpecValue :=
  { job with
    phaseVersion := job.nextPhase
    status := .succeeded
    statusDetail := text.normalizeDetail detail
    activeWorkloadId := none
    activeAttemptStartedAt := none
    successfulWorkloadId := some workloadId
    lastWorkloadId := some workloadId
    retryNotBefore := none
    completedAt := some now
    terminalExitCode := some 0
    updatedAt := now }

/-- `mark_failed`. -/
def markFailed (workloadId : Option Uuid) (detail : Option String)
    (exitCode : Option ℤ) (now : String) : JobSpecValue :=
  { job with
    phaseVersion := job.nextPhase
    status := .failed
    statusDetail := text.normalizeDetail detail
    activeWorkloadId := none
    activeAttemptStartedAt := none
    lastWorkloadId := workloadId.or job.lastWorkloadId
    retryNotBefore := none
    completedAt := some now
    terminalExitCode := exitCode
    updatedAt := now }

/-- `mark_cancelling`. -/
def markCancelling : JobSpecValue :=
  { job with
    phaseVersion := job.nextPhase
    status := .cancelling
    statusDetail := text.normalizeDetail detail
    retryNotBefore := none
    activeAttemptStartedAt := none
    completedAt := none
    terminalExitCode := none
    updatedAt := now }

/-- `mark_cancelled`. -/
def markCancelled (workloadId : Option Uuid) (detail : Option String)
    (now : String) : JobSpecValue :=
  { job with
    phaseVersion := job.nextPhase
    status := .cancelled
    statusDetail := text.normalizeDetail detail
    activeWorkloadId := none
    activeAttemptStartedAt := none
    lastWorkloadId := workloadId.or job.lastWorkloadId
    retryNotBefore := none
    completedAt := some now
    terminalExitCode := none
    updatedAt := now }

end JobSpecValue

/-! ## Changes and their order -/

/-- The changes of a job row. -/
inductive JobOp
  | reserveAttempt (workloadId : Uuid) (now : String)
  | markPendingDetail (detail : Option String) (now : String)
  | markRunning (workloadId : Uuid) (detail : Option String) (now : String)
  | markRetrying (detail : Option String) (deadline now : String)
  | markSucceeded (workloadId : Uuid) (detail : Option String) (now : String)
  | markFailed (workloadId : Option Uuid) (detail : Option String) (exitCode : Option ℤ)
      (now : String)
  | markCancelling (detail : Option String) (now : String)
  | markCancelled (workloadId : Option Uuid) (detail : Option String) (now : String)
  deriving DecidableEq

variable (text : JobText)

/-- The row after a change. -/
def JobOp.apply (op : JobOp) (job : JobSpecValue) : JobSpecValue :=
  match op with
  | .reserveAttempt workloadId now => job.reserveAttempt workloadId now
  | .markPendingDetail detail now => job.markPendingDetail text detail now
  | .markRunning workloadId detail now => job.markRunning text workloadId detail now
  | .markRetrying detail deadline now => job.markRetrying text detail deadline now
  | .markSucceeded workloadId detail now => job.markSucceeded text workloadId detail now
  | .markFailed workloadId detail exitCode now => job.markFailed text workloadId detail exitCode now
  | .markCancelling detail now => job.markCancelling text detail now
  | .markCancelled workloadId detail now => job.markCancelled text workloadId detail now

/-- A change raises the phase version and does not take attempts back. -/
lemma JobOp.apply_mono (op : JobOp) (job : JobSpecValue) :
    (op.apply text job).phaseVersion = job.nextPhase ∧
      job.attemptsStarted ≤ (op.apply text job).attemptsStarted := by
  cases op with
  | reserveAttempt => exact ⟨rfl, le_saturatingSucc32 _⟩
  | markRunning =>
    refine ⟨rfl, ?_⟩
    simp only [JobOp.apply, JobSpecValue.markRunning]
    split_ifs
    · exact le_saturatingSucc32 _
    · exact le_rfl
  | _ => exact ⟨rfl, le_rfl⟩

/-- `compare_job_specs`. -/
def compareJobSpecs (left right : JobSpecValue) : Ordering :=
  ((((compare left.attemptsStarted right.attemptsStarted).then
    (compare left.phaseVersion right.phaseVersion)).then
    (compare left.status.precedenceRank right.status.precedenceRank)).then
    (compareStamps (text.parseTimestamp left.updatedAt)
      (text.parseTimestamp right.updatedAt))).then
    (compare left.id right.id)

/-- What `compare_job_specs` compares. -/
def jobKey (job : JobSpecValue) : ℕ ×ₗ ℕ ×ₗ ℕ ×ₗ WithBot ℕ ×ₗ Uuid :=
  toLex (job.attemptsStarted, toLex (job.phaseVersion, toLex (job.status.precedenceRank,
    toLex (stampKey (text.parseTimestamp job.updatedAt), job.id))))

end Mantissa.Jobs
