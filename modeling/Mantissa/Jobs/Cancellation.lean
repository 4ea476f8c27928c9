import Mantissa.Jobs.Controller

/-!
# Whether a cancellation is final

A worker that waits for the start of a workload does not notice a cancellation that is stored
meanwhile: when the start returns, it checks that the attempt is still the active one, which a
cancelling job keeps, and marks the job running (`cancelled_job_runs_again`).

`CancelAlone` is what makes a cancellation final: it is stored while no worker and no other call is
at work on the job, and a job that is being cancelled is not cancelled again. From then on every
task is one of those in `Settled`, none of which can do anything but end the cancellation
(`cancellation_final`). And it does end once the workload has ended: every step of the worker
brings it closer.
-/

namespace Mantissa.Jobs

open List Nat JobNode

open Workload (WorkloadPhase)

variable {text : JobText}

/-- A call that will not write the row any more. -/
def CancelPc.idle : CancelPc → Bool
  | .stopping | .returned => true
  | _ => false

/-- A cancellation is stored while nothing else works on the job, and not requested twice. -/
def CancelAlone (node : JobNode) : JobAction → Prop
  | .cancel call _ => node.cancels[call]?.any CancelPc.stores = true →
      node.worker = none ∧ (node.cancels.eraseIdx call).all CancelPc.idle = true
  | .callCancel => node.job.status ≠ .cancelling
  | .spawn | .worker _ => True

instance (node : JobNode) : ∀ act, Decidable (CancelAlone node act)
  | .cancel call _ => inferInstanceAs (Decidable (node.cancels[call]?.any CancelPc.stores = true →
      node.worker = none ∧ (node.cancels.eraseIdx call).all CancelPc.idle = true))
  | .callCancel => inferInstanceAs (Decidable (node.job.status ≠ .cancelling))
  | .spawn | .worker _ => .isTrue trivial

/-- Being cancelled, or cancelled. -/
def JobStatus.ending (status : JobStatus) : Prop := status = .cancelling ∨ status = .cancelled

/-- A worker that can only end the cancellation. -/
def WorkerPc.settled (job : JobSpecValue) : WorkerPc → Prop
  | .spawned | .stopping | .finishing => True
  | .inspecting _ workloadId purpose =>
    purpose = .cancelling ∧ job.activeWorkloadId = some workloadId
  | .writing row launch =>
    row.status = .cancelled ∧ row.attemptsStarted = job.attemptsStarted ∧ launch = none
  | .launching _ | .starting _ => False

/-- What is left of the tasks after a cancellation was stored. -/
structure Settled (node : JobNode) : Prop where
  status : node.job.status.ending
  worker : ∀ pc ∈ node.worker, pc.settled node.job
  cancels : ∀ pc ∈ node.cancels, pc.idle = true ∨ pc = .called ∧ node.job.status = .cancelled

/-! ## The steps of a settled node -/

variable {node : JobNode} {next : JobNode} {act : JobAction}

/-- What a step does. -/
lemma step_cases (h : node.step text act = some next) :
    (act = .spawn ∧ node.worker = none ∧ node.job.isTerminal = false ∧
      next = { node with worker := some .spawned }) ∨
    (∃ input pc, act = .worker input ∧ node.worker = some pc ∧
      next = node.workerStep text pc input) ∨
    (act = .callCancel ∧ next = { node with cancels := node.cancels ++ [.called] }) ∨
    ∃ call input pc, act = .cancel call input ∧ node.cancels[call]? = some pc ∧ pc ≠ .returned ∧
      next = node.cancelStep text call pc input := by
  cases act with
  | spawn =>
    simp only [step] at h
    split_ifs at h with hspawn
    exact .inl ⟨rfl, by simpa using hspawn.1, hspawn.2, (Option.some.inj h).symm⟩
  | worker input =>
    obtain ⟨pc, hpc, rfl⟩ := Option.map_eq_some_iff.mp h
    exact .inr (.inl ⟨input, pc, rfl, hpc, rfl⟩)
  | callCancel => exact .inr (.inr (.inl ⟨rfl, (Option.some.inj h).symm⟩))
  | cancel call input =>
    simp only [step] at h
    cases hcall : node.cancels[call]? with
    | none => simp [hcall] at h
    | some pc =>
      rw [hcall] at h
      refine .inr (.inr (.inr ⟨call, input, pc, rfl, hcall, ?_⟩))
      cases pc with
      | returned => cases h
      | _ => exact ⟨nofun, (Option.some.inj h).symm⟩

variable {job : JobSpecValue}

lemma isTerminal_of_cancelled (h : job.status = .cancelled) : job.isTerminal = true := by
  simp [JobSpecValue.isTerminal, h]

lemma isTerminal_of_cancelling (h : job.status = .cancelling) : job.isTerminal = false := by
  simp [JobSpecValue.isTerminal, h]

/-- What a worker does that reads a job after its cancellation. -/
lemma reconcileJob_settled (h : job.status.ending) (input : Inputs) :
    (reconcileJob text job input).settled job := by
  unfold reconcileJob
  by_cases hstop : (!input.owned) = true ∨ job.isTerminal = true
  · rw [if_pos hstop]
    trivial
  · rw [if_neg hstop]
    rcases h with hcancelling | hcancelled
    · rw [hcancelling]
      cases hactive : job.activeWorkloadId with
      | none => exact ⟨rfl, rfl, rfl⟩
      | some workloadId => exact ⟨rfl, hactive⟩
    · exact absurd (.inr (isTerminal_of_cancelled hcancelled)) hstop

lemma cancelObserved_settled (job : JobSpecValue) (workloadId : Uuid) (detail : String)
    (input : Inputs) : (cancelObserved text job workloadId detail input).settled job := by
  unfold cancelObserved
  split_ifs
  · trivial
  · exact ⟨rfl, rfl, rfl⟩

variable {pc : WorkerPc}

/-- What stays when a settled node takes a step. -/
structure Stays (node next : JobNode) : Prop where
  attempts : next.job.attemptsStarted = node.job.attemptsStarted
  launches : next.launches = node.launches
  cancelled : node.job.status = .cancelled → next.job.status = .cancelled

variable (h : Settled node)

include h

lemma Settled.setWorker (hpc : pc.settled node.job) :
    Settled (node.setWorker pc) ∧ Stays node (node.setWorker pc) := by
  refine ⟨⟨h.status, ?_, h.cancels⟩, rfl, ?_, id⟩
  · rintro other ⟨⟩
    exact hpc
  · -- a worker that does not start a workload launches nothing
    cases pc with
    | starting workloadId => exact absurd hpc id
    | _ => rfl

lemma Settled.workerStep (hpc : pc.settled node.job) (input : Inputs) :
    Settled (node.workerStep text pc input) ∧ Stays node (node.workerStep text pc input) := by
  cases pc with
  | spawned => exact h.setWorker (reconcileJob_settled h.status input)
  | inspecting spec workloadId purpose =>
    obtain ⟨rfl, -⟩ := hpc
    refine h.setWorker ?_
    unfold afterInspection
    rcases input.observed with _ | ⟨phase, healthExpired⟩
    · exact cancelObserved_settled node.job workloadId _ input
    · simp only
      split_ifs
      · exact cancelObserved_settled node.job workloadId _ input
      · trivial
  | writing row launch =>
    obtain ⟨hstatus, hattempts, rfl⟩ := hpc
    refine ⟨⟨.inr hstatus, ?_, ?_⟩, hattempts, rfl, fun _ => hstatus⟩
    · rintro other ⟨⟩
      trivial
    · intro call hcall
      exact (h.cancels call hcall).imp_right fun hcalled => ⟨hcalled.1, hstatus⟩
  | launching workloadId => exact absurd hpc id
  | starting workloadId => exact absurd hpc id
  | stopping => exact h.setWorker (show WorkerPc.settled node.job .finishing from trivial)
  | finishing =>
    refine ⟨⟨h.status, ?_, h.cancels⟩, rfl, rfl, id⟩
    rintro other ⟨⟩

/-- The calls that are left of a settled node write nothing and return. -/
lemma Settled.cancelStep {call : ℕ} {pc : CancelPc}
    (hcall : node.cancels[call]? = some pc) (input : Inputs) :
    Settled (node.cancelStep text call pc input) ∧
      Stays node (node.cancelStep text call pc input) := by
  have hnext : pc.row? = none ∧ cancelJob text node.job pc input = .returned := by
    rcases h.cancels pc (mem_of_getElem? hcall) with hidle | ⟨rfl, hcancelled⟩
    · cases pc with
      | stopping => exact ⟨rfl, rfl⟩
      | returned => exact ⟨rfl, rfl⟩
      | _ => cases hidle
    · exact ⟨rfl, if_pos (isTerminal_of_cancelled hcancelled)⟩
  unfold JobNode.cancelStep
  rw [hnext.1, hnext.2]
  refine ⟨⟨h.status, h.worker, ?_⟩, rfl, rfl, id⟩
  intro other hother
  rcases mem_or_eq_of_mem_set hother with hold | rfl
  · exact h.cancels other hold
  · exact .inl rfl

lemma Settled.step (hok : CancelAlone node act) (hstep : node.step text act = some next) :
    Settled next ∧ Stays node next := by
  rcases step_cases hstep with ⟨rfl, -, -, rfl⟩ | ⟨input, pc, rfl, hpc, rfl⟩ | ⟨rfl, rfl⟩ |
    ⟨call, input, pc, rfl, hcall, -, rfl⟩
  · refine ⟨⟨h.status, ?_, h.cancels⟩, rfl, rfl, id⟩
    rintro other ⟨⟩
    trivial
  · exact h.workerStep (h.worker pc hpc) input
  · refine ⟨⟨h.status, h.worker, ?_⟩, rfl, rfl, id⟩
    intro pc hpc
    rcases mem_append.mp hpc with hold | hnew
    · exact h.cancels pc hold
    · exact .inr ⟨mem_singleton.mp hnew, h.status.resolve_left hok⟩
  · exact h.cancelStep hcall input

omit h

/-! ## From the start -/

/-- The rows that calls are about to store record a cancellation. -/
def StoringEnding (node : JobNode) : Prop :=
  ∀ row, CancelPc.storing row ∈ node.cancels → row.status.ending

variable {input : Inputs} {row : JobSpecValue}

/-- A call that stores a row has computed it as a cancellation. -/
lemma recordCancellation_ending
    (h : recordCancellation text job input = .storing row) : row.status.ending := by
  unfold recordCancellation at h
  split_ifs at h
  cases h
  unfold cancellationRow
  split_ifs
  · exact .inl rfl
  · exact .inr rfl

lemma cancelJob_ending {pc : CancelPc}
    (h : cancelJob text job pc input = .storing row) : row.status.ending := by
  cases pc with
  | called =>
    simp only [cancelJob] at h
    split_ifs at h
    cases hactive : job.activeWorkloadId with
    | none =>
      rw [hactive] at h
      exact recordCancellation_ending h
    | some workloadId =>
      rw [hactive] at h
      cases h
  | inspecting workloadId =>
    simp only [cancelJob] at h
    rcases hobserved : input.observed with _ | ⟨phase, healthExpired⟩
    · rw [hobserved] at h
      exact recordCancellation_ending h
    · simp only [hobserved] at h
      split_ifs at h
      · cases hadopt : adoptObservedTask text job workloadId phase healthExpired input with
        | none =>
          rw [hadopt] at h
          cases h
        | some row' =>
          rw [hadopt] at h
          cases h
      · exact recordCancellation_ending h
  | storing row' =>
    simp only [cancelJob] at h
    split_ifs at h
  | adopting row' => cases h
  | stopping => cases h
  | returned => cases h

lemma cancels_workerStep (node : JobNode) (pc : WorkerPc) (input : Inputs) :
    (node.workerStep text pc input).cancels = node.cancels ∧
      (node.workerStep text pc input).cancelStored = node.cancelStored := by
  cases pc with
  | writing row launch => cases launch <;> exact ⟨rfl, rfl⟩
  | _ => exact ⟨rfl, rfl⟩

lemma StoringEnding.step (h : StoringEnding node)
    (hstep : node.step text act = some next) : StoringEnding next := by
  intro row hrow
  rcases step_cases hstep with ⟨rfl, -, -, rfl⟩ | ⟨input, pc, rfl, hpc, rfl⟩ | ⟨rfl, rfl⟩ |
    ⟨call, input, pc, rfl, hcall, -, rfl⟩
  · exact h row hrow
  · rw [(cancels_workerStep node pc input).1] at hrow
    exact h row hrow
  · rcases mem_append.mp hrow with hold | hnew
    · exact h row hold
    · cases mem_singleton.mp hnew
  · rcases mem_or_eq_of_mem_set hrow with hold | hnew
    · exact h row hold
    · exact cancelJob_ending hnew.symm

/-- The step that stores the cancellation leaves a settled node. -/
lemma settled_of_storing (hstoring : StoringEnding node) {call : ℕ}
    (hcall : node.cancels[call]? = some (.storing row))
    (hok : CancelAlone node (.cancel call input)) :
    Settled (node.cancelStep text call (.storing row) input) := by
  obtain ⟨hworker, hothers⟩ := hok (by rw [hcall]; rfl)
  refine ⟨hstoring row (mem_of_getElem? hcall), ?_, ?_⟩
  · intro pc hpc
    simp only [cancelStep, hworker] at hpc
    cases hpc
  · intro pc hpc
    refine .inl ?_
    obtain ⟨index, hindex⟩ := mem_iff_getElem?.mp hpc
    simp only [cancelStep, getElem?_set] at hindex
    by_cases heq : call = index
    · have hpc' : cancelJob text node.job (.storing row) input = pc := by
        split_ifs at hindex
        exact Option.some.inj hindex
      rw [← hpc', cancelJob]
      split_ifs <;> rfl
    · rw [if_neg heq] at hindex
      exact all_eq_true.mp hothers pc (mem_eraseIdx_iff_getElem?.mpr ⟨index, Ne.symm heq, hindex⟩)

/-- Along a run a stored cancellation leaves a settled node. -/
lemma settled_of_stored (h : Reaches (step text) CancelAlone (.start job) node) :
    StoringEnding node ∧ (node.cancelStored = true → Settled node) := by
  refine h.invariant (P := fun node => StoringEnding node ∧
    (node.cancelStored = true → Settled node)) ⟨?_, Bool.false_ne_true.elim⟩ ?_
  · intro row hrow
    cases hrow
  intro x y act hx hok hstep
  obtain ⟨hstoring, hsettled⟩ := hx
  refine ⟨hstoring.step hstep, ?_⟩
  intro hstored
  by_cases hbefore : x.cancelStored = true
  · exact ((hsettled hbefore).step hok hstep).1
  -- Only a call that stores its row sets the flag.
  · rcases step_cases hstep with ⟨rfl, -, -, rfl⟩ | ⟨input, pc, rfl, hpc, rfl⟩ | ⟨rfl, rfl⟩ |
      ⟨call, input, pc, rfl, hcall, -, rfl⟩
    · exact absurd hstored hbefore
    · rw [(cancels_workerStep x pc input).2] at hstored
      exact absurd hstored hbefore
    · exact absurd hstored hbefore
    · have hstores := (Bool.or_eq_true_iff.mp hstored).resolve_left hbefore
      cases pc with
      | storing row => exact settled_of_storing hstoring hcall hok
      | _ => cases hstores

/-- What a settled node keeps along a run. -/
lemma Settled.reaches {later : JobNode} (h : Settled node)
    (hreach : Reaches (JobNode.step text) CancelAlone node later) :
    Settled later ∧ Stays node later := by
  refine hreach.invariant (P := fun later => Settled later ∧ Stays node later) ⟨h, rfl, rfl, id⟩ ?_
  intro x y act hx hok hstep
  obtain ⟨hsettled, hstays⟩ := hx.1.step hok hstep
  exact ⟨hsettled, hstays.attempts.trans hx.2.attempts, hstays.launches.trans hx.2.launches,
    fun hcancelled => hstays.cancelled (hx.2.cancelled hcancelled)⟩

/-! ## The end of a cancellation -/

/-- The node reconciles the job: it owns the job, and the workload has ended or disappeared. -/
def Inputs.ended (input : Inputs) : Prop :=
  input.owned = true ∧ ∀ phase healthExpired, input.observed = some (phase, healthExpired) →
    workloadPhaseIsTerminal phase = true

/-- The steps of the reconcile loop. -/
def JobAction.reconciles : JobAction → Prop
  | .spawn | .worker _ => True
  | .callCancel | .cancel _ _ => False

/-- How many steps of the reconcile loop are left. -/
def stepsLeft (node : JobNode) : ℕ :=
  match node.worker with
  | some .stopping => 6
  | some .finishing => 5
  | none => 4
  | some .spawned => 3
  | some (.inspecting _ _ _) => 2
  | some _ => 1

/-- A step of the worker stores the end of the cancellation or brings it closer. -/
lemma workerStep_closer (h : Settled node) (hcancelling : node.job.status = .cancelling)
    (hpc : node.worker = some pc) (hended : input.ended) :
    (node.workerStep text pc input).job.status = .cancelled ∨
      (node.workerStep text pc input).job.status = .cancelling ∧
        stepsLeft (node.workerStep text pc input) < stepsLeft node := by
  have hsettled := h.worker pc hpc
  have hlive : node.job.isTerminal = false := isTerminal_of_cancelling hcancelling
  cases pc with
  | spawned =>
    refine .inr ⟨hcancelling, ?_⟩
    have hgo : ¬ ((!input.owned) = true ∨ node.job.isTerminal = true) := by
      simp [hended.1, hlive]
    simp only [stepsLeft, workerStep, setWorker, hpc, reconcileJob, if_neg hgo,
      hcancelling]
    cases node.job.activeWorkloadId with
    | none => exact Nat.lt_of_sub_eq_succ rfl
    | some workloadId => exact Nat.lt_of_sub_eq_succ rfl
  | inspecting spec workloadId purpose =>
    obtain ⟨rfl, hactive⟩ := hsettled
    refine .inr ⟨hcancelling, ?_⟩
    have hwrite : ∀ detail, cancelObserved text node.job workloadId detail input =
        .writing (node.job.markCancelled text (some workloadId) (some detail) input.now) none := by
      simp [cancelObserved, hlive, hcancelling, hactive]
    have hnext : ∃ row, afterInspection text node.job spec workloadId .cancelling input =
        .writing row none := by
      unfold afterInspection
      rcases hobserved : input.observed with _ | ⟨phase, healthExpired⟩
      · exact ⟨_, hwrite _⟩
      · simp only [hended.2 phase healthExpired hobserved, if_true]
        exact ⟨_, hwrite _⟩
    obtain ⟨row, hrow⟩ := hnext
    simp only [stepsLeft, workerStep, setWorker, hpc, hrow]
    exact lt_succ_self 1
  | writing row launch =>
    obtain ⟨hstatus, -, rfl⟩ := hsettled
    exact .inl hstatus
  | launching workloadId => exact absurd hsettled id
  | starting workloadId => exact absurd hsettled id
  | stopping =>
    refine .inr ⟨hcancelling, ?_⟩
    simp only [stepsLeft, workerStep, setWorker, hpc]
    exact lt_succ_self 5
  | finishing =>
    refine .inr ⟨hcancelling, ?_⟩
    simp only [stepsLeft, workerStep, hpc]
    exact lt_succ_self 4

/-- A cancelled job is reached when the workload has ended and the loop runs on. -/
lemma eventually_cancelled (run : InfiniteRun (step text) CancelAlone)
    (hstart : run.state 0 = .start job) (hfair : run.Fair JobAction.reconciles) {start : ℕ}
    (hstored : (run.state start).cancelStored = true)
    (hended : ∀ n input, start ≤ n → run.act n = .worker input → input.ended) :
    ∃ n, start ≤ n ∧ (run.state n).job.status = .cancelled := by
  have hsettled := (settled_of_stored (hstart ▸ run.reaches (zero_le start))).2 hstored
  rcases hsettled.status with hcancelling | hcancelled
  swap
  · exact ⟨start, le_rfl, hcancelled⟩
  refine run.eventually hfair (P := fun node => Settled node ∧ node.job.status = .cancelling)
    (Q := fun node => node.job.status = .cancelled) stepsLeft ⟨hsettled, hcancelling⟩ ?_ ?_
  · rintro node ⟨-, hcancelling⟩
    cases hworker : node.worker with
    | none =>
      refine ⟨.spawn, trivial, trivial, ?_⟩
      simp [step, hworker, isTerminal_of_cancelling hcancelling]
    | some pc =>
      refine ⟨.worker ⟨true, 0, 0, "", "", none, false, none, .ok 0⟩, trivial, trivial, ?_⟩
      simp [step, hworker]
  · rintro n hn ⟨hsettled, hcancelling⟩
    obtain ⟨hnext, -⟩ := hsettled.step (run.ok n) (run.step n)
    have hok := run.ok n
    rcases step_cases (run.step n) with ⟨hact, hworker, -, heq⟩ | ⟨input, pc, hact, hpc, heq⟩ |
      ⟨hact, -⟩ | ⟨call, input, pc, hact, hcall, -, heq⟩
    · have hlt : stepsLeft (run.state (n + 1)) < stepsLeft (run.state n) := by
        simp only [heq, stepsLeft, hworker]
        exact lt_succ_self 3
      exact .inr ⟨⟨hnext, by rw [heq]; exact hcancelling⟩, hlt.le, fun _ => hlt⟩
    · rw [heq] at hnext ⊢
      rcases workerStep_closer hsettled hcancelling hpc (hended n input hn hact) with
        hdone | ⟨hstatus, hlt⟩
      · exact .inl hdone
      · exact .inr ⟨⟨hnext, hstatus⟩, hlt.le, fun _ => hlt⟩
    · rw [hact] at hok
      exact absurd hcancelling hok
    · have hjob : (run.state (n + 1)).job = (run.state n).job := by
        rcases hsettled.cancels pc (mem_of_getElem? hcall) with hidle | ⟨rfl, -⟩
        · rw [heq]
          cases pc with
          | stopping => rfl
          | returned => rfl
          | _ => cases hidle
        · rw [heq]
          rfl
      refine .inr ⟨⟨hnext, hjob ▸ hcancelling⟩, ?_, ?_⟩
      · simp [heq, stepsLeft, cancelStep]
      · intro hhelpful
        rw [hact] at hhelpful
        exact absurd hhelpful id

/-- **A cancellation that is stored while nothing else works on the job is final**: the job stays
being cancelled or cancelled, no attempt is reserved or launched, and once the workload has ended or
disappeared and the loop reconciles the job, it ends cancelled. -/
theorem cancellation_final (text : JobText) (job : JobSpecValue) :
    (∀ node later, Reaches (JobNode.step text) CancelAlone (.start job) node →
      Reaches (JobNode.step text) CancelAlone node later → node.cancelStored = true →
        later.job.status.ending ∧ later.job.attemptsStarted = node.job.attemptsStarted ∧
          later.launches = node.launches) ∧
    ∀ run : InfiniteRun (JobNode.step text) CancelAlone, run.state 0 = .start job →
      run.Fair JobAction.reconciles → ∀ start, (run.state start).cancelStored = true →
        (∀ n input, start ≤ n → run.act n = .worker input → input.ended) →
          ∃ n, start ≤ n ∧ ∀ later, n ≤ later → (run.state later).job.status = .cancelled := by
  refine ⟨?_, ?_⟩
  · intro node later hnode hlater hstored
    obtain ⟨hsettled, hstays⟩ := ((settled_of_stored hnode).2 hstored).reaches hlater
    exact ⟨hsettled.status, hstays.attempts, hstays.launches⟩
  · intro run hstart hfair start hstored hended
    obtain ⟨n, hn, hcancelled⟩ := eventually_cancelled run hstart hfair hstored hended
    have hsettled := (settled_of_stored (hstart ▸ run.reaches (zero_le start))).2 hstored
    refine ⟨n, hn, fun later hlater => ?_⟩
    exact ((hsettled.reaches (run.reaches hn)).1.reaches (run.reaches hlater)).2.cancelled
      hcancelled

/-! ## Sample runs -/

def sampleText : JobText := ⟨fun _ => none, id⟩

/-- The inputs of a step; only the observed phase varies. -/
def sampleInputs (observed : Option (WorkloadPhase × Bool)) : Inputs :=
  ⟨true, 5, 10, "t2", "t3", observed, false, none, .ok 5⟩

def pendingJob : JobSpecValue :=
  .new ⟨1, "job", "", .oci, .standard, none, .incremental, ⟨2, 1⟩, ⟨60, 60⟩⟩ "t0"

def runningJob : JobSpecValue :=
  (pendingJob.reserveAttempt 5 "t1").markRunning sampleText 5 none "t1"

/-- A running job is cancelled, and the worker finds its workload gone. -/
def cancelScript : List JobAction :=
  [.callCancel, .cancel 0 (sampleInputs none), .cancel 0 (sampleInputs (some (.running, false))),
    .cancel 0 (sampleInputs none), .spawn, .worker (sampleInputs none), .worker (sampleInputs none),
    .worker (sampleInputs none), .worker (sampleInputs none)]

/-- Later calls return at once. -/
def cancelActs (n : ℕ) : JobAction := cancelScript.getD n .callCancel

/-- The node after `n` of these steps. -/
def cancelState : ℕ → JobNode :=
  InfiniteRun.stateAt (step sampleText) (.start runningJob) cancelActs

/-- After nine steps the job is cancelled and no worker is left. -/
lemma cancelState_tail (n : ℕ) (hn : 9 ≤ n) : (cancelState n).job.status = .cancelled ∧
    (cancelState n).worker = none ∧ cancelActs n = .callCancel := by
  have hact : ∀ n, 9 ≤ n → cancelActs n = .callCancel := fun n hn =>
    getD_eq_default cancelScript .callCancel hn
  refine ⟨?_, ?_, hact n hn⟩ <;>
  induction n, hn using le_induction with
  | base => decide +kernel
  | succ n hn ih =>
    simp only [cancelState, InfiniteRun.stateAt, hact n hn, step, Option.getD_some]
    exact ih

/-- The infinite run of these steps. -/
def cancelRun : InfiniteRun (step sampleText) CancelAlone :=
  .ofActs (.start runningJob) cancelActs fun n => by
    rcases lt_or_ge n 9 with hn | hn
    · have hsteps : ∀ n < 9, CancelAlone (cancelState n) (cancelActs n) ∧
          ((cancelState n).step sampleText (cancelActs n)).isSome = true := by decide +kernel
      exact hsteps n hn
    · obtain ⟨hstatus, -, hact⟩ := cancelState_tail n hn
      rw [hact]
      refine ⟨?_, rfl⟩
      change (cancelState n).job.status ≠ .cancelling
      rw [hstatus]
      exact nofun

lemma cancelRun_fair : cancelRun.Fair JobAction.reconciles := by
  intro start henabled
  obtain ⟨hstatus, hworker, -⟩ := cancelState_tail (start + 9) (le_add_left 9 start)
  obtain ⟨act, hact, -, hstep⟩ := henabled (start + 9) (le_add_right start 9)
  change ((cancelState (start + 9)).step sampleText act).isSome = true at hstep
  cases act with
  | spawn => simp [step, isTerminal_of_cancelled hstatus] at hstep
  | worker input => simp [step, hworker] at hstep
  | callCancel => exact absurd hact id
  | cancel call input => exact absurd hact id

lemma cancelActs_ended (n : ℕ) (input : Inputs) (hact : cancelActs n = .worker input) :
    input.ended := by
  rcases lt_or_ge n 9 with hn | hn
  · interval_cases n <;> cases hact <;> exact ⟨rfl, nofun⟩
  · rw [(cancelState_tail n hn).2.2] at hact
    cases hact

theorem cancellation_final_sample :
    ((cancelState 4).cancelStored = true ∧ (cancelState 4).job.status = .cancelling ∧
      (cancelState 9).job.status.ending) ∧
    ∃ n, 4 ≤ n ∧ ∀ later, n ≤ later → (cancelState later).job.status = .cancelled :=
  ⟨⟨by decide +kernel, by decide +kernel,
    ((cancellation_final sampleText runningJob).1 (cancelState 4) (cancelState 9)
      (cancelRun.reaches (zero_le 4)) (cancelRun.reaches (le_add_right 4 5))
      (by decide +kernel)).1⟩,
    (cancellation_final sampleText runningJob).2 cancelRun rfl cancelRun_fair 4 (by decide +kernel)
      fun n input _ hact => cancelActs_ended n input hact⟩

/-- The job is cancelled while the worker waits for the start of its workload: when the start
returns, the worker marks the job running again. -/
theorem cancelled_job_runs_again : ∃ node later : JobNode,
    Reaches (step sampleText) anyStep (.start pendingJob) node ∧
    Reaches (step sampleText) anyStep node later ∧
    node.cancelStored = true ∧ node.job.status = .cancelling ∧ later.job.status = .running := by
  exact ⟨_, _, reaches_of_runActions
      [.spawn, .worker (sampleInputs none), .worker (sampleInputs none),
        .worker (sampleInputs none),
        .callCancel, .cancel 0 (sampleInputs none), .cancel 0 (sampleInputs none),
        .cancel 0 (sampleInputs none)] rfl,
    reaches_of_runActions [.worker (sampleInputs none), .worker (sampleInputs none)] rfl,
      rfl, rfl, rfl⟩

end Mantissa.Jobs
