import Mantissa.Core.OrderedMap
import Mantissa.Volume.AppliedState

/-!
# The request gate

`FenceAdmission` counts the requests admitted under each fence and lets a new fence be installed
once the older ones have drained. Its calls run concurrently, so the gate is a transition system
whose steps are the single accesses to shared memory: one load of the applied state, one load or
exchange of `local_state`, or one section under a mutex that reads nothing but what the mutex
protects.

* `mutex` is the lock of the counters; while an `admit` holds it, it says how far the call has come.
  The sections of `wait_for_older_than` and of a dropped permit are one step each, possible when the
  mutex is free.
* `installLane` is the lane of `prepare_fence_install`; a call that still waits for it has not
  touched the gate. The wake-ups of `drained` only say when to look again, so looking again is
  always possible.
* `publish` is one step: the registry calls it under its own write lock.

A request is granted where its last validation succeeds, since nothing can refuse it after that.
The gate keeps what happened in `history`, newest first; no step reads it.
-/

namespace Mantissa

/-- `IoRequestKind`. -/
inductive IoRequestKind
  | foreground
  | installFence
  | recoverySource (id : RecoveryId)
  | recoveryTarget (id : RecoveryId)
  | replacementSource (id : ReplacementId)
  | replacementTarget (id : ReplacementId)
  deriving DecidableEq

/-- `IoAdmissionRequest`. -/
structure IoAdmissionRequest where
  descriptor : VolumeDescriptor
  fence : FenceEpoch
  sessionId : DriverSessionId
  authenticatedPeer : VolumeNodeId
  kind : IoRequestKind
  deriving DecidableEq

/-- `IoAdmissionError`. -/
inductive IoAdmissionError
  | locallyDisabled
  | retired
  | staleEnable
  | wrongDescriptor
  | volumeNotLive
  | staleFence (current requested : FenceEpoch)
  | unauthorized
  | requestCountExhausted
  deriving DecidableEq

variable (appliedState : AppliedVolumeState) (localNode : VolumeNodeId)

/-- `local_node_belongs`. -/
def localNodeBelongs : Bool :=
  decide (localNode ∈ appliedState.data.copies) ||
    appliedState.replacement.any fun replacement => decide (replacement.newNodeId = localNode)

/-- The grant a kind of request needs. -/
def requestAllowed (request : IoAdmissionRequest) : Bool :=
  match request.kind with
  | .foreground | .installFence => decide (localNode ∈ appliedState.data.copies ∧
      appliedState.data.writer = some ⟨request.authenticatedPeer, request.sessionId⟩)
  | .recoverySource id => appliedState.data.recovery.any fun recovery =>
    decide (recovery.id = id ∧ recovery.coordinatorNodeId = request.authenticatedPeer ∧
      recovery.sourceNodeId = localNode)
  | .recoveryTarget id => appliedState.data.recovery.any fun recovery =>
    decide (recovery.id = id ∧ recovery.coordinatorNodeId = request.authenticatedPeer ∧
      localNode ∈ recovery.targetNodeIds)
  | .replacementSource id => appliedState.replacement.any fun replacement =>
    decide (replacement.id = id ∧ replacement.coordinatorNodeId = request.authenticatedPeer ∧
      replacement.sourceNodeId = localNode)
  | .replacementTarget id => appliedState.replacement.any fun replacement =>
    decide (replacement.id = id ∧ replacement.coordinatorNodeId = request.authenticatedPeer ∧
      replacement.newNodeId = localNode)

/-- `validate_request`. -/
def validateRequest (request : IoAdmissionRequest) : Except IoAdmissionError Unit :=
  if ¬ appliedState.descriptor.hasSameStorageIdentity request.descriptor ∨
      appliedState.descriptor.capacity < request.descriptor.capacity then .error .wrongDescriptor
  else if appliedState.disposition ≠ .live then .error .volumeNotLive
  else if appliedState.data.fence ≠ request.fence then
    .error (.staleFence appliedState.data.fence request.fence)
  else if requestAllowed appliedState localNode request then .ok () else .error .unauthorized

/-- What a valid request was checked against. -/
lemma validateRequest_eq_ok {appliedState : AppliedVolumeState} {localNode : VolumeNodeId}
    {request : IoAdmissionRequest} (h : validateRequest appliedState localNode request = .ok ()) :
    appliedState.disposition = .live ∧ appliedState.data.fence = request.fence ∧
      requestAllowed appliedState localNode request = true := by
  rw [validateRequest] at h
  split_ifs at h with _ hlive hfence hallowed
  exact ⟨not_not.mp hlive, not_not.mp hfence, hallowed⟩

/-! ## The gate -/

/-- `ADMISSION_DISABLED`, `ADMISSION_ENABLED`, `ADMISSION_RETIRED`. -/
inductive AdmissionState
  | disabled
  | enabled
  | retired
  deriving DecidableEq

/-- An `admit` that holds the counters, by what it does next. -/
inductive AdmitSection
  | recheckState (request : IoAdmissionRequest)
  | revalidate (request : IoAdmissionRequest)
  | increment (request : IoAdmissionRequest)
  | finalState (request : IoAdmissionRequest)
  | finalValidate (request : IoAdmissionRequest)
  | rollBack (request : IoAdmissionRequest) (error : IoAdmissionError)
  | unlock
  deriving DecidableEq

/-- A `prepare_fence_install` that owns the lane: waiting for older requests, about to load
`local_state`, about to load the applied state, or returned with its guard. -/
inductive InstallStage
  | waiting (fence : FenceEpoch)
  | drained (fence : FenceEpoch)
  | enabled (fence : FenceEpoch)
  | guarded (fence : FenceEpoch)
  deriving DecidableEq

/-- A call that holds no mutex, by what it has done: an `admit` has found the gate enabled, or the
request valid; an `enable_for` has found the gate not retired, the entry current, has exchanged
`local_state`, and has found the entry current or superseded. -/
inductive PendingCall
  | admitEnabled (request : IoAdmissionRequest)
  | admitValidated (request : IoAdmissionRequest)
  | enableUnretired (appliedIndex : ℕ)
  | enableValidated (appliedIndex : ℕ)
  | enableExchanged (appliedIndex : ℕ)
  | enableCurrent (appliedIndex : ℕ)
  | enableSuperseded (appliedIndex : ℕ)
  deriving DecidableEq

/-- `FencePermitLease`, with the number of permits that share it. -/
structure FencePermitLease where
  fence : FenceEpoch
  owners : ℕ
  deriving DecidableEq

/-- What the calls of a gate report. -/
inductive GateEvent
  | published (appliedState : AppliedVolumeState)
  | notPublished (error : PublicationError)
  | granted (request : IoAdmissionRequest)
  | refused (request : IoAdmissionRequest) (error : IoAdmissionError)
  | guarded (fence : FenceEpoch)
  | notGuarded (fence : FenceEpoch) (error : IoAdmissionError)
  | enabled (appliedIndex : ℕ)
  | notEnabled (appliedIndex : ℕ) (error : IoAdmissionError)
  deriving DecidableEq

/-- Neither a publication nor a grant nor a guard. -/
def GateEvent.isPlain : GateEvent → Bool
  | .granted _ | .guarded _ | .published _ => false
  | _ => true

/-- `FenceAdmission`, with the applied-state cell it reads. -/
structure FenceAdmission where
  appliedVolumeState : AppliedVolumeState
  localNode : VolumeNodeId
  localState : AdmissionState
  inFlight : BTreeMap FenceEpoch ℕ
  mutex : Option AdmitSection
  installLane : Option InstallStage
  pending : List PendingCall
  leases : List FencePermitLease
  history : List GateEvent

/-- What happens at a gate. `resume`, `holdCounters` and `holdLane` take the next step of a call in
progress; `leaveLane` cancels a waiting install or drops its guard. -/
inductive GateAction
  | publish (proposed : AppliedVolumeState)
  | enableFor (appliedIndex : ℕ)
  | disable
  | retire
  | admitRequest (request : IoAdmissionRequest)
  | prepareFenceInstall (fence : FenceEpoch)
  | resume (call : PendingCall)
  | holdCounters
  | holdLane
  | leaveLane
  | clonePermit (lease : FencePermitLease)
  | dropPermit (lease : FencePermitLease)

/-- `decrement_count`. -/
def decrementCount (inFlight : BTreeMap FenceEpoch ℕ) (fence : FenceEpoch) :
    BTreeMap FenceEpoch ℕ :=
  match inFlight[fence]? with
  | some count => if count - 1 = 0 then inFlight.erase fence else inFlight.insert fence (count - 1)
  | none => inFlight

namespace FenceAdmission

/-- `FenceAdmission::new`. -/
def new (appliedVolumeState : AppliedVolumeState) (localNode : VolumeNodeId) : FenceAdmission :=
  ⟨appliedVolumeState, localNode, .disabled, ∅, none, none, [], [], []⟩

variable (gate : FenceAdmission)

def record (event : GateEvent) : FenceAdmission :=
  { gate with history := event :: gate.history }

def suspend (call : PendingCall) : FenceAdmission :=
  { gate with pending := call :: gate.pending }

/-- A call that holds no mutex takes its next step. -/
def resume : PendingCall → Option FenceAdmission
  | .admitEnabled request =>
    match validateRequest gate.appliedVolumeState gate.localNode request with
    | .ok () => some (gate.suspend (.admitValidated request))
    | .error error => some (gate.record (.refused request error))
  | .admitValidated request =>
    if gate.mutex = none then some { gate with mutex := some (.recheckState request) } else none
  | .enableUnretired appliedIndex =>
    if gate.appliedVolumeState.applied.index ≠ appliedIndex ∨
        ¬ localNodeBelongs gate.appliedVolumeState gate.localNode ∨
        gate.appliedVolumeState.disposition ≠ .live then
      some (gate.record (.notEnabled appliedIndex .staleEnable))
    else some (gate.suspend (.enableValidated appliedIndex))
  | .enableValidated appliedIndex =>
    match gate.localState with
    | .disabled | .enabled =>
      some ({ gate with localState := .enabled }.suspend (.enableExchanged appliedIndex))
    | .retired => some (gate.record (.notEnabled appliedIndex .retired))
  | .enableExchanged appliedIndex =>
    if gate.appliedVolumeState.applied.index ≠ appliedIndex then
      some (gate.suspend (.enableSuperseded appliedIndex))
    else some (gate.suspend (.enableCurrent appliedIndex))
  | .enableSuperseded appliedIndex =>
    let localState := if gate.localState = .enabled then .disabled else gate.localState
    some ({ gate with localState }.record (.notEnabled appliedIndex .staleEnable))
  | .enableCurrent appliedIndex =>
    match gate.localState with
    | .enabled => some (gate.record (.enabled appliedIndex))
    | .retired => some (gate.record (.notEnabled appliedIndex .retired))
    | .disabled => some (gate.record (.notEnabled appliedIndex .locallyDisabled))

/-- The `admit` that holds the counters takes its next step. -/
def holdCounters : AdmitSection → FenceAdmission
  | .recheckState request =>
    if gate.localState = .enabled then { gate with mutex := some (.revalidate request) }
    else { gate with mutex := none }.record (.refused request .locallyDisabled)
  | .revalidate request =>
    match validateRequest gate.appliedVolumeState gate.localNode request with
    | .ok () => { gate with mutex := some (.increment request) }
    | .error error => { gate with mutex := none }.record (.refused request error)
  | .increment request =>
    match checkedAdd ((gate.inFlight[request.fence]?).getD 0) 1 with
    | some count =>
      { gate with
        inFlight := gate.inFlight.insert request.fence count
        mutex := some (.finalState request) }
    | none => { gate with mutex := none }.record (.refused request .requestCountExhausted)
  | .finalState request =>
    if gate.localState = .enabled then { gate with mutex := some (.finalValidate request) }
    else { gate with mutex := some (.rollBack request .locallyDisabled) }
  | .finalValidate request =>
    match validateRequest gate.appliedVolumeState gate.localNode request with
    | .ok () =>
      { gate with
        leases := ⟨request.fence, 1⟩ :: gate.leases
        mutex := some .unlock }.record (.granted request)
    | .error error => { gate with mutex := some (.rollBack request error) }
  | .rollBack request error =>
    { gate with
      inFlight := decrementCount gate.inFlight request.fence
      mutex := none }.record (.refused request error)
  | .unlock => { gate with mutex := none }

/-- Whether a request below a fence is still counted, as `wait_for_older_than` asks. -/
def olderInFlight (fence : FenceEpoch) : Bool :=
  gate.inFlight.toList.any fun entry => decide (entry.1 < fence ∧ entry.2 ≠ 0)

/-- The `prepare_fence_install` that owns the lane takes its next step. -/
def holdLane : InstallStage → Option FenceAdmission
  | .waiting fence =>
    if gate.mutex = none then
      some (if gate.olderInFlight fence then gate
        else { gate with installLane := some (.drained fence) })
    else none
  | .drained fence =>
    if gate.localState = .enabled then some { gate with installLane := some (.enabled fence) }
    else some ({ gate with installLane := none }.record (.notGuarded fence .locallyDisabled))
  | .enabled fence =>
    let refuse error := { gate with installLane := none }.record (.notGuarded fence error)
    if gate.appliedVolumeState.disposition ≠ .live then some (refuse .volumeNotLive)
    else if gate.appliedVolumeState.data.fence ≠ fence then
      some (refuse (.staleFence gate.appliedVolumeState.data.fence fence))
    else if gate.localNode ∉ gate.appliedVolumeState.data.copies then some (refuse .unauthorized)
    else some ({ gate with installLane := some (.guarded fence) }.record (.guarded fence))
  | .guarded _ => none

/-- The lane is given up at an `await` or by dropping the guard. -/
def leaveLane : InstallStage → Option FenceAdmission
  | .waiting _ | .guarded _ => some { gate with installLane := none }
  | .drained _ | .enabled _ => none

/-- `drop` of one permit: the last owner of a lease takes the mutex and uncounts it. -/
def dropPermit (lease : FencePermitLease) : Option FenceAdmission :=
  if 1 < lease.owners then
    some { gate with leases := ⟨lease.fence, lease.owners - 1⟩ :: gate.leases.erase lease }
  else if gate.mutex = none then
    some { gate with
      leases := gate.leases.erase lease
      inFlight := decrementCount gate.inFlight lease.fence }
  else none

/-- One step of a gate. -/
def step : GateAction → Option FenceAdmission
  | .publish proposed =>
    match gate.appliedVolumeState.publish proposed with
    | .ok appliedVolumeState =>
      some ({ gate with appliedVolumeState }.record (.published appliedVolumeState))
    | .error error => some (gate.record (.notPublished error))
  | .enableFor appliedIndex =>
    if gate.localState = .retired then some (gate.record (.notEnabled appliedIndex .retired))
    else some (gate.suspend (.enableUnretired appliedIndex))
  | .disable => some (if gate.localState = .enabled then { gate with localState := .disabled }
      else gate)
  | .retire => some { gate with localState := .retired }
  | .admitRequest request =>
    if gate.localState = .enabled then some (gate.suspend (.admitEnabled request))
    else some (gate.record (.refused request .locallyDisabled))
  | .prepareFenceInstall fence =>
    if gate.installLane = none then some { gate with installLane := some (.waiting fence) }
    else none
  | .resume call =>
    if call ∈ gate.pending then { gate with pending := gate.pending.erase call }.resume call
    else none
  | .holdCounters => gate.mutex.map gate.holdCounters
  | .holdLane => gate.installLane.bind gate.holdLane
  | .leaveLane => gate.installLane.bind gate.leaveLane
  | .clonePermit lease =>
    if lease ∈ gate.leases then
      some { gate with leases := ⟨lease.fence, lease.owners + 1⟩ :: gate.leases.erase lease }
    else none
  | .dropPermit lease => if lease ∈ gate.leases then gate.dropPermit lease else none

/-! ## What a step does -/

/-- The request whose count is in the map while its fate is open. -/
def undecided : Option AdmitSection → Option IoAdmissionRequest
  | some (.finalState request) | some (.finalValidate request) | some (.rollBack request _) =>
    some request
  | _ => none

/-- The part of a gate that the counts and the install lane depend on. -/
structure Core where
  appliedVolumeState : AppliedVolumeState
  localNode : VolumeNodeId
  inFlight : BTreeMap FenceEpoch ℕ
  undecided : Option IoAdmissionRequest
  installLane : Option InstallStage
  leases : List FencePermitLease

def core : Core :=
  ⟨gate.appliedVolumeState, gate.localNode, gate.inFlight, undecided gate.mutex, gate.installLane,
    gate.leases⟩

/-- Everything a step can do to the core of a gate, with the event it reports. -/
inductive Change (act : GateAction) (c : Core) : Core → Option GateEvent → Prop
  | quiet {event : Option GateEvent} (hevent : event.all GateEvent.isPlain = true) :
      Change act c c event
  | published {proposed next : AppliedVolumeState} (hact : act = .publish proposed)
      (hnext : c.appliedVolumeState.publish proposed = .ok next) :
      Change act c { c with appliedVolumeState := next } (some (.published next))
  | counted {request : IoAdmissionRequest} {count : ℕ} (hundecided : c.undecided = none)
      (hcount : checkedAdd ((c.inFlight[request.fence]?).getD 0) 1 = some count) :
      Change act c { c with
        inFlight := c.inFlight.insert request.fence count, undecided := some request } none
  | rolledBack {request : IoAdmissionRequest} {error : IoAdmissionError}
      (hundecided : c.undecided = some request) :
      Change act c { c with
        inFlight := decrementCount c.inFlight request.fence
        undecided := none } (some (.refused request error))
  | granted {request : IoAdmissionRequest} (hundecided : c.undecided = some request)
      (hvalid : validateRequest c.appliedVolumeState c.localNode request = .ok ()) :
      Change act c { c with leases := ⟨request.fence, 1⟩ :: c.leases, undecided := none }
        (some (.granted request))
  | laneTaken {fence : FenceEpoch} (hact : act = .prepareFenceInstall fence) :
      Change act c { c with installLane := some (.waiting fence) } none
  | drained {fence : FenceEpoch} (hlane : c.installLane = some (.waiting fence))
      (hundecided : c.undecided = none)
      (holder : ∀ older count, c.inFlight[older]? = some count → older < fence → count = 0) :
      Change act c { c with installLane := some (.drained fence) } none
  | enabled {fence : FenceEpoch} (hlane : c.installLane = some (.drained fence)) :
      Change act c { c with installLane := some (.enabled fence) } none
  | guarded {fence : FenceEpoch} (hlane : c.installLane = some (.enabled fence))
      (hfence : c.appliedVolumeState.data.fence = fence) :
      Change act c { c with installLane := some (.guarded fence) } (some (.guarded fence))
  | laneLeft {event : Option GateEvent} (hevent : event.all GateEvent.isPlain = true) :
      Change act c { c with installLane := none } event
  | shared {lease : FencePermitLease} {owners : ℕ} (hlease : lease ∈ c.leases) :
      Change act c { c with leases := ⟨lease.fence, owners⟩ :: c.leases.erase lease } none
  | released {lease : FencePermitLease} (hlease : lease ∈ c.leases)
      (hundecided : c.undecided = none) :
      Change act c { c with
        leases := c.leases.erase lease
        inFlight := decrementCount c.inFlight lease.fence } none

/-- A step from one gate to the next. -/
def Changed (act : GateAction) (gate gate' : FenceAdmission) : Prop :=
  ∃ event, Change act gate.core gate'.core event ∧ gate'.history = event.toList ++ gate.history

variable {gate gate' : FenceAdmission} {act : GateAction}

lemma Changed.quiet (hcore : gate'.core = gate.core) (hhistory : gate'.history = gate.history) :
    Changed act gate gate' :=
  ⟨none, hcore ▸ .quiet rfl, hhistory⟩

lemma Changed.reported {event : GateEvent} (hcore : gate'.core = gate.core)
    (hhistory : gate'.history = event :: gate.history) (hevent : event.isPlain = true) :
    Changed act gate gate' :=
  ⟨some event, hcore ▸ .quiet hevent, hhistory⟩

lemma undecided_of_mutex (h : gate.mutex = none) : gate.core.undecided = none := by
  rw [core, h]
  rfl

lemma resume_changed {call : PendingCall} (h : gate.resume call = some gate') :
    Changed act gate gate' := by
  cases call with
  | admitEnabled request =>
    simp only [resume] at h
    split at h
    · cases h
      exact .quiet rfl rfl
    · cases h
      exact .reported rfl rfl rfl
  | admitValidated request =>
    simp only [resume] at h
    split_ifs at h with hfree
    cases h
    refine .quiet ?_ rfl
    simp only [core, hfree, undecided]
  | enableUnretired appliedIndex =>
    simp only [resume] at h
    split_ifs at h
    · cases h
      exact .reported rfl rfl rfl
    · cases h
      exact .quiet rfl rfl
  | enableValidated appliedIndex =>
    simp only [resume] at h
    split at h
    · cases h
      exact .quiet rfl rfl
    · cases h
      exact .quiet rfl rfl
    · cases h
      exact .reported rfl rfl rfl
  | enableExchanged appliedIndex =>
    simp only [resume] at h
    split_ifs at h
    · cases h
      exact .quiet rfl rfl
    · cases h
      exact .quiet rfl rfl
  | enableCurrent appliedIndex =>
    simp only [resume] at h
    split at h
    all_goals
      cases h
      exact .reported rfl rfl rfl
  | enableSuperseded appliedIndex =>
    cases h
    exact .reported rfl rfl rfl

lemma holdCounters_changed {stage : AdmitSection} (h : gate.mutex = some stage) :
    Changed act gate (gate.holdCounters stage) := by
  have hundecided : gate.core.undecided = undecided (some stage) := by rw [← h]; rfl
  -- the mutex moves between sections without a counted request
  have hmoved : ∀ stage', undecided stage' = undecided (some stage) →
      { gate with mutex := stage' }.core = gate.core := fun stage' heq => by
    simp only [core, heq, h]
  cases stage with
  | recheckState request =>
    simp only [holdCounters]
    split_ifs
    · exact .quiet (hmoved _ rfl) rfl
    · exact .reported (hmoved none rfl) rfl rfl
  | revalidate request =>
    simp only [holdCounters]
    split
    · exact .quiet (hmoved _ rfl) rfl
    · exact .reported (hmoved none rfl) rfl rfl
  | increment request =>
    simp only [holdCounters]
    split
    next count hcount => exact ⟨none, .counted hundecided hcount, rfl⟩
    next => exact .reported (hmoved none rfl) rfl rfl
  | finalState request =>
    simp only [holdCounters]
    split_ifs
    · exact .quiet (hmoved _ rfl) rfl
    · exact .quiet (hmoved _ rfl) rfl
  | finalValidate request =>
    simp only [holdCounters]
    split
    next hvalid => exact ⟨_, .granted hundecided hvalid, rfl⟩
    next => exact .quiet (hmoved _ rfl) rfl
  | rollBack request error => exact ⟨_, .rolledBack hundecided, rfl⟩
  | unlock => exact .quiet (hmoved none rfl) rfl

lemma holdLane_changed {stage : InstallStage} (hlane : gate.installLane = some stage)
    (h : gate.holdLane stage = some gate') : Changed act gate gate' := by
  cases stage with
  | waiting fence =>
    simp only [holdLane] at h
    split_ifs at h with hfree holder
    · cases h
      exact .quiet rfl rfl
    · cases h
      refine ⟨none, .drained hlane (undecided_of_mutex hfree) fun older count hcount hlt => ?_, rfl⟩
      by_contra hne
      refine holder (List.any_eq_true.mpr ⟨(older, count), ?_, decide_eq_true ⟨hlt, hne⟩⟩)
      exact BTreeMap.mem_toList.mpr hcount
  | drained fence =>
    simp only [holdLane] at h
    split_ifs at h
    · cases h
      exact ⟨none, .enabled hlane, rfl⟩
    · cases h
      exact ⟨some (.notGuarded _ _), .laneLeft rfl, rfl⟩
  | enabled fence =>
    simp only [holdLane] at h
    split_ifs at h with hlive hfence hmember
    · cases h
      exact ⟨some (.notGuarded _ _), .laneLeft rfl, rfl⟩
    · cases h
      exact ⟨some (.notGuarded _ _), .laneLeft rfl, rfl⟩
    · cases h
      exact ⟨some (.guarded _), .guarded hlane (not_not.mp hfence), rfl⟩
    · cases h
      exact ⟨some (.notGuarded _ _), .laneLeft rfl, rfl⟩
  | guarded fence => cases h

/-- **Every step of a gate is one of the changes.** -/
theorem step_changed (h : gate.step act = some gate') : Changed act gate gate' := by
  cases act with
  | publish proposed =>
    simp only [step] at h
    split at h
    next next hnext =>
      cases h
      exact ⟨_, .published rfl hnext, rfl⟩
    next =>
      cases h
      exact .reported rfl rfl rfl
  | enableFor appliedIndex =>
    simp only [step] at h
    split_ifs at h
    · cases h
      exact .reported rfl rfl rfl
    · cases h
      exact .quiet rfl rfl
  | disable =>
    cases h
    split_ifs
    · exact .quiet rfl rfl
    · exact .quiet rfl rfl
  | retire =>
    cases h
    exact .quiet rfl rfl
  | admitRequest request =>
    simp only [step] at h
    split_ifs at h
    · cases h
      exact .quiet rfl rfl
    · cases h
      exact .reported rfl rfl rfl
  | prepareFenceInstall fence =>
    simp only [step] at h
    split_ifs at h
    cases h
    exact ⟨none, .laneTaken rfl, rfl⟩
  | resume call =>
    simp only [step] at h
    split_ifs at h
    exact (resume_changed h : Changed _ { gate with pending := gate.pending.erase call } gate')
  | holdCounters =>
    obtain ⟨stage, hstage, rfl⟩ := Option.map_eq_some_iff.mp h
    exact holdCounters_changed hstage
  | holdLane =>
    obtain ⟨stage, hstage, hnext⟩ := Option.bind_eq_some_iff.mp h
    exact holdLane_changed hstage hnext
  | leaveLane =>
    obtain ⟨stage, -, hnext⟩ := Option.bind_eq_some_iff.mp h
    cases stage with
    | waiting fence | guarded fence =>
      cases hnext
      exact ⟨none, .laneLeft rfl, rfl⟩
    | drained fence | enabled fence => cases hnext
  | clonePermit lease =>
    simp only [step] at h
    split_ifs at h with hlease
    cases h
    exact ⟨none, .shared hlease, rfl⟩
  | dropPermit lease =>
    simp only [step] at h
    split_ifs at h with hlease
    rw [dropPermit] at h
    split_ifs at h with howners hfree
    · cases h
      exact ⟨none, .shared hlease, rfl⟩
    · cases h
      exact ⟨none, .released hlease (undecided_of_mutex hfree), rfl⟩

end FenceAdmission

end Mantissa
