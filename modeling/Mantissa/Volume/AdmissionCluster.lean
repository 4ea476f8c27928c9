import Mantissa.Volume.FenceInstall

/-!
# The gates of all nodes

One control-state run, and on each node a gate that publishes states of that run, each node at its
own pace. The log holds every state of the run with its position, newest first; a node's gate is
opened with one of them, is handed any of them at any time, and takes only what its cell accepts.

What a gate grants was valid for a state it had published (`Traced`), and published states are
states of the one log. Two of those with one fence have one writer, and a state under recovery has
none, so the grants of all gates under one fence fit together.
-/

namespace Mantissa

open AppliedVolumeState VolumeControlState List Option

/-! ## What a gate has granted -/

namespace FenceAdmission

/-- A gate around a cell that was just created for a published state. -/
def opened (appliedState : AppliedVolumeState) (localNode : VolumeNodeId) : FenceAdmission :=
  (new appliedState localNode).record (.published appliedState)

/-- Grants were valid for published states, at a fence no lower than any published before. -/
structure Traced (applied : AppliedVolumeState) (localNode : VolumeNodeId)
    (history : List GateEvent) : Prop where
  applied_mem : .published applied ∈ history
  fence_le : ∀ published, .published published ∈ history →
    published.data.fence ≤ applied.data.fence
  validated : ∀ request, .granted request ∈ history → ∃ published,
    .published published ∈ history ∧ validateRequest published localNode request = .ok ()
  ordered : history.Pairwise fun newer older => ∀ request published,
    newer = .granted request → older = .published published →
      published.data.fence ≤ request.fence

lemma traced_opened (applied : AppliedVolumeState) (localNode : VolumeNodeId) :
    Traced applied localNode [.published applied] := by
  refine ⟨mem_singleton_self _, fun published hmem => ?_, fun request hmem => ?_,
    pairwise_singleton _ _⟩
  · cases mem_singleton.mp hmem
    exact le_rfl
  · cases mem_singleton.mp hmem

variable {applied : AppliedVolumeState} {localNode : VolumeNodeId} {history : List GateEvent}

variable (h : Traced applied localNode history)

include h

/-- Other events do not matter. -/
lemma Traced.report (event : GateEvent) (hpublished : ∀ published, event ≠ .published published)
    (hgranted : ∀ request, event ≠ .granted request) :
    Traced applied localNode (event :: history) := by
  refine ⟨mem_cons_of_mem _ h.applied_mem, fun published hmem => ?_, fun request hmem => ?_,
    pairwise_cons.mpr ⟨fun _ _ request _ heq => absurd heq (hgranted request), h.ordered⟩⟩
  · exact h.fence_le published ((mem_cons.mp hmem).resolve_left (hpublished published ·.symm))
  · obtain ⟨published, hmem', hvalid⟩ :=
      h.validated request ((mem_cons.mp hmem).resolve_left (hgranted request ·.symm))
    exact ⟨published, mem_cons_of_mem _ hmem', hvalid⟩

lemma Traced.publish {next : AppliedVolumeState} (hle : applied.data.fence ≤ next.data.fence) :
    Traced next localNode (.published next :: history) := by
  refine ⟨mem_cons_self, fun published hmem => ?_, fun request hmem => ?_,
    pairwise_cons.mpr ⟨fun _ _ _ _ => nofun, h.ordered⟩⟩
  · rcases mem_cons.mp hmem with heq | hmem
    · cases heq
      exact le_rfl
    · exact (h.fence_le published hmem).trans hle
  · obtain ⟨published, hmem', hvalid⟩ := h.validated request ((mem_cons.mp hmem).resolve_left nofun)
    exact ⟨published, mem_cons_of_mem _ hmem', hvalid⟩

lemma Traced.grant {request : IoAdmissionRequest}
    (hvalid : validateRequest applied localNode request = .ok ()) :
    Traced applied localNode (.granted request :: history) := by
  refine ⟨mem_cons_of_mem _ h.applied_mem, fun published hmem => ?_, fun other hmem => ?_,
    pairwise_cons.mpr ⟨?_, h.ordered⟩⟩
  · exact h.fence_le published ((mem_cons.mp hmem).resolve_left nofun)
  · rcases mem_cons.mp hmem with heq | hmem
    · cases heq
      exact ⟨_, mem_cons_of_mem _ h.applied_mem, hvalid⟩
    · obtain ⟨published, hmem', hvalid'⟩ := h.validated other hmem
      exact ⟨published, mem_cons_of_mem _ hmem', hvalid'⟩
  · rintro older hmem _ published ⟨⟩ rfl
    exact (h.fence_le published hmem).trans_eq (validateRequest_eq_ok hvalid).2.1

omit h

variable {act : GateAction} {c c' : Core}

/-- **Every change keeps the trace.** -/
lemma Change.traced {event : Option GateEvent} (h : Change act c c' event)
    (htraced : Traced c.appliedVolumeState c.localNode history) :
    Traced c'.appliedVolumeState c'.localNode (event.toList ++ history) := by
  cases h with
  | quiet hplain | laneLeft hplain =>
    cases event with
    | none => exact htraced
    | some event =>
      refine htraced.report event ?_ ?_ <;>
      · rintro _ rfl
        cases hplain
  | published _ hnext => exact htraced.publish (fence_le_of_publish hnext)
  | granted _ hvalid => exact htraced.grant hvalid
  | rolledBack => exact htraced.report (.refused _ _) (fun _ => nofun) (fun _ => nofun)
  | guarded => exact htraced.report (.guarded _) (fun _ => nofun) (fun _ => nofun)
  | counted | laneTaken | drained | enabled | shared | released => exact htraced

/-- What is published was proposed. -/
lemma Change.proposed {published : AppliedVolumeState}
    (h : Change act c c' (some (.published published))) : act = .publish published := by
  cases h with
  | quiet hplain | laneLeft hplain => cases hplain
  | published hact hnext =>
    rw [hact]
    rw [publish] at hnext
    split_ifs at hnext with _ _ hsame
    · rw [hsame, Except.ok.inj hnext]
    · rw [Except.ok.inj hnext]

end FenceAdmission

/-! ## The cluster -/

/-- The log of the control-state run and the gates of the nodes. -/
structure VolumeCluster where
  log : List (ApplyContext × VolumeControlState)
  gates : VolumeNodeId → Option FenceAdmission

/-- What happens in a cluster. -/
inductive ClusterAction
  | commit (term : ℕ) (command : VolumeCommand)
  | openGate (node : VolumeNodeId) (position : ℕ)
  | publish (node : VolumeNodeId) (position : ℕ)
  | atGate (node : VolumeNodeId) (act : GateAction)

namespace VolumeCluster

open FenceAdmission VolumeControlState

def init : VolumeCluster := ⟨[], fun _ => none⟩

variable (c : VolumeCluster)

/-- The state after the last entry. -/
def current : VolumeControlState :=
  (c.log.head?.map Prod.snd).getD .default

/-- The state of one entry in the form that is published; none before initialization. -/
def appliedAt (position : ℕ) : Option AppliedVolumeState :=
  c.log[position]?.bind fun entry => fromState entry.1 entry.2

def setGate (node : VolumeNodeId) (gate : FenceAdmission) : VolumeCluster :=
  { c with gates := Function.update c.gates node (some gate) }

/-- A node's gate takes one step. -/
def gateStep (node : VolumeNodeId) (act : GateAction) : Option VolumeCluster :=
  (c.gates node).bind fun gate => (gate.step act).map (c.setGate node)

/-- One step of the cluster. A gate publishes states of the log only. -/
def step : ClusterAction → Option VolumeCluster
  | .commit term command => (c.current.step command).map fun next =>
    { c with log := (⟨term, c.log.length + 1⟩, next) :: c.log }
  | .openGate node position =>
    if (c.gates node).isSome then none
    else (c.appliedAt position).map fun published => c.setGate node (opened published node)
  | .publish node position =>
    (c.appliedAt position).bind fun published => c.gateStep node (.publish published)
  | .atGate _ (.publish _) => none
  | .atGate node act => c.gateStep node act

/-- A state of the log, as it is published. -/
def Logged (published : AppliedVolumeState) : Prop :=
  ∃ entry ∈ c.log, fromState entry.1 entry.2 = some published

/-- What a cluster keeps: the log is one run and the gates publish its states. -/
structure Sound (c : VolumeCluster) : Prop where
  reachable : ∀ entry ∈ c.log, Reaches VolumeControlState.step anyStep .default entry.2
  run : c.log.Pairwise fun newer older =>
    Reaches VolumeControlState.step anyStep older.2 newer.2
  traced : ∀ node gate, c.gates node = some gate →
    Traced gate.appliedVolumeState gate.localNode gate.history
  logged : ∀ node gate, c.gates node = some gate → ∀ published,
    .published published ∈ gate.history → c.Logged published

variable {c c' : VolumeCluster}

lemma sound_init : Sound init := ⟨fun _ => nofun, .nil, fun _ _ => nofun, fun _ _ => nofun⟩

variable (hc : c.Sound)

include hc

/-- The last state is reachable, and every other one leads to it. -/
lemma Sound.current_reachable : Reaches VolumeControlState.step anyStep .default c.current ∧
      ∀ entry ∈ c.log, Reaches VolumeControlState.step anyStep entry.2 c.current := by
  obtain ⟨log, gates⟩ := c
  cases log with
  | nil => exact ⟨.refl, nofun⟩
  | cons last log =>
    refine ⟨hc.reachable last mem_cons_self, fun entry hmem => ?_⟩
    rcases mem_cons.mp hmem with rfl | hmem
    · exact .refl
    · exact (pairwise_cons.mp hc.run).1 entry hmem

lemma Sound.commit {term : ℕ} {command : VolumeCommand} {next : VolumeControlState}
    (hnext : c.current.step command = some next) :
    Sound { c with log := (⟨term, c.log.length + 1⟩, next) :: c.log } := by
  obtain ⟨hcurrent, hlog⟩ := hc.current_reachable
  refine ⟨fun entry hmem => ?_, pairwise_cons.mpr ⟨fun entry hmem => ?_, hc.run⟩, hc.traced,
    fun node gate hgate published hmem => ?_⟩
  · rcases mem_cons.mp hmem with rfl | hmem
    · exact hcurrent.tail trivial hnext
    · exact hc.reachable entry hmem
  · exact (hlog entry hmem).tail trivial hnext
  · obtain ⟨entry, hentry, heq⟩ := hc.logged node gate hgate published hmem
    exact ⟨entry, mem_cons_of_mem _ hentry, heq⟩

variable {node : VolumeNodeId}

lemma Sound.setGate {gate : FenceAdmission}
    (htraced : Traced gate.appliedVolumeState gate.localNode gate.history)
    (hlogged : ∀ published, .published published ∈ gate.history → c.Logged published) :
    (c.setGate node gate).Sound := by
  have hcases : ∀ other gate', (c.setGate node gate).gates other = some gate' →
      gate' = gate ∨ c.gates other = some gate' := by
    intro other gate' heq
    rcases eq_or_ne other node with rfl | hne
    · simp only [VolumeCluster.setGate, Function.update_self] at heq
      exact .inl (Option.some.inj heq).symm
    · simp only [VolumeCluster.setGate, Function.update_of_ne hne] at heq
      exact .inr heq
  refine ⟨hc.reachable, hc.run, fun other gate' heq => ?_, fun other gate' heq => ?_⟩
  · rcases hcases other gate' heq with rfl | heq
    · exact htraced
    · exact hc.traced other gate' heq
  · rcases hcases other gate' heq with rfl | heq
    · exact hlogged
    · exact hc.logged other gate' heq

lemma Sound.gateStep {act : GateAction}
    (hact : ∀ published, act = .publish published → c.Logged published)
    (h : c.gateStep node act = some c') : c'.Sound := by
  obtain ⟨gate, hgate, h⟩ := bind_eq_some_iff.mp h
  obtain ⟨gate', hstep, rfl⟩ := map_eq_some_iff.mp h
  obtain ⟨event, hchange, hhistory⟩ := step_changed hstep
  refine hc.setGate ?_ fun published hmem => ?_
  · rw [hhistory]
    exact hchange.traced (hc.traced node gate hgate)
  · rw [hhistory] at hmem
    rcases mem_append.mp hmem with hmem | hmem
    · obtain rfl := mem_toList.mp hmem
      exact hact published hchange.proposed
    · exact hc.logged node gate hgate published hmem

variable {published : AppliedVolumeState}

omit hc in
lemma logged_of_appliedAt {position : ℕ}
    (h : c.appliedAt position = some published) : c.Logged published := by
  obtain ⟨entry, hentry, heq⟩ := bind_eq_some_iff.mp h
  exact ⟨entry, mem_of_getElem? hentry, heq⟩

lemma Sound.step {act : ClusterAction} (h : c.step act = some c') : c'.Sound := by
  cases act with
  | commit term command =>
    obtain ⟨next, hnext, rfl⟩ := map_eq_some_iff.mp h
    exact hc.commit hnext
  | openGate node position =>
    simp only [VolumeCluster.step] at h
    split_ifs at h
    obtain ⟨published, hpublished, rfl⟩ := map_eq_some_iff.mp h
    refine hc.setGate (traced_opened published node) fun other hmem => ?_
    cases mem_singleton.mp hmem
    exact logged_of_appliedAt hpublished
  | publish node position =>
    obtain ⟨published, hpublished, h⟩ := bind_eq_some_iff.mp h
    refine hc.gateStep (fun other heq => ?_) h
    cases heq
    exact logged_of_appliedAt hpublished
  | atGate node act =>
    cases act with
    | publish => cases h
    | enableFor | disable | retire | admitRequest | prepareFenceInstall | resume | holdCounters
    | holdLane | leaveLane | clonePermit | dropPermit =>
      refine hc.gateStep ?_ h
      rintro _ ⟨⟩

omit hc in
lemma sound_of_reaches (h : Reaches VolumeCluster.step anyStep init c) : c.Sound :=
  h.invariant (P := Sound) sound_init fun hc _ hstep => hc.step hstep

/-! ## One fence across nodes -/

/-- Published states with one fence have one writer. -/
lemma Sound.writer_eq {published' : AppliedVolumeState}
    (h : c.Logged published) (h' : c.Logged published')
    (hfence : published.data.fence = published'.data.fence) :
    published.data.writer = published'.data.writer := by
  have hlater : ∀ {s t : VolumeControlState} {context context' : ApplyContext} {p p'},
      Reaches VolumeControlState.step anyStep .default s →
      Reaches VolumeControlState.step anyStep s t →
      fromState context s = some p →
      fromState context' t = some p' →
      p.data.fence = p'.data.fence → p.data.writer = p'.data.writer := by
    intro s t context context' p p' hs hst hp hp' heq
    obtain ⟨hd, hdata, -⟩ := fromState_eq_some.mp hp
    obtain ⟨-, hdata', -⟩ := fromState_eq_some.mp hp'
    obtain ⟨data', htdata, horder⟩ := (later_of_initialized
      (valid_of_reaches .uninitialized hs) hst hd hdata).data_later
    rw [hdata'] at htdata
    cases htdata
    exact (horder.eq_of_fence_eq heq).2
  obtain ⟨entry, hentry, hp⟩ := h
  obtain ⟨entry', hentry', hp'⟩ := h'
  have hsymm : Std.Symm fun x y : ApplyContext × VolumeControlState =>
      Reaches VolumeControlState.step anyStep x.2 y.2 ∨
        Reaches VolumeControlState.step anyStep y.2 x.2 := ⟨fun _ _ h => h.symm⟩
  have hpair : c.log.Pairwise fun x y => Reaches VolumeControlState.step anyStep x.2 y.2 ∨
      Reaches VolumeControlState.step anyStep y.2 x.2 := hc.run.imp fun h => .inr h
  rcases eq_or_ne entry entry' with rfl | hne
  · exact hlater (hc.reachable entry hentry) .refl hp hp' hfence
  rcases hpair.forall hentry hentry' hne with hle | hle
  · exact hlater (hc.reachable entry hentry) hle hp hp' hfence
  · exact (hlater (hc.reachable entry' hentry') hle hp' hp hfence.symm).symm

/-- A published state under recovery has no writer. -/
lemma Sound.no_writer_in_recovery {recovery : RecoveryGrant} (h : c.Logged published)
    (hrecovery : published.data.recovery = some recovery) : published.data.writer = none := by
  obtain ⟨entry, hentry, hp⟩ := h
  obtain ⟨-, hdata, -⟩ := fromState_eq_some.mp hp
  obtain ⟨context, s⟩ := entry
  cases valid_of_reaches .uninitialized (hc.reachable _ hentry) with
  | uninitialized => cases hdata
  | initialized _ hgrants =>
    cases hdata
    exact (checkStoredRecovery_eq_ok.mp (hgrants.recovery recovery hrecovery)).1

variable {request : IoAdmissionRequest}

/-- What was granted was valid for a state of the log. -/
lemma Sound.validated {gate : FenceAdmission} (hgate : c.gates node = some gate)
    (hgranted : .granted request ∈ gate.history) : ∃ published, c.Logged published ∧
      published.data.fence = request.fence ∧
      requestAllowed published gate.localNode request = true := by
  obtain ⟨published, hmem, hvalid⟩ := (hc.traced node gate hgate).validated request hgranted
  obtain ⟨-, hfence, hallowed⟩ := validateRequest_eq_ok hvalid
  exact ⟨published, hc.logged node gate hgate published hmem, hfence, hallowed⟩

omit hc

lemma writer_of_foreground {localNode : VolumeNodeId} (hkind : request.kind = .foreground)
    (h : requestAllowed published localNode request = true) :
    published.data.writer = some ⟨request.authenticatedPeer, request.sessionId⟩ := by
  rw [requestAllowed, hkind] at h
  exact (of_decide_eq_true h).2

/-- **At most one foreground writer per fence.** Foreground requests granted by any two gates under
one fence come from one writer, none is granted under the fence of a recovery's target, and a gate
grants nothing below a fence it has published. -/
theorem one_foreground_writer_per_fence (c : VolumeCluster)
    (h : Reaches VolumeCluster.step anyStep init c) :
    (∀ node node' gate gate' request request', c.gates node = some gate →
      c.gates node' = some gate' → .granted request ∈ gate.history →
      .granted request' ∈ gate'.history → request.fence = request'.fence →
      request.kind = .foreground →
        (request'.kind = .foreground →
          request.authenticatedPeer = request'.authenticatedPeer ∧
            request.sessionId = request'.sessionId) ∧
        ∀ id, request'.kind ≠ .recoveryTarget id) ∧
    ∀ node gate, c.gates node = some gate → ∀ later published earlier,
      gate.history = later ++ .published published :: earlier →
      ∀ request, .granted request ∈ later → published.data.fence ≤ request.fence := by
  have hc := sound_of_reaches h
  refine ⟨?_, fun node gate hgate later published earlier hsplit request hmem => ?_⟩
  · intro node node' gate gate' request request' hgate hgate' hgranted hgranted' hfence hkind
    obtain ⟨published, hlogged, hat, hallowed⟩ := hc.validated hgate hgranted
    obtain ⟨published', hlogged', hat', hallowed'⟩ := hc.validated hgate' hgranted'
    have hwriter := writer_of_foreground hkind hallowed
    rw [hc.writer_eq hlogged hlogged' (by rw [hat, hat', hfence])] at hwriter
    refine ⟨fun hkind' => ?_, fun id hkind' => ?_⟩
    · rw [writer_of_foreground hkind' hallowed'] at hwriter
      obtain ⟨hpeer, hsession⟩ := WriterGrant.mk.inj (Option.some.inj hwriter)
      exact ⟨hpeer.symm, hsession.symm⟩
    · rw [requestAllowed, hkind'] at hallowed'
      obtain ⟨recovery, hrecovery, -⟩ := (any_eq_true _ _).mp hallowed'
      rw [hc.no_writer_in_recovery hlogged' hrecovery] at hwriter
      cases hwriter
  · have hordered := (hc.traced node gate hgate).ordered
    rw [hsplit] at hordered
    exact (pairwise_append.mp hordered).2.2 _ hmem _ mem_cons_self request published rfl rfl

/-- The first two nodes open their gates at the granted state, and both grant the writer's request.
-/
theorem one_foreground_writer_per_fence_two_nodes :
    ∃ c gate gate', Reaches step anyStep init c ∧
      c.gates (sampleIdentity .volumeNode 0) = some gate ∧
      c.gates (sampleIdentity .volumeNode 1) = some gate' ∧
      .granted (sampleRequest sampleFence) ∈ gate.history ∧
      .granted (sampleRequest sampleFence) ∈ gate'.history ∧
      ∀ id, (sampleRequest sampleFence).kind ≠ .recoveryTarget id := by
  have hreach : Reaches step anyStep init _ :=
    reaches_of_runActions ([.commit 1 (.initializeVolume sampleDescriptor sampleCopies),
        .commit 1 (.grantWriter ⟨sampleDescriptor.generation, 1⟩ sampleWriter),
        .openGate (sampleIdentity .volumeNode 0) 1, .openGate (sampleIdentity .volumeNode 1) 0,
        .publish (sampleIdentity .volumeNode 0) 0] ++
      (enableActions 2 ++ admitActions (sampleRequest sampleFence)).map
        (.atGate (sampleIdentity .volumeNode 0)) ++
      (enableActions 2 ++ admitActions (sampleRequest sampleFence)).map
        (.atGate (sampleIdentity .volumeNode 1))) rfl
  exact ⟨_, _, _, hreach, rfl, rfl, by decide +kernel, by decide +kernel,
    ((one_foreground_writer_per_fence _ hreach).1 (sampleIdentity .volumeNode 0)
      (sampleIdentity .volumeNode 1) _ _ (sampleRequest sampleFence)
        (sampleRequest sampleFence) rfl rfl
      (by decide +kernel) (by decide +kernel) rfl rfl).2⟩

end VolumeCluster

end Mantissa
