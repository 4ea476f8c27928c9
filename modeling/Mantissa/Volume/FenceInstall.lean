import Mantissa.Volume.Admission

/-!
# Installing a fence

The counters list the fences of the live permits and of the one request whose fate is open
(`Counts`), so a free mutex and no count below a fence mean no permit below it. Requests are
granted at the applied fence, which only rises; hence a drain that looks at the counters once its
own fence is published stays a drain.

`prepare_fence_install` looks at the counters first and loads the applied fence afterwards. When
the fence is published in between, a request under the older fence can still be granted after the
look, and the guard comes back while that request runs (`older_permit_survives_guard`).
-/

namespace Mantissa

open BTreeMap List

/-! ## Counters as a list of fences -/

/-- The map counts the members of a list and has no zero entry. -/
def Counts (inFlight : BTreeMap FenceEpoch ℕ) (fences : List FenceEpoch) : Prop :=
  ∀ fence : FenceEpoch,
    inFlight[fence]? = if fences.count fence = 0 then none else some (fences.count fence)

lemma counts_empty : Counts ∅ [] := fun fence => by simp

namespace Counts

variable {inFlight : BTreeMap FenceEpoch ℕ} {fences fences' : List FenceEpoch} {fence : FenceEpoch}

variable (h : Counts inFlight fences)

include h

lemma perm (hperm : fences.Perm fences') : Counts inFlight fences' := fun fence => by
  rw [← hperm.count_eq]
  exact h fence

lemma getD_eq (fence : FenceEpoch) : (inFlight[fence]?).getD 0 = fences.count fence := by
  rw [h fence]
  split_ifs with hzero
  · exact hzero.symm
  · rfl

lemma insert {count : ℕ} (hcount : checkedAdd ((inFlight[fence]?).getD 0) 1 = some count) :
    Counts (inFlight.insert fence count) (fence :: fences) := fun other => by
  rw [h.getD_eq] at hcount
  obtain ⟨-, rfl⟩ := checkedAdd_eq_some.mp hcount
  rw [getElem?_insert_eq, count_cons]
  rcases eq_or_ne fence other with rfl | hne
  · simp
  · simp [hne, h other]

omit h

lemma decrement (h : Counts inFlight (fence :: fences)) :
    Counts (decrementCount inFlight fence) fences := fun other => by
  have hfence : inFlight[fence]? = some (fences.count fence + 1) := by
    rw [h fence, count_cons_self, if_neg (Nat.succ_ne_zero _)]
  have hother : fence ≠ other → inFlight[other]? =
      if fences.count other = 0 then none else some (fences.count other) := fun hne => by
    rw [h other, count_cons_of_ne hne]
  rw [decrementCount, hfence]
  dsimp only
  split_ifs with hlast hzero hzero
  · rcases eq_or_ne fence other with rfl | hne
    · exact getElem?_erase_same _ _
    · rw [getElem?_erase_ne _ hne, hother hne, if_pos hzero]
  · rcases eq_or_ne fence other with rfl | hne
    · exact absurd hlast hzero
    · rw [getElem?_erase_ne _ hne, hother hne, if_neg hzero]
  · rcases eq_or_ne fence other with rfl | hne
    · exact absurd hzero hlast
    · rw [getElem?_insert_ne _ _ hne, hother hne, if_pos hzero]
  · rcases eq_or_ne fence other with rfl | hne
    · exact getElem?_insert_same _ _ _
    · rw [getElem?_insert_ne _ _ hne, hother hne, if_neg hzero]

end Counts

namespace FenceAdmission

/-- The permits live under a fence. A permit and its clones share one lease and are one permit. -/
def livePermits (gate : FenceAdmission) (fence : FenceEpoch) : ℕ :=
  (gate.leases.map FencePermitLease.fence).count fence

/-- The fences that are counted. -/
def Core.fences (c : Core) : List FenceEpoch :=
  (c.undecided.map IoAdmissionRequest.fence).toList ++ c.leases.map FencePermitLease.fence

lemma perm_fences {leases : List FencePermitLease} {lease : FencePermitLease}
    (hlease : lease ∈ leases) : (leases.map FencePermitLease.fence).Perm
      (lease.fence :: (leases.erase lease).map FencePermitLease.fence) :=
  (perm_cons_erase hlease).map FencePermitLease.fence

variable {act : GateAction} {c c' : Core} {event : Option GateEvent}

/-- Every change keeps the counters in step with the permits. -/
lemma Change.counts (h : Change act c c' event) (hcounts : Counts c.inFlight c.fences) :
    Counts c'.inFlight c'.fences := by
  cases h with
  | quiet | published | laneTaken | drained | enabled | guarded | laneLeft => exact hcounts
  | counted hundecided hcount =>
    simp only [Core.fences, hundecided] at hcounts
    exact hcounts.insert hcount
  | rolledBack hundecided =>
    simp only [Core.fences, hundecided] at hcounts
    exact hcounts.decrement
  | granted hundecided hvalid =>
    simp only [Core.fences, hundecided] at hcounts
    exact hcounts
  | shared hlease => exact hcounts.perm ((perm_fences hlease).append_left _)
  | released hlease hundecided =>
    refine Counts.decrement (hcounts.perm ?_)
    simpa [Core.fences, hundecided] using perm_fences hlease

/-! ## The applied fence and the grants -/

lemma fence_le_of_publish {current proposed next : AppliedVolumeState}
    (h : current.publish proposed = .ok next) : current.data.fence ≤ next.data.fence := by
  rw [AppliedVolumeState.publish] at h
  split_ifs at h with _ _ _ hregressed
  · cases h
    exact le_rfl
  · cases h
    exact not_lt.mp fun hlt => hregressed (.inr (.inl hlt))

/-- The applied fence only rises. -/
lemma Change.fence_le (h : Change act c c' event) :
    c.appliedVolumeState.data.fence ≤ c'.appliedVolumeState.data.fence := by
  cases h with
  | published _ hnext => exact fence_le_of_publish hnext
  | _ => exact le_rfl

/-- A request is granted at the applied fence. -/
lemma Change.fence_granted {request : IoAdmissionRequest}
    (h : Change act c c' (some (.granted request))) :
    c.appliedVolumeState.data.fence = request.fence := by
  cases h with
  | granted _ hvalid => exact (validateRequest_eq_ok hvalid).2.1
  | quiet hevent | laneLeft hevent => cases hevent

variable {gate gate' : FenceAdmission} {ok : FenceAdmission → GateAction → Prop}

/-- Once a fence is applied, only requests at or above it are granted. -/
lemma granted_of_reaches {fence : FenceEpoch} (h : Reaches step ok gate gate')
    (hfence : fence ≤ gate.appliedVolumeState.data.fence) :
    ∃ events, gate'.history = events ++ gate.history ∧
      ∀ request, .granted request ∈ events → fence ≤ request.fence := by
  have hlater : fence ≤ gate'.appliedVolumeState.data.fence ∧
      ∃ events, gate'.history = events ++ gate.history ∧
        ∀ request, .granted request ∈ events → fence ≤ request.fence := by
    refine h.invariant (P := fun later => fence ≤ later.appliedVolumeState.data.fence ∧
      ∃ events, later.history = events ++ gate.history ∧
        ∀ request, .granted request ∈ events → fence ≤ request.fence)
      ⟨hfence, [], rfl, fun _ => nofun⟩ ?_
    rintro x y act ⟨hle, events, hhistory, hgranted⟩ - hstep
    obtain ⟨event, hchange, hnext⟩ := step_changed hstep
    refine ⟨hle.trans hchange.fence_le, event.toList ++ events, ?_, fun request hmem => ?_⟩
    · rw [hnext, hhistory, append_assoc]
    · rcases mem_append.mp hmem with hmem | hmem
      · obtain rfl := Option.mem_toList.mp hmem
        exact hle.trans_eq hchange.fence_granted
      · exact hgranted request hmem
  exact hlater.2

/-! ## The install lane -/

/-- A `prepare_fence_install` takes the lane only when its fence is published. -/
def installsPublished (gate : FenceAdmission) : GateAction → Prop
  | .prepareFenceInstall fence => fence ≤ gate.appliedVolumeState.data.fence
  | _ => True

instance (gate : FenceAdmission) : ∀ act : GateAction, Decidable (gate.installsPublished act)
  | .prepareFenceInstall fence =>
    inferInstanceAs (Decidable (fence ≤ gate.appliedVolumeState.data.fence))
  | .publish _ | .enableFor _ | .disable | .retire | .admitRequest _ | .resume _ | .holdCounters
  | .holdLane | .leaveLane | .clonePermit _ | .dropPermit _ => inferInstanceAs (Decidable True)

/-- The fence of the lane is applied, and behind a passed drain no older permit lives. -/
def Excludes (applied : FenceEpoch) (leases : List FencePermitLease) : Option InstallStage → Prop
  | none => True
  | some (.waiting fence) => fence ≤ applied
  | some (.drained fence) | some (.enabled fence) | some (.guarded fence) =>
    fence ≤ applied ∧ ∀ lease ∈ leases, fence ≤ lease.fence

/-- A higher applied fence, fewer permits and permits at the applied fence exclude no less. -/
lemma Excludes.mono {applied applied' : FenceEpoch} {leases leases' : List FencePermitLease}
    {lane : Option InstallStage} (h : Excludes applied leases lane) (hle : applied ≤ applied')
    (hleases : ∀ lease' ∈ leases', applied = lease'.fence ∨
      ∃ lease ∈ leases, lease.fence = lease'.fence) : Excludes applied' leases' lane := by
  have hpassed : ∀ {fence}, (fence ≤ applied ∧ ∀ lease ∈ leases, fence ≤ lease.fence) →
      fence ≤ applied' ∧ ∀ lease ∈ leases', fence ≤ lease.fence := by
    rintro fence ⟨happlied, hold⟩
    refine ⟨happlied.trans hle, fun lease' hmem => ?_⟩
    rcases hleases lease' hmem with heq | ⟨lease, hlease, heq⟩
    · exact happlied.trans_eq heq
    · exact (hold lease hlease).trans_eq heq
  cases lane with
  | none => trivial
  | some stage =>
    cases stage with
    | waiting fence => exact le_trans (show fence ≤ applied from h) hle
    | drained fence | enabled fence | guarded fence => exact hpassed h

/-- What every run that installs published fences keeps. -/
structure Core.Excluding (c : Core) : Prop where
  counts : Counts c.inFlight c.fences
  excludes : Excludes c.appliedVolumeState.data.fence c.leases c.installLane

/-- **A change keeps the exclusion** when a fence enters the lane only once it is applied. -/
lemma Change.excluding (h : Change act c c' event) (hc : c.Excluding)
    (hact : ∀ fence, act = .prepareFenceInstall fence →
      fence ≤ c.appliedVolumeState.data.fence) : c'.Excluding := by
  refine ⟨h.counts hc.counts, ?_⟩
  have hkept := hc.excludes
  cases h with
  | quiet | counted | rolledBack => exact hkept
  | published _ hnext =>
    exact hkept.mono (fence_le_of_publish hnext) fun lease hmem => .inr ⟨lease, hmem, rfl⟩
  | granted _ hvalid =>
    refine hkept.mono le_rfl fun lease hmem => ?_
    rcases mem_cons.mp hmem with rfl | hmem
    · exact .inl (validateRequest_eq_ok hvalid).2.1
    · exact .inr ⟨lease, hmem, rfl⟩
  | laneTaken heq => exact hact _ heq
  | drained hlane _ holder =>
    rw [hlane] at hkept
    refine ⟨hkept, fun lease hlease => ?_⟩
    -- a permit of an older fence would still be counted
    have hpos : c.fences.count lease.fence ≠ 0 :=
      (count_pos_iff.mpr (mem_append_right _ (mem_map_of_mem hlease))).ne'
    have hcount := hc.counts lease.fence
    rw [if_neg hpos] at hcount
    exact not_lt.mp fun hlt => hpos (holder _ _ hcount hlt)
  | enabled hlane | guarded hlane =>
    rw [hlane] at hkept
    exact hkept
  | laneLeft => trivial
  | shared hlease =>
    refine hkept.mono le_rfl fun lease hmem => ?_
    rcases mem_cons.mp hmem with rfl | hmem
    · exact .inr ⟨_, hlease, rfl⟩
    · exact .inr ⟨lease, mem_of_mem_erase hmem, rfl⟩
  | released =>
    exact hkept.mono le_rfl fun lease hmem => .inr ⟨lease, mem_of_mem_erase hmem, rfl⟩

/-! ## Runs -/

lemma excluding_of_reaches {start : AppliedVolumeState} {localNode : VolumeNodeId}
    (h : Reaches step installsPublished (new start localNode) gate) : gate.core.Excluding := by
  refine h.invariant (P := fun gate => gate.core.Excluding) ⟨counts_empty, trivial⟩ ?_
  rintro x y act hexcluding hok hstep
  obtain ⟨event, hchange, -⟩ := step_changed hstep
  refine hchange.excluding hexcluding fun fence heq => ?_
  rw [heq] at hok
  exact hok

/-- A step that returns a guard finds the guard's fence applied and changes no permit. -/
lemma guarded_of_step {fence : FenceEpoch} (hstep : gate.step act = some gate')
    (hhistory : gate'.history = .guarded fence :: gate.history) :
    gate.core.appliedVolumeState.data.fence = fence ∧ gate.core.installLane =
      some (.enabled fence) ∧ gate'.core.appliedVolumeState = gate.core.appliedVolumeState ∧
      gate'.core.leases = gate.core.leases := by
  obtain ⟨event, hchange, hnext⟩ := step_changed hstep
  obtain rfl : event = some (.guarded fence) := by
    cases event with
    | none =>
      rw [hhistory] at hnext
      exact absurd hnext (cons_ne_self _ _)
    | some event =>
      rw [hhistory] at hnext
      rw [(List.cons.inj hnext).1]
  generalize gate'.core = c' at hchange ⊢
  cases hchange with
  | guarded hlane hfence => exact ⟨hfence, hlane, rfl, rfl⟩
  | quiet hevent | laneLeft hevent => cases hevent

/-- **Fence installation excludes older work.** With the mutex free, the counters are the live
permits. When every install starts with its fence published, a guard comes back with no older
permit alive, and none is granted later. -/
theorem fence_install_excludes_older (start : AppliedVolumeState) (localNode : VolumeNodeId) :
    (∀ gate, Reaches step anyStep (new start localNode) gate → gate.mutex = none →
      ∀ fence : FenceEpoch, (gate.inFlight[fence]?).getD 0 = gate.livePermits fence) ∧
    ∀ gate, Reaches step installsPublished (new start localNode) gate →
      ∀ act gate' fence, gate.step act = some gate' →
        gate'.history = .guarded fence :: gate.history →
        (∀ lease ∈ gate'.leases, fence ≤ lease.fence) ∧
        ∀ later, Reaches step anyStep gate' later →
          ∃ events, later.history = events ++ gate'.history ∧
            ∀ request, .granted request ∈ events → fence ≤ request.fence := by
  refine ⟨fun gate hreach hfree fence => ?_, fun gate hreach act gate' fence hstep hhistory => ?_⟩
  · have hkept := hreach.invariant (P := fun gate => Counts gate.core.inFlight gate.core.fences)
      counts_empty fun {_ _ _} hcounts _ hstep => by
        obtain ⟨event, hchange, -⟩ := step_changed hstep
        exact hchange.counts hcounts
    have hcounts := hkept.getD_eq fence
    simp only [Core.fences, undecided_of_mutex hfree] at hcounts
    exact hcounts
  · obtain ⟨hfence, hlane, happlied, hleases⟩ := guarded_of_step hstep hhistory
    have hexcludes := (excluding_of_reaches hreach).excludes
    rw [hlane] at hexcludes
    refine ⟨fun lease hlease => ?_, fun later hlater => granted_of_reaches hlater ?_⟩
    · refine hexcludes.2 lease ?_
      rw [← hleases]
      exact hlease
    · exact (hfence.symm.trans_le (congrArg (·.data.fence) happlied).ge)

/-! ## A drain that comes too early -/

def sampleFence : FenceEpoch := ⟨2, by decide, by decide⟩

def sampleNextFence : FenceEpoch := ⟨3, by decide, by decide⟩

/-- The applied state at one fence, with the sample writer. -/
def sampleApplied (fence : FenceEpoch) : AppliedVolumeState where
  applied := ⟨1, fence.get⟩
  descriptor := VolumeControlState.sampleDescriptor
  revision := fence.get
  disposition := .live
  data := ⟨fence, VolumeControlState.sampleCopies, some VolumeControlState.sampleWriter, none⟩
  replacement := none

/-- The writer's request at one fence. -/
def sampleRequest (fence : FenceEpoch) : IoAdmissionRequest where
  descriptor := VolumeControlState.sampleDescriptor
  fence := fence
  sessionId := VolumeControlState.sampleWriter.sessionId
  authenticatedPeer := VolumeControlState.sampleWriter.nodeId
  kind := .foreground

/-- The gate of the first copy at fence 2. -/
def sampleGate : FenceAdmission :=
  new (sampleApplied sampleFence) VolumeControlState.sampleWriter.nodeId

/-- `enable_for`, without interruption. -/
def enableActions (appliedIndex : ℕ) : List GateAction :=
  [.enableFor appliedIndex, .resume (.enableUnretired appliedIndex),
    .resume (.enableValidated appliedIndex), .resume (.enableExchanged appliedIndex),
    .resume (.enableCurrent appliedIndex)]

/-- `admit`, without interruption. -/
def admitActions (request : IoAdmissionRequest) : List GateAction :=
  [.admitRequest request, .resume (.admitEnabled request), .resume (.admitValidated request),
    .holdCounters, .holdCounters, .holdCounters, .holdCounters, .holdCounters, .holdCounters]

/-- A request under fence 2 is admitted and finished, then fence 3 is published and installed. -/
theorem fence_install_excludes_older_drained :
    ∃ gate gate', Reaches step installsPublished sampleGate gate ∧
      gate.step .holdLane = some gate' ∧
      gate'.history = .guarded sampleNextFence :: gate.history ∧
      ∀ lease ∈ gate'.leases, sampleNextFence ≤ lease.fence := by
  have hreach : Reaches step installsPublished sampleGate _ :=
    reaches_of_runActions (enableActions 2 ++ admitActions (sampleRequest sampleFence) ++
      [.dropPermit ⟨sampleFence, 1⟩, .publish (sampleApplied sampleNextFence),
        .prepareFenceInstall sampleNextFence, .holdLane, .holdLane]) rfl
  exact ⟨_, _, hreach, rfl, rfl,
    ((fence_install_excludes_older _ _).2 _ hreach .holdLane _ _ rfl rfl).1⟩

/-- The drain for fence 3 is over while fence 2 is applied; a request is then granted under fence 2,
fence 3 is published, and the guard for fence 3 comes back with that request alive. -/
theorem older_permit_survives_guard : ∃ gate, Reaches step anyStep sampleGate gate ∧
      gate.history.head? = some (.guarded sampleNextFence) ∧
      ⟨sampleFence, 1⟩ ∈ gate.leases :=
  exists_reaches_of_runActions (enableActions 2 ++
    [.prepareFenceInstall sampleNextFence, .holdLane] ++
    admitActions (sampleRequest sampleFence) ++
    [.publish (sampleApplied sampleNextFence), .holdLane, .holdLane]) (by decide +kernel)

end FenceAdmission

end Mantissa
