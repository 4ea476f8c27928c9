import Mantissa.Core.Preference
import Mantissa.Workload.Selection

/-!
# Which specification of a service counts

`compare_service_specs` decides between two specifications of a service. Its base is the causal
tuple (service epoch, phase version, time stamp, status), then the manifest, then the derived order.
Four preferences override it: a terminal status within one generation, a stop against another
manifest, the restored generation of a rollback, and a stopped or failed service against a later
reactivation.

Each preference is about two specifications. `compareServiceSpecs_gt` puts the comparison into the
form of `Core/Preference`, which tells where it is an order: `serviceSpecs_ordered_iff`. It is not
one in general. A stop of manifest 1 beats manifest 2, which is later than a newer generation of
manifest 1, which in turn is later than the stop (`service_specs_cycle`), and which of the three
remains depends on the order in which they arrive.
-/

namespace Mantissa.Service

open Workload (selectBest stampKey compareStamps_eq)

/-! ## Specifications -/

inductive ServiceStatus
  | deploying
  | volumeUnavailable
  | running
  | stopping
  | stopped
  | failed
  deriving DecidableEq

/-- `ServiceStatus::precedence_rank`. -/
def ServiceStatus.precedenceRank : ServiceStatus → ℕ
  | .deploying | .failed | .volumeUnavailable => 0
  | .running => 1
  | .stopping => 2
  | .stopped => 3

inductive ServiceRolloutPhase
  | idle
  | rollingForward
  | rollingBack
  | failed
  deriving DecidableEq

structure ServiceRolloutState where
  phase : ServiceRolloutPhase
  totalSteps : ℕ
  completedSteps : ℕ
  failedSteps : ℕ
  maxFailures : ℕ
  lastError : Option String
  deriving DecidableEq

/-- `ServiceReplicaAssignmentSegment`. -/
structure ReplicaAssignmentSegment where
  templateName : String
  firstReplica : ℕ
  replicaCount : ℕ
  deriving DecidableEq

/-- `ServicePreviousGeneration`. Templates and policies are only tested for equality; `E` is
whatever they consist of. -/
structure ServicePreviousGeneration (E : Type) where
  manifestId : Uuid
  manifestName : String
  taskTemplates : List E
  replicaIds : List Uuid
  replicaAssignmentSegments : List ReplicaAssignmentSegment
  updateStrategy : E
  deploymentPolicy : E
  admissionPolicy : E
  serviceEpoch : ℕ
  status : ServiceStatus
  deriving DecidableEq

/-- `ServiceSpecValue`. -/
structure ServiceSpecValue (E : Type) where
  id : Uuid
  manifestId : Uuid
  manifestName : String
  serviceName : String
  taskTemplates : List E
  replicaIds : List Uuid
  replicaAssignmentSegments : List ReplicaAssignmentSegment
  updatedAt : String
  updateStrategy : E
  deploymentPolicy : E
  admissionPolicy : E
  serviceEpoch : ℕ
  phaseVersion : ℕ
  rollout : ServiceRolloutState
  status : ServiceStatus
  statusDetail : Option String
  previousGeneration : Option (ServicePreviousGeneration E)
  rescheduleLock : Option E
  deriving DecidableEq

namespace ServiceSpecValue

variable {E : Type} (spec : ServiceSpecValue E)

/-- `has_assigned_replicas`. -/
def hasAssignedReplicas : Bool :=
  !spec.replicaIds.isEmpty || !spec.replicaAssignmentSegments.isEmpty

end ServiceSpecValue

/-! ## Preferences -/

/-- `status_is_same_generation_terminal`. -/
def statusIsSameGenerationTerminal : ServiceStatus → Bool
  | .stopping | .stopped | .failed => true
  | _ => false

section Comparison

variable {E : Type}

/-- `compare_same_generation_terminal_preference`. -/
def compareSameGenerationTerminalPreference (left right : ServiceSpecValue E) : Option Ordering :=
  if left.serviceEpoch ≠ right.serviceEpoch then none
  else
    match statusIsSameGenerationTerminal left.status,
      statusIsSameGenerationTerminal right.status with
    | true, false => some .gt
    | false, true => some .lt
    | _, _ => none

/-- `compare_stopping_preference`. -/
def compareStoppingPreference (left right : ServiceSpecValue E) : Option Ordering :=
  if left.status = .stopping ∧ right.status = .stopping then none
  else if left.status = .stopping then some .gt
  else if right.status = .stopping then some .lt
  else none

/-- `carries_rollout_history`. -/
def carriesRolloutHistory (spec : ServiceSpecValue E) : Bool :=
  decide (0 < spec.rollout.totalSteps) || decide (0 < spec.rollout.completedSteps) ||
    decide (0 < spec.rollout.failedSteps) || decide (0 < spec.rollout.maxFailures) ||
    spec.rollout.lastError.isSome

section Rollback

variable [DecidableEq E]

/-- `previous_generation_matches`. -/
def previousGenerationMatches (candidate : ServiceSpecValue E) :
    Option (ServicePreviousGeneration E) → Bool
  | none => false
  | some previous =>
    decide (previous = ⟨candidate.manifestId, candidate.manifestName, candidate.taskTemplates,
      candidate.replicaIds, candidate.replicaAssignmentSegments, candidate.updateStrategy,
      candidate.deploymentPolicy, candidate.admissionPolicy, candidate.serviceEpoch,
      candidate.status⟩)

/-- `rollback_candidate_matches_previous_generation`. -/
def rollbackCandidateMatchesPreviousGeneration (candidate rollingBack : ServiceSpecValue E) :
    Bool :=
  decide (saturatingAdd candidate.serviceEpoch 1 = rollingBack.serviceEpoch) &&
    decide (rollingBack.status = .deploying) &&
    decide (rollingBack.rollout.phase = .rollingBack) &&
    (match candidate.status with
      | .running | .stopped | .failed | .volumeUnavailable => true
      | _ => false) &&
    carriesRolloutHistory candidate &&
    previousGenerationMatches candidate rollingBack.previousGeneration

end Rollback

/-- `blocks_cross_manifest_reactivation`. -/
def blocksCrossManifestReactivation (current candidate : ServiceSpecValue E) : Bool :=
  (decide (current.status = .stopped) || decide (current.status = .failed)) &&
    decide (current.serviceEpoch < candidate.serviceEpoch) &&
    (decide (candidate.status ≠ .deploying) || candidate.hasAssignedReplicas)

/-! ## The comparison -/

variable (parseTimestamp : String → Option ℕ)

/-- `compare_timestamps`. -/
def compareTimestamps (left right : String) : Ordering :=
  match parseTimestamp left, parseTimestamp right with
  | some leftTs, some rightTs => compare leftTs rightTs
  | none, some _ => .lt
  | some _, none => .gt
  | none, none => .eq

variable (left right : ServiceSpecValue E)

/-- `compare_causal_tuple`. -/
def compareCausalTuple : Ordering :=
  (((compare left.serviceEpoch right.serviceEpoch).then
    (compare left.phaseVersion right.phaseVersion)).then
    (compareTimestamps parseTimestamp left.updatedAt right.updatedAt)).then
    (compare left.status.precedenceRank right.status.precedenceRank)

variable [DecidableEq E] [LinearOrder (ServiceSpecValue E)]

/-- `compare_manifest_mismatch`. -/
def compareManifestMismatch : Ordering :=
  match compareStoppingPreference left right with
  | some ordering => ordering
  | none =>
    if rollbackCandidateMatchesPreviousGeneration left right then .gt
    else if rollbackCandidateMatchesPreviousGeneration right left then .lt
    else if blocksCrossManifestReactivation left right then .gt
    else if blocksCrossManifestReactivation right left then .lt
    else ((compareCausalTuple parseTimestamp left right).then
      (compare left.manifestId right.manifestId)).then (compare left right)

/-- `compare_service_specs`. -/
def compareServiceSpecs : Ordering :=
  if left.manifestId = right.manifestId then
    match compareSameGenerationTerminalPreference left right with
    | some ordering => ordering
    | none => (compareCausalTuple parseTimestamp left right).then (compare left right)
  else compareManifestMismatch parseTimestamp left right

/-- `should_accept_service_update`. -/
def shouldAcceptServiceUpdate (current : Option (ServiceSpecValue E))
    (incoming : ServiceSpecValue E) : Bool :=
  match current with
  | none => true
  | some current => compareServiceSpecs parseTimestamp incoming current = .gt

variable (values : List (ServiceSpecValue E))

/-- `select_best_service_spec`. -/
def selectBestServiceSpec : Option (ServiceSpecValue E) :=
  selectBest (fun current value => compareServiceSpecs parseTimestamp value current = .gt) values

/-- Specifications that arrive one after the other. -/
def acceptAll : Option (ServiceSpecValue E) :=
  values.foldl (fun current incoming =>
    if shouldAcceptServiceUpdate parseTimestamp current incoming then some incoming else current)
      none

/-- The causal tuple, the manifest and the specification itself. -/
def specKey (spec : ServiceSpecValue E) :
    (ℕ ×ₗ ℕ ×ₗ WithBot ℕ ×ₗ ℕ) ×ₗ Uuid ×ₗ ServiceSpecValue E :=
  toLex (toLex (spec.serviceEpoch, toLex (spec.phaseVersion,
      toLex (stampKey (parseTimestamp spec.updatedAt), spec.status.precedenceRank))),
    toLex (spec.manifestId, spec))

end Comparison

/-! ## The preferences on their own -/

section Preferences

variable {E : Type} [DecidableEq E] {left right : ServiceSpecValue E}

/-- What overrides the causal order between two specifications of different manifests. -/
def mismatchPreference (left right : ServiceSpecValue E) : Option Ordering :=
  match compareStoppingPreference left right with
  | some ordering => some ordering
  | none =>
    if rollbackCandidateMatchesPreviousGeneration left right then some .gt
    else if rollbackCandidateMatchesPreviousGeneration right left then some .lt
    else if blocksCrossManifestReactivation left right then some .gt
    else if blocksCrossManifestReactivation right left then some .lt
    else none

/-- What overrides the causal order between two specifications. -/
def preference (left right : ServiceSpecValue E) : Option Ordering :=
  if left.manifestId = right.manifestId then compareSameGenerationTerminalPreference left right
  else mismatchPreference left right

/-- The specifications of which one stands above the other, whatever the causal order says: within
one generation an end stands above the rest; across manifests a stop stands above all that is not
stopping, and so do a rollback's target and the end of an older generation. -/
def Prefers (left right : ServiceSpecValue E) : Prop :=
  if left.manifestId = right.manifestId then
    left.serviceEpoch = right.serviceEpoch ∧ statusIsSameGenerationTerminal left.status = true ∧
      statusIsSameGenerationTerminal right.status = false
  else right.status ≠ .stopping ∧ (left.status = .stopping ∨
    rollbackCandidateMatchesPreviousGeneration left right = true ∨
    blocksCrossManifestReactivation left right = true)

omit [DecidableEq E] in
lemma compareStoppingPreference_swap : compareStoppingPreference right left =
      (compareStoppingPreference left right).map Ordering.swap := by
  unfold compareStoppingPreference
  by_cases hleft : left.status = .stopping <;> by_cases hright : right.status = .stopping <;>
    simp [hleft, hright]

omit [DecidableEq E] in
lemma blocksCrossManifestReactivation_asymm
    (h : blocksCrossManifestReactivation left right = true) :
    blocksCrossManifestReactivation right left = false := by
  simp only [blocksCrossManifestReactivation, Bool.and_eq_true, decide_eq_true_eq] at h
  have hnot : ¬ right.serviceEpoch < left.serviceEpoch := h.1.2.asymm
  simp [blocksCrossManifestReactivation, hnot]

lemma rollbackCandidate_asymm (h : rollbackCandidateMatchesPreviousGeneration left right = true) :
    rollbackCandidateMatchesPreviousGeneration right left = false := by
  simp only [rollbackCandidateMatchesPreviousGeneration, Bool.and_eq_true, decide_eq_true_eq] at h
  have hdeploying : right.status = .deploying := h.1.1.1.1.2
  simp [rollbackCandidateMatchesPreviousGeneration, hdeploying]

lemma mismatchPreference_swap :
    mismatchPreference right left = (mismatchPreference left right).map Ordering.swap := by
  unfold mismatchPreference
  rw [@compareStoppingPreference_swap _ left right]
  cases compareStoppingPreference left right with
  | some ordering => rfl
  | none =>
    -- At most one of the two directions of each test holds.
    by_cases hroll : rollbackCandidateMatchesPreviousGeneration left right = true
    · simp [hroll, rollbackCandidate_asymm hroll]
    by_cases hroll' : rollbackCandidateMatchesPreviousGeneration right left = true
    · simp [hroll, hroll']
    by_cases hblocks : blocksCrossManifestReactivation left right = true
    · simp [hroll, hroll', hblocks, blocksCrossManifestReactivation_asymm hblocks]
    by_cases hblocks' : blocksCrossManifestReactivation right left = true
    · simp [hroll, hroll', hblocks, hblocks']
    · simp [hroll, hroll', hblocks, hblocks']

/-- The two directions of a preference agree. -/
lemma preference_swap : preference right left = (preference left right).map Ordering.swap := by
  unfold preference
  by_cases hmanifest : left.manifestId = right.manifestId
  · rw [if_pos hmanifest, if_pos hmanifest.symm]
    unfold compareSameGenerationTerminalPreference
    by_cases hepoch : left.serviceEpoch = right.serviceEpoch
    · rw [if_neg (not_not.mpr hepoch), if_neg (not_not.mpr hepoch.symm)]
      cases statusIsSameGenerationTerminal left.status <;>
        cases statusIsSameGenerationTerminal right.status <;> rfl
    · rw [if_pos hepoch, if_pos (Ne.symm hepoch)]
      rfl
  · rw [if_neg hmanifest, if_neg (Ne.symm hmanifest), mismatchPreference_swap]

/-- A target of a rollback and a specification that blocks another one have ended or run. -/
lemma stopping_matches_nothing (h : left.status = .stopping) :
    rollbackCandidateMatchesPreviousGeneration left right = false ∧
      blocksCrossManifestReactivation left right = false := by
  simp [rollbackCandidateMatchesPreviousGeneration, blocksCrossManifestReactivation, h]

lemma not_rollback_of_blocks (h : blocksCrossManifestReactivation left right = true) :
    rollbackCandidateMatchesPreviousGeneration right left = false := by
  unfold blocksCrossManifestReactivation at h
  unfold rollbackCandidateMatchesPreviousGeneration
  grind

lemma prefers_iff : Prefers left right ↔ preference left right = some .gt := by
  have hleft := @stopping_matches_nothing _ _ left right
  have hblocks := @not_rollback_of_blocks _ _ left right
  unfold Prefers preference mismatchPreference compareSameGenerationTerminalPreference
    compareStoppingPreference
  grind

lemma prefers_swap_iff : Prefers right left ↔ preference left right = some .lt := by
  rw [prefers_iff, preference_swap]
  rcases preference left right with _ | _ | _ | _ <;> simp

lemma prefers_asymm (left right : ServiceSpecValue E) (h : Prefers left right) :
    ¬ Prefers right left := by
  rw [prefers_swap_iff, prefers_iff.mp h]
  nofun

/-- A preference never calls two specifications equal. -/
lemma preference_ne_eq : preference left right ≠ some .eq := by
  unfold preference compareSameGenerationTerminalPreference mismatchPreference
    compareStoppingPreference
  split_ifs
  · nofun
  · cases statusIsSameGenerationTerminal left.status <;>
      cases statusIsSameGenerationTerminal right.status <;> nofun
  all_goals nofun

end Preferences

/-! ## An order with exceptions -/

section Order

variable {E : Type} [LinearOrder (ServiceSpecValue E)] {parseTimestamp : String → Option ℕ}
variable {left right : ServiceSpecValue E}

lemma compareTimestamps_eq (left right : String) : compareTimestamps parseTimestamp left right =
      compare (stampKey (parseTimestamp left)) (stampKey (parseTimestamp right)) := by
  rw [← compareStamps_eq]
  unfold compareTimestamps
  cases parseTimestamp left <;> cases parseTimestamp right <;> rfl

omit [LinearOrder (ServiceSpecValue E)] in
lemma specKey_injective : Function.Injective (specKey parseTimestamp : ServiceSpecValue E → _) := by
  intro left right h
  have hspec := congrArg (fun key => (ofLex (ofLex key).2).2) h
  exact hspec

variable [DecidableEq E]

/-- The comparison goes by the key unless there is a preference. -/
lemma compareServiceSpecs_eq : compareServiceSpecs parseTimestamp left right =
    (preference left right).getD
      (compare (specKey parseTimestamp left) (specKey parseTimestamp right)) := by
  simp only [specKey, compare_toLex, ← compareTimestamps_eq, ← Ordering.then_assoc]
  unfold compareServiceSpecs preference compareCausalTuple
  by_cases hmanifest : left.manifestId = right.manifestId
  · rw [if_pos hmanifest, if_pos hmanifest]
    cases compareSameGenerationTerminalPreference left right with
    | some ordering => rfl
    | none => simp [hmanifest]
  · rw [if_neg hmanifest, if_neg hmanifest]
    unfold compareManifestMismatch mismatchPreference
    cases compareStoppingPreference left right with
    | some ordering => rfl
    | none =>
      split_ifs <;> rfl

/-- **Which of two specifications is the greater one.** -/
theorem compareServiceSpecs_gt : compareServiceSpecs parseTimestamp left right = .gt ↔
    Beats (specKey parseTimestamp) Prefers left right := by
  rw [compareServiceSpecs_eq, Beats, @prefers_swap_iff _ _ left right, prefers_iff,
    ← compare_gt_iff_gt]
  rcases hcase : preference left right with _ | _ | _ | _
  · simp
  · simp
  · exact absurd hcase preference_ne_eq
  · simp

lemma compareServiceSpecs_swap : compareServiceSpecs parseTimestamp right left =
    (compareServiceSpecs parseTimestamp left right).swap := by
  rw [compareServiceSpecs_eq, compareServiceSpecs_eq, preference_swap]
  cases preference left right with
  | some ordering => rfl
  | none => exact Std.OrientedOrd.eq_swap

lemma compareServiceSpecs_eq_iff : compareServiceSpecs parseTimestamp left right = .eq ↔
    left = right := by
  rw [compareServiceSpecs_eq]
  constructor
  · intro h
    cases hpreference : preference left right with
    | some ordering =>
      rw [hpreference] at h
      exact absurd (hpreference.trans (congrArg some h)) preference_ne_eq
    | none =>
      rw [hpreference] at h
      exact specKey_injective (compare_eq_iff_eq.mp h)
  · rintro rfl
    have hnone : preference left left = none := by
      have hswap := @preference_swap _ _ left left
      have hne := @preference_ne_eq _ _ left left
      rcases hcase : preference left left with _ | _ | _ | _ <;> simp_all
    simp [hnone]

/-! ## Whole sets of specifications -/

/-- The comparison orders the specifications, and whoever selects or accepts by it ends with the
greatest of those seen. -/
structure SpecsOrdered (parseTimestamp : String → Option ℕ) (specs : List (ServiceSpecValue E)) :
    Prop where
  antisymm : ∀ left ∈ specs, ∀ right ∈ specs,
    compareServiceSpecs parseTimestamp right left =
        (compareServiceSpecs parseTimestamp left right).swap ∧
      (compareServiceSpecs parseTimestamp left right = .eq ↔ left = right)
  trans : ∀ left ∈ specs, ∀ middle ∈ specs, ∀ right ∈ specs,
    compareServiceSpecs parseTimestamp left middle = .gt →
    compareServiceSpecs parseTimestamp middle right = .gt →
    compareServiceSpecs parseTimestamp left right = .gt
  acyclic : ∀ spec, ¬ Relation.TransGen (fun left right => left ∈ specs ∧ right ∈ specs ∧
    compareServiceSpecs parseTimestamp left right = .gt) spec spec
  selected : ∀ values ⊆ specs, ∀ best, selectBestServiceSpec parseTimestamp values = some best →
    best ∈ values ∧ ∀ value ∈ values, compareServiceSpecs parseTimestamp value best ≠ .gt
  accepted : ∀ values ⊆ specs, ∀ values', (∀ spec, spec ∈ values ↔ spec ∈ values') →
    acceptAll parseTimestamp values = acceptAll parseTimestamp values'

lemma acceptAll_eq_selectBest (values : List (ServiceSpecValue E)) :
    acceptAll parseTimestamp values = selectBestServiceSpec parseTimestamp values := by
  unfold acceptAll selectBestServiceSpec selectBest
  congr 1
  funext current incoming
  cases current with
  | none => rfl
  | some current => rfl

section Transitive

variable {specs : List (ServiceSpecValue E)}
  (htrans : ∀ left ∈ specs, ∀ middle ∈ specs, ∀ right ∈ specs,
    compareServiceSpecs parseTimestamp left middle = .gt →
    compareServiceSpecs parseTimestamp middle right = .gt →
    compareServiceSpecs parseTimestamp left right = .gt)
include htrans

lemma greater_acyclic (spec : ServiceSpecValue E) :
    ¬ Relation.TransGen (fun left right => left ∈ specs ∧ right ∈ specs ∧
      compareServiceSpecs parseTimestamp left right = .gt) spec spec := by
  intro hcycle
  have hstep : ∀ {left right}, Relation.TransGen (fun left right => left ∈ specs ∧ right ∈ specs ∧
      compareServiceSpecs parseTimestamp left right = .gt) left right →
      left ∈ specs ∧ right ∈ specs ∧ compareServiceSpecs parseTimestamp left right = .gt := by
    intro left right hpath
    induction hpath with
    | single hone => exact hone
    | tail _ hlast ih =>
      exact ⟨ih.1, hlast.2.1, htrans _ ih.1 _ hlast.1 _ hlast.2.1 ih.2.2 hlast.2.2⟩
  have hgreater := (hstep hcycle).2.2
  rw [compareServiceSpecs_eq_iff.mpr rfl] at hgreater
  cases hgreater

lemma selectBestServiceSpec_unbeaten {values : List (ServiceSpecValue E)} (hvalues : values ⊆ specs)
    {best : ServiceSpecValue E} (h : selectBestServiceSpec parseTimestamp values = some best) :
    best ∈ values ∧ ∀ value ∈ values, compareServiceSpecs parseTimestamp value best ≠ .gt := by
  have hbest := Workload.selectBest_unbeaten (s := {spec | spec ∈ specs}) ?_ ?_ hvalues h
  · simpa using hbest
  · intro a ha b hb c hc hab hbc
    simp only [decide_eq_true_eq] at hab hbc ⊢
    exact htrans c hc b hb a ha hbc hab
  · intro a _
    simp [compareServiceSpecs_eq_iff.mpr]

/-- The selected specification depends on which specifications there are only. -/
lemma selectBestServiceSpec_congr {values values' : List (ServiceSpecValue E)}
    (hvalues : values ⊆ specs) (hsame : ∀ spec, spec ∈ values ↔ spec ∈ values') :
    selectBestServiceSpec parseTimestamp values = selectBestServiceSpec parseTimestamp values' := by
  have hvalues' : values' ⊆ specs := fun spec hspec => hvalues ((hsame spec).mpr hspec)
  cases hbest : selectBestServiceSpec parseTimestamp values with
  | none =>
    have hnil : values = [] := Workload.selectBest_eq_none.mp hbest
    have hnil' : values' = [] := by
      refine List.eq_nil_iff_forall_not_mem.mpr ?_
      intro spec hspec
      rw [← hsame, hnil] at hspec
      cases hspec
    rw [hnil']
    rfl
  | some best =>
    cases hbest' : selectBestServiceSpec parseTimestamp values' with
    | none =>
      have hnil' : values' = [] := Workload.selectBest_eq_none.mp hbest'
      have hmem := (hsame best).mp (selectBestServiceSpec_unbeaten htrans hvalues hbest).1
      rw [hnil'] at hmem
      cases hmem
    | some best' =>
      obtain ⟨hmem, htop⟩ := selectBestServiceSpec_unbeaten htrans hvalues hbest
      obtain ⟨hmem', htop'⟩ := selectBestServiceSpec_unbeaten htrans hvalues' hbest'
      have hnot := htop best' ((hsame best').mpr hmem')
      have hnot' := htop' best ((hsame best).mp hmem)
      -- Neither beats the other.
      rw [compareServiceSpecs_swap] at hnot
      refine congrArg some ((@compareServiceSpecs_eq_iff _ _ parseTimestamp _ _ _).mp ?_)
      cases hcompare : compareServiceSpecs parseTimestamp best best' with
      | eq => rfl
      | gt => exact absurd hcompare hnot'
      | lt =>
        rw [hcompare] at hnot
        exact absurd rfl hnot

end Transitive

/-- **Where the comparison of services is an order.** It is one on a set of specifications exactly
if, along its causal order, the preferences for older specifications chain and none of them skips a
specification in between. -/
theorem serviceSpecs_ordered_iff (parseTimestamp : String → Option ℕ)
    (specs : List (ServiceSpecValue E)) :
    SpecsOrdered parseTimestamp specs ↔
      PreferencesChain (specKey parseTimestamp) Prefers {spec | spec ∈ specs} := by
  rw [← beats_trans_iff prefers_asymm specKey_injective]
  constructor
  · intro h left hleft middle hmiddle right hright hlm hmr
    rw [← compareServiceSpecs_gt] at hlm hmr ⊢
    exact h.trans left hleft middle hmiddle right hright hlm hmr
  · intro h
    have htrans : ∀ left ∈ specs, ∀ middle ∈ specs, ∀ right ∈ specs,
        compareServiceSpecs parseTimestamp left middle = .gt →
        compareServiceSpecs parseTimestamp middle right = .gt →
        compareServiceSpecs parseTimestamp left right = .gt := by
      intro left hleft middle hmiddle right hright hlm hmr
      rw [compareServiceSpecs_gt] at hlm hmr ⊢
      exact h left hleft middle hmiddle right hright hlm hmr
    refine ⟨?_, htrans, greater_acyclic htrans, ?_, ?_⟩
    · intro left _ right _
      exact ⟨compareServiceSpecs_swap, compareServiceSpecs_eq_iff⟩
    · intro values hvalues best hbest
      exact selectBestServiceSpec_unbeaten htrans hvalues hbest
    · intro values hvalues values' hsame
      rw [acceptAll_eq_selectBest, acceptAll_eq_selectBest]
      exact selectBestServiceSpec_congr htrans hvalues hsame

/-! ## Three specifications in a circle -/

/-- A specification of service 7 with the given manifest, epoch and status. -/
def sampleSpec (manifestId serviceEpoch : ℕ) (status : ServiceStatus) : ServiceSpecValue Unit where
  id := 7
  manifestId := manifestId
  manifestName := "web"
  serviceName := "web"
  taskTemplates := []
  replicaIds := []
  replicaAssignmentSegments := []
  updatedAt := ""
  updateStrategy := ()
  deploymentPolicy := ()
  admissionPolicy := ()
  serviceEpoch := serviceEpoch
  phaseVersion := 0
  rollout := ⟨.idle, 0, 0, 0, 0, none⟩
  status := status
  statusDetail := none
  previousGeneration := none
  rescheduleLock := none

/-- No text is a time stamp. -/
def noTimestamp (_ : String) : Option ℕ := none

/-- A stop of manifest 1, a later generation of it, and a still later one of manifest 2. -/
theorem service_specs_cycle :
    letI := someOrder (ServiceSpecValue Unit)
    compareServiceSpecs noTimestamp (sampleSpec 1 2 .running) (sampleSpec 1 1 .stopping) = .gt ∧
    compareServiceSpecs noTimestamp (sampleSpec 2 3 .running) (sampleSpec 1 2 .running) = .gt ∧
    compareServiceSpecs noTimestamp (sampleSpec 1 1 .stopping) (sampleSpec 2 3 .running) = .gt ∧
    acceptAll noTimestamp [sampleSpec 1 1 .stopping, sampleSpec 1 2 .running,
      sampleSpec 2 3 .running] = some (sampleSpec 2 3 .running) ∧
    acceptAll noTimestamp [sampleSpec 2 3 .running, sampleSpec 1 2 .running,
      sampleSpec 1 1 .stopping] = some (sampleSpec 1 1 .stopping) ∧
    ¬ SpecsOrdered noTimestamp [sampleSpec 1 1 .stopping, sampleSpec 1 2 .running,
      sampleSpec 2 3 .running] := by
  let _ := someOrder (ServiceSpecValue Unit)
  have hnewer : compareServiceSpecs noTimestamp (sampleSpec 1 2 .running)
      (sampleSpec 1 1 .stopping) = .gt := rfl
  have hlater : compareServiceSpecs noTimestamp (sampleSpec 2 3 .running)
      (sampleSpec 1 2 .running) = .gt := rfl
  have hstop : compareServiceSpecs noTimestamp (sampleSpec 1 1 .stopping)
      (sampleSpec 2 3 .running) = .gt := rfl
  refine ⟨hnewer, hlater, hstop, rfl, rfl, ?_⟩
  intro hordered
  have hshort := hordered.trans _ (by simp) _ (by simp) _ (by simp) hlater hnewer
  rw [compareServiceSpecs_swap, hstop] at hshort
  cases hshort

end Order

end Mantissa.Service
