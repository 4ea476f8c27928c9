import Mantissa.Core.Run
import Mantissa.Volume.Transition

/-!
# Control states are always valid

`Valid` is what `validate` checks, read as a statement: the only uninitialized state is the default
one, and an initialized one has two or three copies, a writer among them, and grants that fit. Each
transition keeps it, so every state of a run passes `validate` and no evaluation reads data that is
not there (`reachable_validates`).

Retries need no request ids for two reasons. Right after a transition the command finds its own
postcondition (`evaluate_of_transition`); and every transition raises the revision past the one the
command names, so the command is not applied again (`not_transition_later`).
-/

namespace Mantissa.VolumeControlState

open Nat Option

/-! ## The checks, read as statements -/

lemma isCopyCount_iff {n : ℕ} : isCopyCount n = true ↔ 2 ≤ n ∧ n ≤ 3 := decide_eq_true_iff

lemma passes_iff {E : Type*} {result : Except E Unit} : passes result = true ↔ result = .ok () := by
  cases result <;> simp [passes]

variable {data : DataControlState} {recovery : RecoveryGrant}

lemma checkRecoverySource_eq_ok : checkRecoverySource data recovery = .ok () ↔
      recovery.coordinatorNodeId = recovery.sourceNodeId ∧ recovery.sourceNodeId ∈ data.copies ∧
        recovery.sourceNodeId ∈ recovery.targetNodeIds := by
  rw [checkRecoverySource]
  split_ifs <;> simp_all

variable {replacement : Option ReplacementGrant}

lemma checkStoredRecovery_eq_ok : checkStoredRecovery data replacement recovery = .ok () ↔
      data.writer = none ∧ replacement = none ∧ recovery.coordinatorNodeId = recovery.sourceNodeId ∧
        recovery.sourceNodeId ∈ data.copies ∧ recovery.targetNodeIds = data.copies := by
  rw [checkStoredRecovery]
  cases data.writer with
  | some writer => simp
  | none =>
    cases replacement with
    | some replacement => simp
    | none =>
      cases hsource : checkRecoverySource data recovery with
      | error e =>
        simp only [isSome_none, Bool.false_eq_true, if_false, reduceCtorEq, false_iff]
        rintro ⟨-, -, hcoordinator, hmember, htargets⟩
        rw [checkRecoverySource_eq_ok.mpr ⟨hcoordinator, hmember, htargets ▸ hmember⟩] at hsource
        cases hsource
      | ok _ =>
        have hchecked := checkRecoverySource_eq_ok.mp hsource
        simp only [isSome_none, Bool.false_eq_true, if_false]
        split_ifs with htargets
        · simp [htargets]
        · simp [hchecked, not_not.mp htargets]

lemma checkRequestedRecovery_eq_ok : checkRequestedRecovery data recovery = .ok () ↔
      (2 ≤ recovery.targetNodeIds.card ∧ recovery.targetNodeIds.card ≤ 3) ∧
        recovery.coordinatorNodeId = recovery.sourceNodeId ∧
        recovery.sourceNodeId ∈ recovery.targetNodeIds ∧ recovery.targetNodeIds ⊆ data.copies := by
  simp only [checkRequestedRecovery, isCopyCount_iff]
  by_cases hcount : 2 ≤ recovery.targetNodeIds.card ∧ recovery.targetNodeIds.card ≤ 3
  · simp only [hcount, not_true_eq_false, if_false, and_self, true_and]
    cases hsource : checkRecoverySource data recovery with
    | error e =>
      simp only [reduceCtorEq, false_iff]
      rintro ⟨hcoordinator, hmember, hsubset⟩
      rw [checkRecoverySource_eq_ok.mpr ⟨hcoordinator, hsubset hmember, hmember⟩] at hsource
      cases hsource
    | ok _ =>
      have hchecked := checkRecoverySource_eq_ok.mp hsource
      by_cases hsubset : recovery.targetNodeIds ⊆ data.copies
      · simp [hsubset, hchecked]
      · simp [hsubset]
  · simp only [hcount, not_false_eq_true, if_true, reduceCtorEq, false_and]

lemma checkReplacementGrant_eq_ok {replacement : ReplacementGrant} :
    checkReplacementGrant data replacement = .ok () ↔
      replacement.coordinatorNodeId = replacement.sourceNodeId ∧
        replacement.sourceNodeId ∈ data.copies ∧
        (∀ writer, data.writer = some writer → writer.nodeId = replacement.sourceNodeId) ∧
        replacement.newNodeId ∉ data.copies ∧ replacement.newNodeId ≠ replacement.sourceNodeId ∧
        replacement.oldNodeId ≠ some replacement.newNodeId ∧
        replacement.oldNodeId ≠ some replacement.sourceNodeId ∧
        (copiesAfterReplacement data.copies replacement).card = 3 := by
  have hwriter : (data.writer.any fun writer =>
      decide (writer.nodeId ≠ replacement.sourceNodeId)) = true ↔
        ¬ ∀ writer, data.writer = some writer → writer.nodeId = replacement.sourceNodeId := by
    cases data.writer <;> simp
  simp only [checkReplacementGrant, hwriter]
  split_ifs <;> simp_all

/-! ## Valid states -/

/-- What the grants of an initialized state satisfy. -/
structure ValidGrants (disposition : VolumeDisposition) (data : DataControlState)
    (replacement : Option ReplacementGrant) : Prop where
  copies : 2 ≤ data.copies.card ∧ data.copies.card ≤ 3
  writer : ∀ writer, data.writer = some writer → writer.nodeId ∈ data.copies
  recovery : ∀ recovery, data.recovery = some recovery →
    checkStoredRecovery data replacement recovery = .ok ()
  replacing : ∀ grant, replacement = some grant → checkReplacementGrant data grant = .ok ()
  inactive : disposition ≠ .live →
    data.writer = none ∧ data.recovery = none ∧ replacement = none

/-- A state that may be published. -/
inductive Valid : VolumeControlState → Prop
  | uninitialized : Valid default
  | initialized {descriptor : VolumeDescriptor} {revision : ℕ} {disposition : VolumeDisposition}
      {data : DataControlState} {replacement : Option ReplacementGrant} (hrevision : 0 < revision)
      (hgrants : ValidGrants disposition data replacement) :
      Valid ⟨some descriptor, revision, disposition, some data, replacement⟩

lemma any_writer_outside {copies : Finset VolumeNodeId} :
    (data.writer.any fun writer => decide (writer.nodeId ∉ copies)) = true ↔
      ¬ ∀ writer, data.writer = some writer → writer.nodeId ∈ copies := by
  cases data.writer <;> simp

lemma any_not_passes {X E : Type*} {grant : Option X} {check : X → Except E Unit} :
    (grant.any fun x => !passes (check x)) = true ↔ ¬ ∀ x, grant = some x → check x = .ok () := by
  cases grant with
  | none => simp
  | some x => simp [← passes_iff]

variable {s : VolumeControlState}

/-- **`validate` accepts exactly the valid states.** -/
theorem validate_eq_ok_iff : s.validate = .ok () ↔ Valid s := by
  obtain ⟨descriptor, revision, disposition, data, replacement⟩ := s
  constructor
  · intro h
    cases descriptor with
    | none =>
      cases data with
      | some data => cases h
      | none =>
        simp only [validate] at h
        split_ifs at h with hpristine
        simp only [not_or, ne_eq, not_not, not_isSome_iff_eq_none] at hpristine
        obtain ⟨rfl, rfl, rfl⟩ := hpristine
        exact .uninitialized
    | some descriptor =>
      cases data with
      | none => cases h
      | some data =>
        simp only [validate, any_writer_outside, any_not_passes, isCopyCount_iff] at h
        split_ifs at h with hrevision hcopies hwriter hrecovery hreplacing hinactive
        refine .initialized (pos_of_ne_zero hrevision)
          ⟨hcopies, hwriter, hrecovery, hreplacing, fun hne => ?_⟩
        simpa [hne, not_or, not_isSome_iff_eq_none] using hinactive
  · intro h
    cases h with
    | uninitialized => rfl
    | initialized hrevision hgrants =>
      simp only [validate, any_writer_outside, any_not_passes, isCopyCount_iff]
      rw [if_neg hrevision.ne', if_neg (not_not.mpr hgrants.copies),
        if_neg (not_not.mpr hgrants.writer), if_neg (not_not.mpr hgrants.recovery),
        if_neg (not_not.mpr hgrants.replacing), if_neg]
      rintro ⟨hne, hgrant⟩
      obtain ⟨hwriter, hrecovery, hreplacement⟩ := hgrants.inactive hne
      simp [hwriter, hrecovery, hreplacement] at hgrant

lemma Valid.grants {descriptor : VolumeDescriptor} {revision : ℕ} {disposition : VolumeDisposition}
    (h : Valid ⟨some descriptor, revision, disposition, some data, replacement⟩) :
    ValidGrants disposition data replacement := by
  cases h with
  | initialized _ hgrants => exact hgrants

lemma finishedCopies_iff {current next : Finset VolumeNodeId} {replacement : ReplacementGrant} :
    finishedCopiesMatchReplacement current replacement next = true ↔
      next.card = 3 ∧ replacement.newNodeId ∈ next ∧
        copiesAfterReplacement current replacement = next := by
  rw [finishedCopiesMatchReplacement]
  split_ifs with hrefused
  · simp only [false_iff]
    rintro ⟨hcard, hnew, -⟩
    exact hrefused.elim (fun hne => hne hcard) fun hnot => hnot hnew
  · simp only [not_or, ne_eq, not_not] at hrefused
    simp [hrefused]

variable {command : VolumeCommand} {s' : VolumeControlState}

/-- **Every transition leads from a valid state to a valid state.** -/
theorem Valid.transition (h : Valid s) (htransition : Transition s command s') : Valid s' := by
  cases htransition with
  | initializeVolume hnone hcard =>
    refine .initialized one_pos ⟨?_, by simp, by simp, by simp, absurd rfl⟩
    rw [hcard]
    exact ⟨by omega, le_rfl⟩
  | expand hrecovery hcapacity hbuilt => exact .initialized (succ_pos _) h.grants
  | restore =>
    cases h with
    | initialized hrevision hgrants =>
      exact .initialized (succ_pos _) { hgrants with inactive := absurd rfl }
  | retain hfence =>
    exact .initialized (succ_pos _)
      ⟨h.grants.copies, by simp, by simp, by simp, fun _ => ⟨rfl, rfl, rfl⟩⟩
  | grantWriter hmember hrecovery hfence =>
    refine .initialized (succ_pos _) ⟨h.grants.copies, ?_, by simp, by simp, absurd rfl⟩
    rintro _ ⟨⟩
    exact hmember
  | fenceWriter hwriter hfence =>
    refine .initialized (succ_pos _) ⟨h.grants.copies, by simp, ?_, ?_, ?_⟩
    · -- a writer and a recovery exclude each other
      intro recovery hrecovery
      have hstored := checkStoredRecovery_eq_ok.mp (h.grants.recovery recovery hrecovery)
      rw [hwriter] at hstored
      cases hstored.1
    · intro grant hgrant
      have hchecked := checkReplacementGrant_eq_ok.mp (h.grants.replacing grant hgrant)
      refine checkReplacementGrant_eq_ok.mpr ?_
      exact ⟨hchecked.1, hchecked.2.1, by simp, hchecked.2.2.2⟩
    · intro hne
      exact ⟨rfl, (h.grants.inactive hne).2⟩
  | beginRecovery hrequested hfence =>
    obtain ⟨hcount, hcoordinator, hmember, -⟩ := checkRequestedRecovery_eq_ok.mp hrequested
    refine .initialized (succ_pos _) ⟨hcount, by simp, ?_, by simp, absurd rfl⟩
    rintro _ ⟨⟩
    exact checkStoredRecovery_eq_ok.mpr ⟨rfl, rfl, hcoordinator, hmember, rfl⟩
  | revokeRecovery hrecovery =>
    exact .initialized (succ_pos _) ⟨h.grants.copies, h.grants.writer, by simp,
      h.grants.replacing, absurd rfl⟩
  | beginReplacement hrecovery hgrant =>
    refine .initialized (succ_pos _) ⟨h.grants.copies, h.grants.writer, ?_, ?_,
      fun hne => absurd rfl hne⟩
    · simp [hrecovery]
    · rintro _ ⟨⟩
      exact hgrant
  | cancelReplacement =>
    cases h with
    | initialized hrevision hgrants =>
      refine .initialized (succ_pos _) ⟨hgrants.copies, hgrants.writer, ?_, by simp, ?_⟩
      · intro recovery hrecovery
        have hstored := checkStoredRecovery_eq_ok.mp (hgrants.recovery recovery hrecovery)
        cases hstored.2.1
      · intro hne
        exact ⟨(hgrants.inactive hne).1, (hgrants.inactive hne).2.1, rfl⟩
  | adoptReplacement hfinished hwriter hfence =>
    obtain ⟨hcard, -, -⟩ := finishedCopies_iff.mp hfinished
    refine .initialized (succ_pos _) ⟨?_, hwriter, ?_, by simp, absurd rfl⟩
    · rw [hcard]
      exact ⟨by omega, le_rfl⟩
    · -- a replacement and a recovery exclude each other
      intro recovery hrecovery
      have hstored := checkStoredRecovery_eq_ok.mp (h.grants.recovery recovery hrecovery)
      cases hstored.2.1

/-! ## No evaluation reads data that is not there -/

/-- Every command asks for its postcondition, then for its revision. -/
lemma isSome_of_guarded {current : Prop} [Decidable current]
    {expected : ExpectedVolumeRevision} {transition : Option CommandPlan}
    (h : s.descriptor.isSome = true → transition.isSome = true) :
    (if current then some s.current else s.whenExpected expected transition).isSome = true := by
  split_ifs
  · rfl
  rw [whenExpected]
  cases hcheck : s.checkExpected expected with
  | some plan => rfl
  | none =>
    obtain ⟨descriptor, hd, -⟩ := checkExpected_eq_none.mp hcheck
    exact h (by rw [hd]; rfl)

/-- An evaluation completes where a descriptor comes with data: past the revision check there is a
descriptor, and every branch from there on answers. -/
theorem evaluate_isSome
    (h : s.descriptor.isSome = true → s.data.isSome = true) (command : VolumeCommand) :
    (s.evaluate command).isSome = true := by
  obtain ⟨descriptor, revision, disposition, data, replacement⟩ := s
  have hdata : descriptor.isSome = true → ∃ value, data = some value :=
    fun hd => isSome_iff_exists.mp (h hd)
  cases command
  case initializeVolume => rfl
  all_goals
    refine isSome_of_guarded fun hd => ?_
    obtain ⟨data, rfl⟩ := hdata hd
    try simp only [dataRef, bind_some]
    repeat' split
    all_goals rfl

/-! ## Runs -/

/-- One committed command. -/
def step (s : VolumeControlState) (command : VolumeCommand) : Option VolumeControlState :=
  (s.evaluate command).map CommandPlan.state

/-- A step keeps the state or moves it by the command's transition. -/
lemma step_cases (h : s.step command = some s') : s' = s ∨ Transition s command s' := by
  obtain ⟨plan, hplan, rfl⟩ := map_eq_some_iff.mp h
  rcases evaluate_spec hplan with ⟨hstate, -⟩ | ⟨s', htransition, rfl⟩
  · exact .inl hstate
  · exact .inr htransition

lemma valid_of_reaches {t : VolumeControlState} (hs : Valid s) (h : Reaches step anyStep s t) :
    Valid t := by
  refine h.invariant hs fun hx _ hstep => ?_
  rcases step_cases hstep with rfl | htransition
  · exact hx
  · exact hx.transition htransition

lemma Valid.data_isSome (h : Valid s) (hd : s.descriptor.isSome = true) : s.data.isSome = true := by
  cases h with
  | uninitialized => cases hd
  | initialized _ _ => rfl

/-- **Every control state of a run is valid**, and no evaluation in it reads data that is not
there. -/
theorem reachable_validates {s : VolumeControlState} (h : Reaches step anyStep default s) :
    s.validate = .ok () ∧ ∀ command, (s.evaluate command).isSome = true := by
  have hvalid := valid_of_reaches .uninitialized h
  exact ⟨validate_eq_ok_iff.mpr hvalid, evaluate_isSome hvalid.data_isSome⟩

/-! ## Retries -/

variable (h : Transition s command s')

include h

/-- Right after a command has been applied it finds its postcondition. -/
lemma evaluate_of_transition : s'.evaluate command = some s'.current := by
  cases h with
  | initializeVolume hnone hcard =>
    simp [evaluate, initializeVolume, initializationIsCurrent]
  | expand hrecovery hcapacity hbuilt =>
    obtain ⟨-, hgeneration, hnew, -⟩ := VolumeDescriptor.new_eq_ok hbuilt
    simp [evaluate, expand, expectedGenerationIsCurrent, hgeneration, hnew]
  | restore | retain => simp [evaluate, setDisposition, expectedGenerationIsCurrent]
  | grantWriter hmember hrecovery hfence =>
    simp [evaluate, grantWriter, expectedGenerationIsCurrent]
  | fenceWriter hwriter hfence => simp [evaluate, fenceWriter, expectedGenerationIsCurrent]
  | beginRecovery hrequested hfence =>
    simp [evaluate, beginRecovery, expectedGenerationIsCurrent]
  | revokeRecovery hrecovery => simp [evaluate, revokeRecovery, expectedGenerationIsCurrent]
  | beginReplacement hrecovery hgrant =>
    simp [evaluate, beginReplacement, expectedGenerationIsCurrent]
  | cancelReplacement => simp [evaluate, cancelReplacement, expectedGenerationIsCurrent]
  | adoptReplacement hfinished hwriter hfence =>
    simp [evaluate, adoptReplacement, expectedGenerationIsCurrent]

/-- The revision a command names; initialization names none. -/
def expectedRevision : VolumeCommand → Option ℕ
  | .initializeVolume _ _ => none
  | .expand expected _ => some expected.revision
  | .setDisposition expected _ => some expected.revision
  | .grantWriter expected _ => some expected.revision
  | .fenceWriter expected _ => some expected.revision
  | .beginRecovery expected _ _ _ => some expected.revision
  | .revokeRecovery expected _ => some expected.revision
  | .beginReplacement expected _ => some expected.revision
  | .cancelReplacement expected _ => some expected.revision
  | .adoptReplacement expected _ _ _ => some expected.revision

/-- A transition happens at the revision its command names, or initializes. -/
lemma Transition.expectedRevision_eq : expectedRevision command = some s.revision ∨
      expectedRevision command = none ∧ s.descriptor = none := by
  cases h with
  | initializeVolume hnone hcard => exact .inr ⟨rfl, hnone⟩
  | _ => exact .inl rfl

lemma Transition.descriptor_isSome : s'.descriptor.isSome = true := by
  cases h <;> rfl

/-- **Every transition raises the revision by one.** -/
theorem Transition.revision_eq (hs : Valid s) : s'.revision = s.revision + 1 := by
  cases h with
  | initializeVolume hnone hcard =>
    cases hs with
    | uninitialized => rfl
    | initialized _ _ => cases hnone
  | _ => rfl

omit h

/-- Revisions never fall, and a descriptor stays. -/
lemma later_of_reaches {t : VolumeControlState} (hs : Valid s) (h : Reaches step anyStep s t) :
    s.revision ≤ t.revision ∧ (s.descriptor.isSome = true → t.descriptor.isSome = true) := by
  refine (h.invariant (P := fun t => Valid t ∧ s.revision ≤ t.revision ∧
    (s.descriptor.isSome = true → t.descriptor.isSome = true)) ⟨hs, le_rfl, id⟩ ?_).2
  intro x y command hx _ hstep
  rcases step_cases hstep with rfl | htransition
  · exact hx
  · refine ⟨hx.1.transition htransition, ?_, fun _ => htransition.descriptor_isSome⟩
    rw [htransition.revision_eq hx.1]
    exact le_succ_of_le hx.2.1

/-- A command that was applied is not applied again. -/
lemma not_transition_later {t u : VolumeControlState}
    (hs : Valid s) (h : Transition s command s') (hlater : Reaches step anyStep s' t)
    (hagain : Transition t command u) : False := by
  obtain ⟨hrevision, hdescriptor⟩ := later_of_reaches (hs.transition h) hlater
  rw [h.revision_eq hs] at hrevision
  rcases hagain.expectedRevision_eq with heq | ⟨-, hnone⟩
  · rcases h.expectedRevision_eq with heq' | ⟨heq', -⟩
    · rw [heq] at heq'
      have := Option.some.inj heq'
      omega
    · rw [heq] at heq'
      cases heq'
  · have hsome := hdescriptor h.descriptor_isSome
    rw [hnone] at hsome
    cases hsome

/-- **Commands take effect at most once.** A command that was applied is current right after, and
changes no later state; an answer other than `applied` comes with the state it was asked in. -/
theorem commands_apply_at_most_once :
    (∀ s, Reaches step anyStep default s → ∀ (command : VolumeCommand) (plan : CommandPlan) revision
      fence, s.evaluate command = some plan → plan.response = .applied revision fence →
      plan.state.evaluate command = some plan.state.current ∧
        ∀ t, Reaches step anyStep plan.state t →
          ∃ later, t.evaluate command = some later ∧ later.state = t) ∧
      ∀ (s : VolumeControlState) (command : VolumeCommand) (plan : CommandPlan),
        s.evaluate command = some plan →
        (∀ revision fence, plan.response ≠ .applied revision fence) → plan.state = s := by
  constructor
  · intro s hreach command plan revision fence hplan hresponse
    have hs := valid_of_reaches .uninitialized hreach
    rcases evaluate_spec hplan with ⟨-, hnot⟩ | ⟨s', htransition, rfl⟩
    · exact absurd hresponse (hnot revision fence)
    · refine ⟨evaluate_of_transition htransition, fun t hlater => ?_⟩
      have ht := valid_of_reaches (hs.transition htransition) hlater
      obtain ⟨later, hagain⟩ := isSome_iff_exists.mp (evaluate_isSome ht.data_isSome command)
      refine ⟨later, hagain, ?_⟩
      rcases evaluate_spec hagain with ⟨hstate, -⟩ | ⟨u, hmoved, -⟩
      · exact hstate
      · exact (not_transition_later hs htransition hlater hmoved).elim
  · intro s command plan hplan hnot
    rcases evaluate_spec hplan with ⟨hstate, -⟩ | ⟨s', -, rfl⟩
    · exact hstate
    · exact absurd rfl (hnot _ _)

/-! ## A volume to try things on -/

instance sampleNeZero : NeZero 100 := ⟨Nat.succ_ne_zero 99⟩

/-- The identity with a small number. -/
def sampleIdentity (kind : IdentityKind) (n : Fin 100) : Identity kind :=
  ⟨⟨n.val + 1, by omega⟩, fun h => by simpa using congrArg Fin.val h⟩

/-- Four kibibytes, the smallest capacity. -/
def sampleDescriptor : VolumeDescriptor where
  volumeId := sampleIdentity .volume 0
  generation := ⟨1, Nat.one_pos, one_le_u64Max⟩
  capacity := ⟨4096, by decide, by decide⟩
  blockSizes := ⟨⟨4096, rfl⟩, ⟨4096, rfl⟩, ⟨4096, rfl⟩, ⟨4096, rfl⟩⟩
  aligned := by decide

/-- The first three nodes. -/
def sampleCopies : Finset VolumeNodeId :=
  {sampleIdentity .volumeNode 0, sampleIdentity .volumeNode 1, sampleIdentity .volumeNode 2}

/-- A session of the first node. -/
def sampleWriter : WriterGrant := ⟨sampleIdentity .volumeNode 0, sampleIdentity .driverSession 0⟩

/-- A volume that was initialized, granted to a writer and fenced. -/
theorem reachable_validates_fenced :
    ∃ s, Reaches step anyStep default s ∧ s.revision = 3 ∧ s.validate = .ok () := by
  exact (exists_reaches_of_runActions [.initializeVolume sampleDescriptor sampleCopies,
      .grantWriter ⟨sampleDescriptor.generation, 1⟩ sampleWriter,
      .fenceWriter ⟨sampleDescriptor.generation, 2⟩ sampleWriter] (by decide +kernel)).imp
    fun s ⟨hreach, hrevision⟩ => ⟨hreach, hrevision, (reachable_validates hreach).1⟩

/-- A writer grant that is retried at once. -/
theorem commands_apply_at_most_once_granted :
    ∃ s, Reaches step anyStep default s ∧ ∃ plan,
      s.evaluate (.grantWriter ⟨sampleDescriptor.generation, 1⟩ sampleWriter) = some plan ∧
      plan.state.evaluate (.grantWriter ⟨sampleDescriptor.generation, 1⟩ sampleWriter) =
        some plan.state.current := by
  have hreach : Reaches step anyStep default _ :=
    reaches_of_runActions [.initializeVolume sampleDescriptor sampleCopies] rfl
  exact ⟨_, hreach, _, rfl, (commands_apply_at_most_once.1 _ hreach _ _ _ _ rfl rfl).1⟩

end Mantissa.VolumeControlState
