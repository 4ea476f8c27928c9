import Mantissa.Volume.ControlState

/-!
# What an evaluation can do

`Transition` lists the changes the ten commands make, each with everything the command has checked
by then. `evaluate_spec` reads every evaluation off it: either nothing changes and the answer is
not `applied`, or the state moves by the transition of the command and the answer says so. All
later results about control state go through this list and none of them unfolds a command.
-/

namespace Mantissa.VolumeControlState

open Option

/-- The change a command makes where it is applied. -/
inductive Transition : VolumeControlState → VolumeCommand → VolumeControlState → Prop
  | initializeVolume {s : VolumeControlState} {descriptor : VolumeDescriptor}
      {initialCopies : Finset VolumeNodeId} (hnone : s.descriptor = none)
      (hcard : initialCopies.card = 3) :
      Transition s (.initializeVolume descriptor initialCopies)
        ⟨some descriptor, 1, .live, some ⟨FenceEpoch.initial, initialCopies, none, none⟩, none⟩
  | expand {descriptor descriptor' : VolumeDescriptor} {data : DataControlState} {revision : ℕ}
      {capacity : VolumeCapacity} (hrecovery : data.recovery = none)
      (hcapacity : descriptor.capacity ≤ capacity)
      (hbuilt : descriptor.withCapacity capacity = .ok descriptor') :
      Transition ⟨some descriptor, revision, .live, some data, none⟩
        (.expand ⟨descriptor.generation, revision⟩ capacity)
        ⟨some descriptor', revision + 1, .live, some data, none⟩
  | restore {descriptor : VolumeDescriptor} {revision : ℕ} {disposition : VolumeDisposition}
      {data : Option DataControlState} {replacement : Option ReplacementGrant} :
      Transition ⟨some descriptor, revision, disposition, data, replacement⟩
        (.setDisposition ⟨descriptor.generation, revision⟩ .live)
        ⟨some descriptor, revision + 1, .live, data, replacement⟩
  | retain {descriptor : VolumeDescriptor} {revision : ℕ} {disposition : VolumeDisposition}
      {data : DataControlState} {replacement : Option ReplacementGrant} {fence : FenceEpoch}
      (hfence : FenceEpoch.next data.fence = some fence) :
      Transition ⟨some descriptor, revision, disposition, some data, replacement⟩
        (.setDisposition ⟨descriptor.generation, revision⟩ .retained)
        ⟨some descriptor, revision + 1, .retained, some ⟨fence, data.copies, none, none⟩, none⟩
  | grantWriter {descriptor : VolumeDescriptor} {revision : ℕ} {data : DataControlState}
      {fence : FenceEpoch} {writer : WriterGrant} (hmember : writer.nodeId ∈ data.copies)
      (hrecovery : data.recovery = none) (hfence : FenceEpoch.next data.fence = some fence) :
      Transition ⟨some descriptor, revision, .live, some data, none⟩
        (.grantWriter ⟨descriptor.generation, revision⟩ writer)
        ⟨some descriptor, revision + 1, .live, some ⟨fence, data.copies, some writer, none⟩, none⟩
  | fenceWriter {descriptor : VolumeDescriptor} {revision : ℕ} {disposition : VolumeDisposition}
      {data : DataControlState} {replacement : Option ReplacementGrant} {fence : FenceEpoch}
      {writer : WriterGrant} (hwriter : data.writer = some writer)
      (hfence : FenceEpoch.next data.fence = some fence) :
      Transition ⟨some descriptor, revision, disposition, some data, replacement⟩
        (.fenceWriter ⟨descriptor.generation, revision⟩ writer)
        ⟨some descriptor, revision + 1, disposition,
          some ⟨fence, data.copies, none, data.recovery⟩, replacement⟩
  | beginRecovery {descriptor : VolumeDescriptor} {revision : ℕ} {data : DataControlState}
      {fence : FenceEpoch} {replacedRecoveryId : Option RecoveryId} {recovery : RecoveryGrant}
      (hrequested : checkRequestedRecovery data recovery = .ok ())
      (hfence : FenceEpoch.next data.fence = some fence) :
      Transition ⟨some descriptor, revision, .live, some data, none⟩
        (.beginRecovery ⟨descriptor.generation, revision⟩ data.writer replacedRecoveryId recovery)
        ⟨some descriptor, revision + 1, .live,
          some ⟨fence, recovery.targetNodeIds, none, some recovery⟩, none⟩
  | revokeRecovery {descriptor : VolumeDescriptor} {revision : ℕ} {data : DataControlState}
      {replacement : Option ReplacementGrant} {recovery : RecoveryGrant}
      (hrecovery : data.recovery = some recovery) :
      Transition ⟨some descriptor, revision, .live, some data, replacement⟩
        (.revokeRecovery ⟨descriptor.generation, revision⟩ recovery.id)
        ⟨some descriptor, revision + 1, .live, some { data with recovery := none }, replacement⟩
  | beginReplacement {descriptor : VolumeDescriptor} {revision : ℕ} {data : DataControlState}
      {replacement : ReplacementGrant} (hrecovery : data.recovery = none)
      (hgrant : checkReplacementGrant data replacement = .ok ()) :
      Transition ⟨some descriptor, revision, .live, some data, none⟩
        (.beginReplacement ⟨descriptor.generation, revision⟩ replacement)
        ⟨some descriptor, revision + 1, .live, some data, some replacement⟩
  | cancelReplacement {descriptor : VolumeDescriptor} {revision : ℕ}
      {disposition : VolumeDisposition} {data : Option DataControlState}
      {replacement : ReplacementGrant} :
      Transition ⟨some descriptor, revision, disposition, data, some replacement⟩
        (.cancelReplacement ⟨descriptor.generation, revision⟩ replacement.id)
        ⟨some descriptor, revision + 1, disposition, data, none⟩
  | adoptReplacement {descriptor : VolumeDescriptor} {revision : ℕ} {data : DataControlState}
      {replacement : ReplacementGrant} {newCopies : Finset VolumeNodeId} {fence : FenceEpoch}
      (hfinished : finishedCopiesMatchReplacement data.copies replacement newCopies = true)
      (hwriter : ∀ writer, data.writer = some writer → writer.nodeId ∈ newCopies)
      (hfence : FenceEpoch.next data.fence = some fence) :
      Transition ⟨some descriptor, revision, .live, some data, some replacement⟩
        (.adoptReplacement ⟨descriptor.generation, revision⟩ replacement.id newCopies data.writer)
        ⟨some descriptor, revision + 1, .live, some { data with fence, copies := newCopies }, none⟩

/-! ## Answers that change nothing -/

variable (s : VolumeControlState)

/-- Nothing changes, and the answer does not claim otherwise. -/
def Unchanged (plan : CommandPlan) : Prop :=
  plan.state = s ∧ ∀ revision fence, plan.response ≠ .applied revision fence

lemma unchanged_current : Unchanged s s.current := ⟨rfl, fun _ _ => nofun⟩

lemma unchanged_rejected (rejection : VolumeCommandRejection) :
    Unchanged s (s.rejected rejection) :=
  ⟨rfl, fun _ _ => nofun⟩

/-- What an evaluation did. -/
def Outcome (command : VolumeCommand) (plan : CommandPlan) : Prop :=
  Unchanged s plan ∨ ∃ s', Transition s command s' ∧ plan = .applied s'

/-! ## The parts the transitions share -/

variable {s : VolumeControlState} {expected : ExpectedVolumeRevision}

/-- A command gets past the revision check only at its generation and revision. -/
lemma checkExpected_eq_none :
    s.checkExpected expected = none ↔ ∃ descriptor, s.descriptor = some descriptor ∧
      expected = ⟨descriptor.generation, s.revision⟩ := by
  rw [checkExpected]
  cases hd : s.descriptor with
  | none => simp
  | some descriptor =>
    obtain ⟨generation, revision⟩ := expected
    simp only [Option.some.injEq, exists_eq_left', ExpectedVolumeRevision.mk.injEq]
    split_ifs with hgeneration hrevision
    · simp [Ne.symm hgeneration]
    · simp [Ne.symm hrevision]
    · simp only [ne_eq, not_not] at hgeneration hrevision
      simp [hgeneration, hrevision]

variable {transition : Option CommandPlan}

lemma whenExpected_eq_some {plan : CommandPlan}
    (h : s.whenExpected expected transition = some plan) :
    Unchanged s plan ∨ transition = some plan ∧ ∃ descriptor,
      s.descriptor = some descriptor ∧ expected = ⟨descriptor.generation, s.revision⟩ := by
  rw [whenExpected] at h
  cases hcheck : s.checkExpected expected with
  | none =>
    rw [hcheck] at h
    exact .inr ⟨h, checkExpected_eq_none.mp hcheck⟩
  | some refusal =>
    rw [hcheck] at h
    cases h
    left
    rw [checkExpected] at hcheck
    split at hcheck
    · cases hcheck
      exact unchanged_rejected s _
    · split_ifs at hcheck
      · cases hcheck
        exact unchanged_rejected s _
      · cases hcheck
        exact ⟨rfl, fun _ _ => nofun⟩

variable {revision : ℕ}

lemma nextRevisionAndFence_eq_some {fence : FenceEpoch}
    (h : s.nextRevisionAndFence = some (revision, fence)) :
    revision = s.revision + 1 ∧ ∃ data, s.data = some data ∧
      FenceEpoch.next data.fence = some fence := by
  rw [nextRevisionAndFence, bind_eq_some_iff] at h
  obtain ⟨revision', hrevision, h⟩ := h
  obtain ⟨fence', hfence, h⟩ := map_eq_some_iff.mp h
  obtain ⟨rfl, rfl⟩ := Prod.mk.inj h
  obtain ⟨data, hdata, hnext⟩ := bind_eq_some_iff.mp hfence
  exact ⟨(checkedAdd_eq_some.mp hrevision).2, data, hdata, hnext⟩

variable {s : VolumeControlState} {command : VolumeCommand} {plan : CommandPlan}

lemma Outcome.of_current (h : some s.current = some plan) : Outcome s command plan := by
  cases h
  exact .inl (unchanged_current s)

variable {rejection : VolumeCommandRejection}

lemma Outcome.of_rejected
    (h : some (s.rejected rejection) = some plan) : Outcome s command plan := by
  cases h
  exact .inl (unchanged_rejected s rejection)

lemma Outcome.of_exhausted (h : some s.exhausted = some plan) : Outcome s command plan := by
  cases h
  rw [exhausted]
  split_ifs <;> exact .inl (unchanged_rejected s _)

lemma Outcome.of_applied {s' : VolumeControlState} (h : some (CommandPlan.applied s') = some plan)
    (htransition : Transition s command s') : Outcome s command plan :=
  .inr ⟨s', htransition, (Option.some.inj h).symm⟩

/-- What a command does that is not done already, beyond the revision check. -/
lemma Outcome.of_guarded {current : Prop} [Decidable current]
    (h : (if current then some s.current else s.whenExpected expected transition) = some plan)
    (hrun : ∀ descriptor revision disposition data replacement,
      s = ⟨some descriptor, revision, disposition, data, replacement⟩ →
      expected = ⟨descriptor.generation, revision⟩ → transition = some plan →
      Outcome s command plan) : Outcome s command plan := by
  split_ifs at h
  · exact .of_current h
  rcases whenExpected_eq_some h with hunchanged | ⟨htransition, descriptor, hd, hexpected⟩
  · exact .inl hunchanged
  · obtain ⟨_, revision, disposition, data, replacement⟩ := s
    obtain rfl : _ = some descriptor := hd
    exact hrun descriptor revision disposition data replacement rfl hexpected htransition

/-- A change that only takes the next revision. -/
lemma Outcome.of_nextRevision {next : ℕ → VolumeControlState} (h : (match checkedAdd revision 1 with
      | none => some (s.rejected rejection)
      | some revision => some (CommandPlan.applied (next revision))) = some plan)
    (htransition : Transition s command (next (revision + 1))) : Outcome s command plan := by
  cases hrevision : checkedAdd revision 1 with
  | none =>
    rw [hrevision] at h
    exact .of_rejected h
  | some revision' =>
    rw [hrevision] at h
    obtain ⟨-, rfl⟩ := checkedAdd_eq_some.mp hrevision
    exact .of_applied h htransition

/-! ## Each command -/

variable {expected : ExpectedVolumeRevision} {descriptor : VolumeDescriptor}

lemma expand_spec {capacity : VolumeCapacity} (h : s.expand expected capacity = some plan) :
    Outcome s (.expand expected capacity) plan := by
  refine .of_guarded h ?_
  rintro descriptor revision disposition data replacement rfl rfl hrun
  split_ifs at hrun with hlive hreplacement
  · exact .of_rejected hrun
  · exact .of_rejected hrun
  obtain rfl : disposition = .live := not_not.mp hlive
  obtain rfl : replacement = none := not_isSome_iff_eq_none.mp hreplacement
  obtain ⟨data, rfl, hthen⟩ := bind_eq_some_iff.mp hrun
  split_ifs at hthen with hrecovery
  · exact .of_rejected hthen
  dsimp only at hthen
  split_ifs at hthen with hshrink
  · exact .of_rejected hthen
  split at hthen
  · exact .of_rejected hthen
  next descriptor' hbuilt =>
    exact .of_nextRevision hthen (.expand (not_isSome_iff_eq_none.mp hrecovery)
          (not_lt.mp hshrink) hbuilt)

lemma setDisposition_spec {disposition : VolumeDisposition}
    (h : s.setDisposition expected disposition = some plan) :
    Outcome s (.setDisposition expected disposition) plan := by
  refine .of_guarded h ?_
  rintro descriptor revision current data replacement rfl rfl hrun
  cases hrevision : checkedAdd revision 1 with
  | none =>
    simp only [hrevision] at hrun
    exact .of_rejected hrun
  | some revision' =>
    simp only [hrevision] at hrun
    obtain ⟨-, rfl⟩ := checkedAdd_eq_some.mp hrevision
    cases disposition with
    | live => exact .of_applied hrun .restore
    | retained =>
      rw [if_pos (by simp), nextFence] at hrun
      cases data with
      | none => exact .of_rejected hrun
      | some data =>
        simp only [bind_some] at hrun
        cases hfence : FenceEpoch.next data.fence with
        | none =>
          rw [hfence] at hrun
          exact .of_rejected hrun
        | some fence =>
          rw [hfence] at hrun
          exact .of_applied hrun (.retain hfence)

lemma grantWriter_spec {writer : WriterGrant} (h : s.grantWriter expected writer = some plan) :
    Outcome s (.grantWriter expected writer) plan := by
  refine .of_guarded h ?_
  rintro descriptor revision disposition data replacement rfl rfl hrun
  split_ifs at hrun with hlive hreplacement
  · exact .of_rejected hrun
  · exact .of_rejected hrun
  obtain rfl : disposition = .live := not_not.mp hlive
  obtain rfl : replacement = none := not_isSome_iff_eq_none.mp hreplacement
  obtain ⟨data, rfl, hthen⟩ := bind_eq_some_iff.mp hrun
  by_cases hmember : writer.nodeId ∈ data.copies
  · split_ifs at hthen with hrecovery
    · exact .of_rejected hthen
    split at hthen
    · exact .of_exhausted hthen
    next revision' fence hnext =>
      obtain ⟨rfl, _, hdata, hfence⟩ := nextRevisionAndFence_eq_some hnext
      cases hdata
      exact .of_applied hthen (.grantWriter hmember (not_isSome_iff_eq_none.mp hrecovery) hfence)
  · rw [if_pos hmember] at hthen
    exact .of_rejected hthen

lemma fenceWriter_spec {writer : WriterGrant} (h : s.fenceWriter expected writer = some plan) :
    Outcome s (.fenceWriter expected writer) plan := by
  refine .of_guarded h ?_
  rintro descriptor revision disposition data replacement rfl rfl hrun
  obtain ⟨data, rfl, hthen⟩ := bind_eq_some_iff.mp hrun
  split_ifs at hthen with hwriter
  · exact .of_rejected hthen
  split at hthen
  · exact .of_exhausted hthen
  next revision' fence hnext =>
    obtain ⟨rfl, _, hdata, hfence⟩ := nextRevisionAndFence_eq_some hnext
    cases hdata
    exact .of_applied hthen (.fenceWriter (not_not.mp hwriter) hfence)

variable {expectedWriter : Option WriterGrant}

lemma beginRecovery_spec {replacedRecoveryId : Option RecoveryId} {recovery : RecoveryGrant}
    (h : s.beginRecovery expected expectedWriter replacedRecoveryId recovery = some plan) :
    Outcome s (.beginRecovery expected expectedWriter replacedRecoveryId recovery) plan := by
  refine .of_guarded h ?_
  rintro descriptor revision disposition data replacement rfl rfl hrun
  split_ifs at hrun with hlive hreplacement
  · exact .of_rejected hrun
  · exact .of_rejected hrun
  obtain rfl : disposition = .live := not_not.mp hlive
  obtain rfl : replacement = none := not_isSome_iff_eq_none.mp hreplacement
  obtain ⟨data, rfl, hthen⟩ := bind_eq_some_iff.mp hrun
  split_ifs at hthen with hwriter
  · exact .of_rejected hthen
  obtain rfl : data.writer = expectedWriter := not_not.mp hwriter
  split at hthen
  · exact .of_rejected hthen
  split at hthen
  · exact .of_rejected hthen
  next hrequested =>
    split at hthen
    · exact .of_exhausted hthen
    next revision' fence hnext =>
      obtain ⟨rfl, _, hdata, hfence⟩ := nextRevisionAndFence_eq_some hnext
      cases hdata
      exact .of_applied hthen (.beginRecovery hrequested hfence)

lemma revokeRecovery_spec {recoveryId : RecoveryId}
    (h : s.revokeRecovery expected recoveryId = some plan) :
    Outcome s (.revokeRecovery expected recoveryId) plan := by
  refine .of_guarded h ?_
  rintro descriptor revision disposition data replacement rfl rfl hrun
  split_ifs at hrun with hlive
  · exact .of_rejected hrun
  obtain rfl : disposition = .live := not_not.mp hlive
  obtain ⟨data, rfl, hthen⟩ := bind_eq_some_iff.mp hrun
  split at hthen
  · exact .of_rejected hthen
  next recovery hrecovery =>
    split_ifs at hthen with hid
    · exact .of_rejected hthen
    obtain rfl : recovery.id = recoveryId := not_not.mp hid
    exact .of_nextRevision hthen (.revokeRecovery hrecovery)

lemma beginReplacement_spec {replacement : ReplacementGrant}
    (h : s.beginReplacement expected replacement = some plan) :
    Outcome s (.beginReplacement expected replacement) plan := by
  refine .of_guarded h ?_
  rintro descriptor revision disposition data current rfl rfl hrun
  split_ifs at hrun with hlive
  · exact .of_rejected hrun
  obtain rfl : disposition = .live := not_not.mp hlive
  obtain ⟨data, rfl, hthen⟩ := bind_eq_some_iff.mp hrun
  split_ifs at hthen with hrecovery
  · exact .of_rejected hthen
  cases current with
  | some current => exact .of_rejected hthen
  | none =>
    dsimp only at hthen
    split at hthen
    · exact .of_rejected hthen
    next hgrant =>
      exact .of_nextRevision hthen (.beginReplacement (not_isSome_iff_eq_none.mp hrecovery) hgrant)

variable {replacementId : ReplacementId}

lemma cancelReplacement_spec (h : s.cancelReplacement expected replacementId = some plan) :
    Outcome s (.cancelReplacement expected replacementId) plan := by
  refine .of_guarded h ?_
  rintro descriptor revision disposition data current rfl rfl hrun
  cases current with
  | none => exact .of_current hrun
  | some current =>
    dsimp only at hrun
    split_ifs at hrun with hid
    · exact .of_rejected hrun
    obtain rfl : current.id = replacementId := not_not.mp hid
    exact .of_nextRevision hrun .cancelReplacement

lemma adoptReplacement_spec {newCopies : Finset VolumeNodeId}
    (h : s.adoptReplacement expected replacementId newCopies expectedWriter = some plan) :
    Outcome s (.adoptReplacement expected replacementId newCopies expectedWriter) plan := by
  refine .of_guarded h ?_
  rintro descriptor revision disposition data current rfl rfl hrun
  split at hrun
  · exact .of_rejected hrun
  rename_i hlive
  obtain rfl : disposition = .live := not_not.mp hlive
  cases current with
  | none => exact .of_rejected hrun
  | some current =>
    dsimp only at hrun
    split at hrun
    · exact .of_rejected hrun
    rename_i hid
    obtain rfl : current.id = replacementId := not_not.mp hid
    obtain ⟨data, rfl, hthen⟩ := bind_eq_some_iff.mp hrun
    split_ifs at hthen with hwriter hfinished houtside
    · exact .of_rejected hthen
    · exact .of_rejected hthen
    · obtain rfl := not_not.mp hwriter
      split at hthen
      · exact .of_exhausted hthen
      next hnext =>
        obtain ⟨rfl, _, hdata, hfence⟩ := nextRevisionAndFence_eq_some hnext
        cases hdata
        refine .of_applied hthen (.adoptReplacement hfinished (fun writer hw => ?_) hfence)
        simpa [hw] using houtside
    · exact .of_rejected hthen

/-- **What an evaluation does.** -/
theorem evaluate_spec (h : s.evaluate command = some plan) : Outcome s command plan := by
  cases command with
  | initializeVolume descriptor initialCopies =>
    cases h
    rw [initializeVolume]
    split_ifs with hcurrent hsome hcard
    · exact .inl (unchanged_current s)
    · exact .inl (unchanged_rejected s _)
    · exact .inl (unchanged_rejected s _)
    · refine .inr ⟨_, .initializeVolume ?_ (not_not.mp hcard), rfl⟩
      exact not_isSome_iff_eq_none.mp hsome
  | expand expected capacity => exact expand_spec h
  | setDisposition expected disposition => exact setDisposition_spec h
  | grantWriter expected writer => exact grantWriter_spec h
  | fenceWriter expected writer => exact fenceWriter_spec h
  | beginRecovery expected expectedWriter replaced recovery => exact beginRecovery_spec h
  | revokeRecovery expected recoveryId => exact revokeRecovery_spec h
  | beginReplacement expected replacement => exact beginReplacement_spec h
  | cancelReplacement expected replacementId => exact cancelReplacement_spec h
  | adoptReplacement expected replacementId newCopies expectedWriter =>
    exact adoptReplacement_spec h

end Mantissa.VolumeControlState
