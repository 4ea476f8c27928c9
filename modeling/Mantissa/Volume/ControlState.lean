import Mathlib.Data.Finset.Card
import Mantissa.Volume.Identity

/-!
# Volume control state

The consensus state of one replicated-volume generation and its ten commands. A command carries no
request id. It first asks whether its postcondition already holds, then compares generation and
revision with what the caller saw, and only then looks at the state; what it changes is the
revision, by one, and for some commands the fence.

The source reads the data part of the state through `data_ref` and `data_mut`, which hit
`unreachable!` when there is none. Here an evaluation that would do so is `none`.
-/

namespace Mantissa

/-- `VolumeDisposition`. -/
inductive VolumeDisposition
  | live
  | retained
  deriving DecidableEq

/-- `WriterGrant`. -/
structure WriterGrant where
  nodeId : VolumeNodeId
  sessionId : DriverSessionId
  deriving DecidableEq

/-- `RecoveryGrant`. -/
structure RecoveryGrant where
  id : RecoveryId
  coordinatorNodeId : VolumeNodeId
  sourceNodeId : VolumeNodeId
  targetNodeIds : Finset VolumeNodeId
  deriving DecidableEq

/-- `ReplacementGrant`. -/
structure ReplacementGrant where
  id : ReplacementId
  coordinatorNodeId : VolumeNodeId
  oldNodeId : Option VolumeNodeId
  newNodeId : VolumeNodeId
  sourceNodeId : VolumeNodeId
  deriving DecidableEq

/-- `DataControlState`. -/
structure DataControlState where
  fence : FenceEpoch
  copies : Finset VolumeNodeId
  writer : Option WriterGrant
  recovery : Option RecoveryGrant
  deriving DecidableEq

/-- `VolumeControlState`. -/
structure VolumeControlState where
  descriptor : Option VolumeDescriptor
  revision : ℕ
  disposition : VolumeDisposition
  data : Option DataControlState
  replacement : Option ReplacementGrant
  deriving DecidableEq

/-! ## Commands and responses -/

/-- `ExpectedVolumeRevision`. -/
structure ExpectedVolumeRevision where
  generation : VolumeGeneration
  revision : ℕ
  deriving DecidableEq

/-- `VolumeCommand`, with the fields of its ten command records. -/
inductive VolumeCommand
  | initializeVolume (descriptor : VolumeDescriptor) (initialCopies : Finset VolumeNodeId)
  | expand (expected : ExpectedVolumeRevision) (targetCapacity : VolumeCapacity)
  | setDisposition (expected : ExpectedVolumeRevision) (disposition : VolumeDisposition)
  | grantWriter (expected : ExpectedVolumeRevision) (writer : WriterGrant)
  | fenceWriter (expected : ExpectedVolumeRevision) (writer : WriterGrant)
  | beginRecovery (expected : ExpectedVolumeRevision) (expectedWriter : Option WriterGrant)
      (replacedRecoveryId : Option RecoveryId) (recovery : RecoveryGrant)
  | revokeRecovery (expected : ExpectedVolumeRevision) (recoveryId : RecoveryId)
  | beginReplacement (expected : ExpectedVolumeRevision) (replacement : ReplacementGrant)
  | cancelReplacement (expected : ExpectedVolumeRevision) (replacementId : ReplacementId)
  | adoptReplacement (expected : ExpectedVolumeRevision) (replacementId : ReplacementId)
      (newCopies : Finset VolumeNodeId) (expectedWriter : Option WriterGrant)
  deriving DecidableEq

/-- `VolumeCommandRejection`. -/
inductive VolumeCommandRejection
  | notInitialized
  | alreadyInitialized
  | wrongGeneration
  | volumeNotLive
  | writerOutsideCopySet
  | wrongWriter
  | invalidCopySet
  | invalidRecovery
  | recoveryInProgress
  | noRecovery
  | wrongRecovery
  | recoveryIdConflict
  | invalidReplacement
  | replacementInProgress
  | noReplacement
  | wrongReplacement
  | replacementIdConflict
  | revisionExhausted
  | fenceExhausted
  | capacityCannotShrink
  | capacityNotAligned
  deriving DecidableEq

/-- `VolumeCommandResponse`. -/
inductive VolumeCommandResponse
  | applied (revision : ℕ) (fence : Option FenceEpoch)
  | current (revision : ℕ) (fence : Option FenceEpoch)
  | conflict (currentRevision : ℕ)
  | rejected (rejection : VolumeCommandRejection)
  deriving DecidableEq

/-- `CommandPlan`. -/
structure CommandPlan where
  state : VolumeControlState
  response : VolumeCommandResponse
  deriving DecidableEq

/-- `CommandPlan::applied`. -/
def CommandPlan.applied (state : VolumeControlState) : CommandPlan :=
  ⟨state, .applied state.revision (state.data.map DataControlState.fence)⟩

/-! ## Recovery and replacement checks -/

/-- `RecoveryGrantError`. -/
inductive RecoveryGrantError
  | writerIsActive
  | replacementIsActive
  | invalidTargetCount
  | coordinatorDiffersFromSource
  | sourceIsNotActive
  | sourceIsNotTargeted
  | storedTargetsDifferFromCopies
  | targetOutsideActiveCopies
  deriving DecidableEq

/-- Two or three. -/
def isCopyCount (n : ℕ) : Bool := decide (2 ≤ n ∧ n ≤ 3)

variable (data : DataControlState)

/-- `check_recovery_source`. -/
def checkRecoverySource (recovery : RecoveryGrant) : Except RecoveryGrantError Unit :=
  if recovery.coordinatorNodeId ≠ recovery.sourceNodeId then .error .coordinatorDiffersFromSource
  else if recovery.sourceNodeId ∉ data.copies then .error .sourceIsNotActive
  else if recovery.sourceNodeId ∉ recovery.targetNodeIds then .error .sourceIsNotTargeted
  else .ok ()

/-- `check_stored_recovery`. -/
def checkStoredRecovery (replacement : Option ReplacementGrant)
    (recovery : RecoveryGrant) : Except RecoveryGrantError Unit :=
  if data.writer.isSome then .error .writerIsActive
  else if replacement.isSome then .error .replacementIsActive
  else match checkRecoverySource data recovery with
    | .error e => .error e
    | .ok _ =>
      if recovery.targetNodeIds ≠ data.copies then .error .storedTargetsDifferFromCopies
      else .ok ()

/-- `check_requested_recovery`. -/
def checkRequestedRecovery (recovery : RecoveryGrant) : Except RecoveryGrantError Unit :=
  if ¬ isCopyCount recovery.targetNodeIds.card then .error .invalidTargetCount
  else match checkRecoverySource data recovery with
    | .error e => .error e
    | .ok _ =>
      if ¬ recovery.targetNodeIds ⊆ data.copies then .error .targetOutsideActiveCopies
      else .ok ()

/-- `ReplacementGrantError`. -/
inductive ReplacementGrantError
  | coordinatorDiffersFromSource
  | sourceIsNotActive
  | writerDiffersFromSource
  | newNodeAlreadyActive
  | newNodeIsSource
  | oldNodeIsNewNode
  | oldNodeIsSource
  | resultDoesNotHaveThreeCopies
  deriving DecidableEq

/-- `copies_after_replacement`. -/
def copiesAfterReplacement (current : Finset VolumeNodeId) (replacement : ReplacementGrant) :
    Finset VolumeNodeId :=
  insert replacement.newNodeId (match replacement.oldNodeId with
    | some oldNodeId => current.erase oldNodeId
    | none => current)

/-- `check_replacement_grant`. -/
def checkReplacementGrant (replacement : ReplacementGrant) : Except ReplacementGrantError Unit :=
  if replacement.coordinatorNodeId ≠ replacement.sourceNodeId then
    .error .coordinatorDiffersFromSource
  else if replacement.sourceNodeId ∉ data.copies then .error .sourceIsNotActive
  else if data.writer.any fun writer => decide (writer.nodeId ≠ replacement.sourceNodeId) then
    .error .writerDiffersFromSource
  else if replacement.newNodeId ∈ data.copies then .error .newNodeAlreadyActive
  else if replacement.newNodeId = replacement.sourceNodeId then .error .newNodeIsSource
  else if replacement.oldNodeId = some replacement.newNodeId then .error .oldNodeIsNewNode
  else if replacement.oldNodeId = some replacement.sourceNodeId then .error .oldNodeIsSource
  else if (copiesAfterReplacement data.copies replacement).card ≠ 3 then
    .error .resultDoesNotHaveThreeCopies
  else .ok ()

/-- `finished_copies_match_replacement`. -/
def finishedCopiesMatchReplacement (current : Finset VolumeNodeId) (replacement : ReplacementGrant)
    (next : Finset VolumeNodeId) : Bool :=
  if next.card ≠ 3 ∨ replacement.newNodeId ∉ next then false
  else decide (copiesAfterReplacement current replacement = next)

namespace VolumeControlState

/-- The state before initialization. -/
def default : VolumeControlState := ⟨none, 0, .live, none, none⟩

/-! ## Parts of a transition -/

variable (s : VolumeControlState)

/-- `current`. -/
def current : CommandPlan :=
  ⟨s, .current s.revision (s.data.map DataControlState.fence)⟩

/-- `rejected`. -/
def rejected (rejection : VolumeCommandRejection) : CommandPlan :=
  ⟨s, .rejected rejection⟩

/-- `exhausted`. -/
def exhausted : CommandPlan :=
  if s.revision = u64Max then s.rejected .revisionExhausted else s.rejected .fenceExhausted

/-- `next_fence`. -/
def nextFence : Option FenceEpoch :=
  s.data.bind fun data => FenceEpoch.next data.fence

/-- `next_revision_and_fence`. -/
def nextRevisionAndFence : Option (ℕ × FenceEpoch) :=
  (checkedAdd s.revision 1).bind fun revision => s.nextFence.map fun fence => (revision, fence)

variable (expected : ExpectedVolumeRevision)

/-- `expected_generation_is_current`. -/
def expectedGenerationIsCurrent : Bool :=
  s.descriptor.any fun descriptor => decide (descriptor.generation = expected.generation)

/-- `check_expected`: the answer to a command that is not for this revision. -/
def checkExpected : Option CommandPlan :=
  match s.descriptor with
  | none => some (s.rejected .notInitialized)
  | some descriptor =>
    if descriptor.generation ≠ expected.generation then some (s.rejected .wrongGeneration)
    else if s.revision ≠ expected.revision then some ⟨s, .conflict s.revision⟩
    else none

variable (descriptor : VolumeDescriptor) (initialCopies : Finset VolumeNodeId)

/-- `initialization_is_current`. -/
def initializationIsCurrent : Bool :=
  decide (s.revision = 1 ∧ s.disposition = .live ∧ s.descriptor = some descriptor ∧
    s.replacement = none ∧ s.data = some ⟨FenceEpoch.initial, initialCopies, none, none⟩)

/-- `data_ref`: `none` is `unreachable!`. -/
def dataRef : Option DataControlState := s.data

/-- `data_mut`: `none` is `unreachable!`. -/
def dataMut (change : DataControlState → DataControlState) : Option VolumeControlState :=
  s.data.map fun data => { s with data := some (change data) }

/-- Run the rest of a command that is for this revision. -/
def whenExpected (transition : Option CommandPlan) : Option CommandPlan :=
  match s.checkExpected expected with
  | some plan => some plan
  | none => transition

/-! ## Transitions -/

/-- `initialize`. -/
def initializeVolume : CommandPlan :=
  if s.initializationIsCurrent descriptor initialCopies then s.current
  else if s.descriptor.isSome then s.rejected .alreadyInitialized
  else if initialCopies.card ≠ 3 then s.rejected .invalidCopySet
  else .applied ⟨some descriptor, 1, .live,
    some ⟨FenceEpoch.initial, initialCopies, none, none⟩, none⟩

/-- `expand`. -/
def expand (targetCapacity : VolumeCapacity) : Option CommandPlan :=
  if s.expectedGenerationIsCurrent expected ∧
      s.descriptor.any (fun descriptor => decide (descriptor.capacity = targetCapacity)) then
    some s.current
  else s.whenExpected expected <|
    if s.disposition ≠ .live then some (s.rejected .volumeNotLive)
    else if s.replacement.isSome then some (s.rejected .replacementInProgress)
    else s.dataRef.bind fun data =>
      if data.recovery.isSome then some (s.rejected .recoveryInProgress)
      else match s.descriptor with
        | none => some (s.rejected .notInitialized)
        | some descriptor =>
          if targetCapacity < descriptor.capacity then some (s.rejected .capacityCannotShrink)
          else match descriptor.withCapacity targetCapacity with
            | .error _ => some (s.rejected .capacityNotAligned)
            | .ok descriptor =>
              match checkedAdd s.revision 1 with
              | none => some (s.rejected .revisionExhausted)
              | some revision =>
                some (.applied { s with revision, descriptor := some descriptor })

/-- `set_disposition`. -/
def setDisposition (disposition : VolumeDisposition) : Option CommandPlan :=
  if s.disposition = disposition ∧ s.expectedGenerationIsCurrent expected then some s.current
  else s.whenExpected expected <|
    match checkedAdd s.revision 1 with
    | none => some (s.rejected .revisionExhausted)
    | some revision =>
      let next := { s with revision, disposition }
      if disposition ≠ .live then
        match next.nextFence with
        | none => some (s.rejected .fenceExhausted)
        | some fence =>
          (next.dataMut fun data =>
            { data with fence, writer := none, recovery := none }).map
              fun (next : VolumeControlState) => .applied { next with replacement := none }
      else some (.applied next)

/-- `grant_writer`. -/
def grantWriter (writer : WriterGrant) : Option CommandPlan :=
  if s.expectedGenerationIsCurrent expected ∧
      s.data.any (fun data => decide (data.writer = some writer ∧ data.recovery = none)) ∧
      s.disposition = .live then
    some s.current
  else s.whenExpected expected <|
    if s.disposition ≠ .live then some (s.rejected .volumeNotLive)
    else if s.replacement.isSome then some (s.rejected .replacementInProgress)
    else s.dataRef.bind fun data =>
      if writer.nodeId ∉ data.copies then some (s.rejected .writerOutsideCopySet)
      else if data.recovery.isSome then some (s.rejected .recoveryInProgress)
      else match s.nextRevisionAndFence with
        | none => some s.exhausted
        | some (revision, fence) =>
          ({ s with revision }.dataMut fun data =>
            { data with fence, writer := some writer, recovery := none }).map .applied

/-- `fence_writer`. -/
def fenceWriter (writer : WriterGrant) : Option CommandPlan :=
  if s.expectedGenerationIsCurrent expected ∧
      s.data.any (fun data => data.writer.isNone) then
    some s.current
  else s.whenExpected expected <|
    s.dataRef.bind fun data =>
      if data.writer ≠ some writer then some (s.rejected .wrongWriter)
      else match s.nextRevisionAndFence with
        | none => some s.exhausted
        | some (revision, fence) =>
          ({ s with revision }.dataMut fun data =>
            { data with fence, writer := none }).map .applied

/-- How a requested recovery stands to the current one; `none` lets it pass. -/
def recoveryConflict (current : Option RecoveryGrant) (replacedRecoveryId : Option RecoveryId)
    (id : RecoveryId) : Option VolumeCommandRejection :=
  match current, replacedRecoveryId with
  | none, none => none
  | some current, replaced =>
    if current.id = id then some .recoveryIdConflict
    else if replaced = some current.id then none
    else some .recoveryInProgress
  | none, some _ => some .noRecovery

/-- `begin_recovery`. -/
def beginRecovery (expectedWriter : Option WriterGrant) (replacedRecoveryId : Option RecoveryId)
    (recovery : RecoveryGrant) : Option CommandPlan :=
  if s.expectedGenerationIsCurrent expected ∧
      s.data.any (fun data => decide (data.writer = none ∧ data.recovery = some recovery ∧
        data.copies = recovery.targetNodeIds)) ∧
      s.replacement = none then
    some s.current
  else s.whenExpected expected <|
    if s.disposition ≠ .live then some (s.rejected .volumeNotLive)
    else if s.replacement.isSome then some (s.rejected .replacementInProgress)
    else s.dataRef.bind fun data =>
      if data.writer ≠ expectedWriter then some (s.rejected .wrongWriter)
      else match recoveryConflict data.recovery replacedRecoveryId recovery.id with
        | some rejection => some (s.rejected rejection)
        | none =>
          match checkRequestedRecovery data recovery with
          | .error _ => some (s.rejected .invalidRecovery)
          | .ok _ =>
            match s.nextRevisionAndFence with
            | none => some s.exhausted
            | some (revision, fence) =>
              ({ s with revision }.dataMut fun _ =>
                ⟨fence, recovery.targetNodeIds, none, some recovery⟩).map
                  fun (next : VolumeControlState) =>
                    .applied { next with replacement := none }

/-- `revoke_recovery`. -/
def revokeRecovery (recoveryId : RecoveryId) : Option CommandPlan :=
  if s.expectedGenerationIsCurrent expected ∧
      s.data.any (fun data => data.recovery.isNone) then
    some s.current
  else s.whenExpected expected <|
    if s.disposition ≠ .live then some (s.rejected .volumeNotLive)
    else s.dataRef.bind fun data =>
      match data.recovery with
      | none => some (s.rejected .noRecovery)
      | some recovery =>
        if recovery.id ≠ recoveryId then some (s.rejected .wrongRecovery)
        else match checkedAdd s.revision 1 with
          | none => some (s.rejected .revisionExhausted)
          | some revision =>
            ({ s with revision }.dataMut fun data => { data with recovery := none }).map
              .applied

/-- `begin_replacement`. -/
def beginReplacement (replacement : ReplacementGrant) : Option CommandPlan :=
  if s.expectedGenerationIsCurrent expected ∧ s.replacement = some replacement then some s.current
  else s.whenExpected expected <|
    if s.disposition ≠ .live then some (s.rejected .volumeNotLive)
    else s.dataRef.bind fun data =>
      if data.recovery.isSome then some (s.rejected .recoveryInProgress)
      else match s.replacement with
        | some current =>
          some (s.rejected (if current.id = replacement.id then .replacementIdConflict
            else .replacementInProgress))
        | none =>
          match checkReplacementGrant data replacement with
          | .error _ => some (s.rejected .invalidReplacement)
          | .ok _ =>
            match checkedAdd s.revision 1 with
            | none => some (s.rejected .revisionExhausted)
            | some revision =>
              some (.applied { s with revision, replacement := some replacement })

variable (replacementId : ReplacementId)

/-- `cancel_replacement`. -/
def cancelReplacement : Option CommandPlan :=
  if s.replacement = none ∧ s.expectedGenerationIsCurrent expected then some s.current
  else s.whenExpected expected <|
    match s.replacement with
    | none => some s.current
    | some replacement =>
      if replacement.id ≠ replacementId then some (s.rejected .wrongReplacement)
      else match checkedAdd s.revision 1 with
        | none => some (s.rejected .revisionExhausted)
        | some revision => some (.applied { s with revision, replacement := none })

/-- `adopt_replacement`. -/
def adoptReplacement (newCopies : Finset VolumeNodeId)
    (expectedWriter : Option WriterGrant) : Option CommandPlan :=
  if s.expectedGenerationIsCurrent expected ∧ s.disposition = .live ∧ s.replacement = none ∧
      s.data.any (fun data =>
        decide (data.copies = newCopies ∧ data.writer = expectedWriter)) then
    some s.current
  else s.whenExpected expected <|
    if s.disposition ≠ .live then some (s.rejected .volumeNotLive)
    else match s.replacement with
      | none => some (s.rejected .noReplacement)
      | some replacement =>
        if replacement.id ≠ replacementId then some (s.rejected .wrongReplacement)
        else s.dataRef.bind fun data =>
          if data.writer ≠ expectedWriter then some (s.rejected .wrongWriter)
          else if ¬ finishedCopiesMatchReplacement data.copies replacement newCopies then
            some (s.rejected .invalidReplacement)
          else if expectedWriter.any (fun writer => decide (writer.nodeId ∉ newCopies)) then
            some (s.rejected .invalidReplacement)
          else match s.nextRevisionAndFence with
            | none => some s.exhausted
            | some (revision, fence) =>
              ({ s with revision }.dataMut fun data =>
                { data with fence, copies := newCopies }).map
                  fun (next : VolumeControlState) => .applied { next with replacement := none }

/-- `evaluate`. -/
def evaluate : VolumeCommand → Option CommandPlan
  | .initializeVolume descriptor initialCopies => some (s.initializeVolume descriptor initialCopies)
  | .expand expected targetCapacity => s.expand expected targetCapacity
  | .setDisposition expected disposition => s.setDisposition expected disposition
  | .grantWriter expected writer => s.grantWriter expected writer
  | .fenceWriter expected writer => s.fenceWriter expected writer
  | .beginRecovery expected expectedWriter replacedRecoveryId recovery =>
    s.beginRecovery expected expectedWriter replacedRecoveryId recovery
  | .revokeRecovery expected recoveryId => s.revokeRecovery expected recoveryId
  | .beginReplacement expected replacement => s.beginReplacement expected replacement
  | .cancelReplacement expected replacementId => s.cancelReplacement expected replacementId
  | .adoptReplacement expected replacementId newCopies expectedWriter =>
    s.adoptReplacement expected replacementId newCopies expectedWriter

/-! ## Validation -/

/-- `VolumeControlStateInvariantError`. -/
inductive InvariantError
  | invalidUninitializedState
  | descriptorDataMismatch
  | zeroInitializedRevision
  | invalidCopyCount
  | writerOutsideCopySet
  | invalidRecovery
  | invalidReplacement
  | grantOnInactiveVolume
  deriving DecidableEq

/-- Whether a check passed. -/
def passes {E : Type*} : Except E Unit → Bool
  | .ok _ => true
  | .error _ => false

/-- `validate`. -/
def validate : Except InvariantError Unit :=
  match s.descriptor, s.data with
  | none, none =>
    if s.revision ≠ 0 ∨ s.disposition ≠ .live ∨ s.replacement.isSome then
      .error .invalidUninitializedState
    else .ok ()
  | some _, some data =>
    if s.revision = 0 then .error .zeroInitializedRevision
    else if ¬ isCopyCount data.copies.card then .error .invalidCopyCount
    else if data.writer.any fun writer => decide (writer.nodeId ∉ data.copies) then
      .error .writerOutsideCopySet
    else if data.recovery.any fun recovery =>
        !passes (checkStoredRecovery data s.replacement recovery) then
      .error .invalidRecovery
    else if s.replacement.any fun replacement =>
        !passes (checkReplacementGrant data replacement) then
      .error .invalidReplacement
    else if s.disposition ≠ .live ∧
        (data.writer.isSome ∨ data.recovery.isSome ∨ s.replacement.isSome) then
      .error .grantOnInactiveVolume
    else .ok ()
  | _, _ => .error .descriptorDataMismatch

end VolumeControlState

end Mantissa
