import Mantissa.Volume.Fencing

/-!
# Publishing applied states

A replica publishes the control states it has applied to a cell that its request gate reads. The
cell takes a state at a newer log index only if revision, fence, capacity and storage identity do
not fall behind; at the same index it takes only the same state again.

`fencing_safety` collects what a run of the control state guarantees, up to what the cell relies on:
every state of a run, published at rising indices, is accepted.
-/

namespace Mantissa

open List

/-- `ApplyContext`. -/
structure ApplyContext where
  term : ℕ
  index : ℕ
  deriving DecidableEq

/-- `AppliedVolumeState`. -/
structure AppliedVolumeState where
  applied : ApplyContext
  descriptor : VolumeDescriptor
  revision : ℕ
  disposition : VolumeDisposition
  data : DataControlState
  replacement : Option ReplacementGrant
  deriving DecidableEq

/-- `AppliedVolumeStatePublicationError`, as far as a cell reports it. -/
inductive PublicationError
  | staleAppliedIndex (current proposed : ℕ)
  | conflictingAppliedEntry (index : ℕ)
  | controlStateRegressed
  deriving DecidableEq

namespace AppliedVolumeState

/-- `AppliedVolumeState::from_state`. -/
def fromState (applied : ApplyContext) (state : VolumeControlState) : Option AppliedVolumeState :=
  state.descriptor.bind fun descriptor => state.data.map fun data =>
    ⟨applied, descriptor, state.revision, state.disposition, data, state.replacement⟩

/-- `AppliedVolumeStateCell::publish`, on the state the cell holds. -/
def publish (current proposed : AppliedVolumeState) : Except PublicationError AppliedVolumeState :=
  if proposed.applied.index < current.applied.index then
    .error (.staleAppliedIndex current.applied.index proposed.applied.index)
  else if proposed.applied.index = current.applied.index then
    if proposed = current then .ok current
    else .error (.conflictingAppliedEntry proposed.applied.index)
  else if proposed.revision < current.revision ∨ proposed.data.fence < current.data.fence ∨
      ¬ proposed.descriptor.hasSameStorageIdentity current.descriptor ∨
      proposed.descriptor.capacity < current.descriptor.capacity then
    .error .controlStateRegressed
  else .ok proposed

/-- A cell made from the first state and given the others in turn. -/
def publishAll : List AppliedVolumeState → Except PublicationError (Option AppliedVolumeState)
  | [] => .ok none
  | first :: rest => (rest.foldlM publish first).map some

lemma fromState_eq_some {applied : ApplyContext} {state : VolumeControlState}
    {published : AppliedVolumeState} : fromState applied state = some published ↔
      state.descriptor = some published.descriptor ∧ state.data = some published.data ∧
        published.applied = applied ∧ published.revision = state.revision ∧
        published.disposition = state.disposition ∧ published.replacement = state.replacement := by
  rw [fromState, Option.bind_eq_some_iff]
  constructor
  · rintro ⟨descriptor, hd, h⟩
    obtain ⟨data, hdata, rfl⟩ := Option.map_eq_some_iff.mp h
    exact ⟨hd, hdata, rfl, rfl, rfl, rfl⟩
  · rintro ⟨hd, hdata, rfl, hrevision, hdisposition, hreplacement⟩
    refine ⟨_, hd, Option.map_eq_some_iff.mpr ⟨_, hdata, ?_⟩⟩
    rw [← hrevision, ← hdisposition, ← hreplacement]

/-- States that each come later than the ones before are all accepted. -/
lemma publishAll_of_pairwise : ∀ {published : List AppliedVolumeState},
    (published.Pairwise fun current proposed => publish current proposed = .ok proposed) →
      publishAll published = .ok published.getLast?
  | [], _ => rfl
  | first :: rest, h => by
    have hfold : ∀ (rest : List AppliedVolumeState) (first : AppliedVolumeState),
        ((first :: rest).Pairwise fun current proposed =>
          publish current proposed = .ok proposed) →
        ∃ last, rest.foldlM publish first = .ok last ∧ (first :: rest).getLast? = some last := by
      intro rest
      induction rest with
      | nil => exact fun first _ => ⟨first, rfl, rfl⟩
      | cons second rest ih =>
        intro first hpairwise
        obtain ⟨hfirst, hrest⟩ := pairwise_cons.mp hpairwise
        obtain ⟨last, hlast, hget⟩ := ih second hrest
        refine ⟨last, ?_, ?_⟩
        · rw [foldlM_cons, hfirst second mem_cons_self]
          exact hlast
        · exact hget
    obtain ⟨last, hlast, hget⟩ := hfold rest first h
    rw [publishAll, hlast, hget]
    rfl

end AppliedVolumeState

namespace VolumeControlState

open AppliedVolumeState

/-- What one evaluation may do to revision, fence, copies, writer and grants. -/
structure FencedStep (s : VolumeControlState) (plan : CommandPlan) : Prop where
  applied_revision : ∀ revision fence, plan.response = .applied revision fence →
    plan.state.revision = s.revision + 1
  other_revision : (∀ revision fence, plan.response ≠ .applied revision fence) →
    plan.state.revision = s.revision
  fence_le : ∀ data data', s.data = some data → plan.state.data = some data' →
    data.fence ≤ data'.fence
  copies_fenced : ∀ data data', s.data = some data → plan.state.data = some data' →
    data.copies ≠ data'.copies → data.fence < data'.fence
  writer_fenced : ∀ data data' writer, s.data = some data → plan.state.data = some data' →
    data.writer = some writer → data'.writer ≠ some writer → data.fence < data'.fence
  shared_copies : ∀ data data', s.data = some data → plan.state.data = some data' →
    2 ≤ (data.copies ∩ data'.copies).card
  recovery_source : ∀ data' recovery, plan.state.data = some data' →
    data'.recovery = some recovery → ∃ data, s.data = some data ∧
      (data.recovery = some recovery ∨ recovery.sourceNodeId ∈ data.copies)
  replacement_source : ∀ grant, plan.state.replacement = some grant →
    s.replacement = some grant ∨ ∃ data, s.data = some data ∧ grant.sourceNodeId ∈ data.copies

lemma fencedStep_of_evaluate {s : VolumeControlState} (hs : Valid s) {command : VolumeCommand}
    {plan : CommandPlan} (h : s.evaluate command = some plan) : FencedStep s plan := by
  rcases evaluate_spec h with ⟨hstate, hnot⟩ | ⟨s', htransition, rfl⟩
  · -- nothing changes
    have hsame : ∀ {data data'}, s.data = some data → plan.state.data = some data' →
        data = data' := fun hdata hdata' => by
      rw [hstate, hdata] at hdata'
      exact Option.some.inj hdata'
    refine ⟨fun revision fence heq => absurd heq (hnot revision fence), fun _ => by rw [hstate],
      fun _ _ hdata hdata' => (hsame hdata hdata') ▸ le_rfl,
      fun _ _ hdata hdata' hne => absurd (congrArg _ (hsame hdata hdata')) hne,
      fun _ _ _ hdata hdata' hw hne => absurd ((hsame hdata hdata') ▸ hw) hne, ?_, ?_, ?_⟩
    · intro data data' hdata hdata'
      obtain rfl := hsame hdata hdata'
      rw [Finset.inter_self]
      exact (hs.two_le_card hdata).1
    · intro data' recovery hdata' hrecovery
      rw [hstate] at hdata'
      exact ⟨data', hdata', .inl hrecovery⟩
    · intro grant hgrant
      rw [hstate] at hgrant
      exact .inl hgrant
  · have horder : ∀ data data', s.data = some data → s'.data = some data' →
        FenceOrder data data' := fun _ _ => htransition.fenceOrder hs
    refine ⟨fun _ _ _ => htransition.revision_eq hs, fun hnot => absurd rfl (hnot _ _),
      fun _ _ hdata hdata' => (horder _ _ hdata hdata').fence_le,
      fun _ _ hdata hdata' hne => (horder _ _ hdata hdata').resolve_right fun heq =>
        hne heq.2.1, ?_,
      fun _ _ => htransition.two_le_card_inter hs, ?_,
      fun _ => htransition.replacement_source hs⟩
    · intro data data' writer hdata hdata' hwriter hne
      refine (horder data data' hdata hdata').resolve_right fun heq => hne ?_
      rw [← heq.2.2, hwriter]
    · intro data' recovery hdata' hrecovery
      obtain ⟨data, hdata, -, hsource⟩ := htransition.recovery_source hs hdata' hrecovery
      exact ⟨data, hdata, hsource⟩

lemma Valid.replacement_source {s : VolumeControlState} (hs : Valid s) {data : DataControlState}
    {grant : ReplacementGrant} (hdata : s.data = some data) (hgrant : s.replacement = some grant) :
    grant.sourceNodeId ∈ data.copies := by
  cases hs with
  | uninitialized => cases hdata
  | initialized _ hgrants =>
    cases hdata
    exact (checkReplacementGrant_eq_ok.mp (hgrants.replacing grant hgrant)).2.1

/-- States of a run, projected at rising indices, follow each other in a cell. -/
lemma publish_of_reaches {s t : VolumeControlState} (hs : Valid s)
    (hlater : Reaches step anyStep s t) {context context' : ApplyContext}
    (hindex : context.index < context'.index) {current proposed : AppliedVolumeState}
    (hcurrent : fromState context s = some current)
    (hproposed : fromState context' t = some proposed) :
    publish current proposed = .ok proposed := by
  obtain ⟨hd, hdata, rfl, hrevision, -, -⟩ := fromState_eq_some.mp hcurrent
  obtain ⟨hd', hdata', rfl, hrevision', -, -⟩ := fromState_eq_some.mp hproposed
  obtain ⟨hle, ⟨descriptor, htd, hdescriptor⟩, ⟨data, htdata, hfence⟩⟩ :=
    later_of_initialized hs hlater hd hdata
  rw [hd'] at htd
  rw [hdata'] at htdata
  cases htd
  cases htdata
  -- the cell accepts a later state at a newer index
  rw [publish, if_neg hindex.not_gt, if_neg hindex.ne', if_neg]
  rintro (h | h | h | h)
  · rw [hrevision, hrevision'] at h
    exact absurd hle (not_le_of_gt h)
  · exact absurd hfence.fence_le (not_le_of_gt h)
  · exact h hdescriptor.1
  · exact absurd hdescriptor.2 (not_le_of_gt h)

/-- **Fencing safety.** In every state of a run each evaluation is fenced, the copies are two or
three and the grants take their data from copies; later states have no smaller fence, and with the
same fence the same copies and no other writer. A cell accepts the states of a run at rising
indices. -/
theorem fencing_safety :
    (∀ s, Reaches step anyStep default s →
      (∀ command plan, s.evaluate command = some plan → FencedStep s plan) ∧
      (∀ data, s.data = some data → (2 ≤ data.copies.card ∧ data.copies.card ≤ 3) ∧
        (∀ recovery, data.recovery = some recovery → recovery.sourceNodeId ∈ data.copies) ∧
        ∀ grant, s.replacement = some grant → grant.sourceNodeId ∈ data.copies) ∧
      ∀ t, Reaches step anyStep s t → ∀ data, s.data = some data →
        ∃ data', t.data = some data' ∧ data.fence ≤ data'.fence ∧
          (data.fence = data'.fence → data.copies = data'.copies ∧
            ∀ writer writer', data.writer = some writer → data'.writer = some writer' →
              writer = writer')) ∧
    ∀ published : List (ApplyContext × VolumeControlState),
      (∀ entry ∈ published, Reaches step anyStep default entry.2) →
      (published.Pairwise fun entry later =>
        entry.1.index < later.1.index ∧ Reaches step anyStep entry.2 later.2) →
      publishAll (published.filterMap fun entry => fromState entry.1 entry.2) =
        .ok (published.filterMap fun entry => fromState entry.1 entry.2).getLast? := by
  refine ⟨fun s hreach => ?_, fun published hreach hpairwise => ?_⟩
  · have hs := valid_of_reaches .uninitialized hreach
    refine ⟨fun command plan => fencedStep_of_evaluate hs, fun data hdata => ⟨hs.two_le_card hdata,
      fun _ => hs.recovery_source hdata, fun _ => hs.replacement_source hdata⟩, ?_⟩
    intro t hlater data hdata
    obtain ⟨descriptor, hd⟩ : ∃ descriptor, s.descriptor = some descriptor := by
      cases hs with
      | uninitialized => cases hdata
      | initialized _ _ => exact ⟨_, rfl⟩
    obtain ⟨data', hdata', horder⟩ := (later_of_initialized hs hlater hd hdata).data_later
    refine ⟨data', hdata', horder.fence_le, fun heq => ?_⟩
    obtain ⟨hcopies, hwriter⟩ := horder.eq_of_fence_eq heq
    refine ⟨hcopies, fun writer writer' hw hw' => ?_⟩
    rw [hwriter, hw'] at hw
    exact (Option.some.inj hw).symm
  · refine publishAll_of_pairwise (pairwise_filterMap.mpr ?_)
    refine hpairwise.imp_of_mem fun hentry _ hlater current hcurrent proposed hproposed => ?_
    exact publish_of_reaches (valid_of_reaches .uninitialized (hreach _ hentry)) hlater.2 hlater.1
      hcurrent hproposed

/-- A writer is granted, and both states are published. -/
theorem fencing_safety_granted :
    ∃ s t, Reaches step anyStep default s ∧ Reaches step anyStep s t ∧ t.revision = 2 ∧
      publishAll ([(⟨1, 5⟩, s), (⟨1, 7⟩, t)].filterMap fun entry => fromState entry.1 entry.2) =
        .ok (fromState ⟨1, 7⟩ t) := by
  have hreach : Reaches step anyStep default _ :=
    reaches_of_runActions [.initializeVolume sampleDescriptor sampleCopies] rfl
  have hgrant : ∀ {s t}, s.step (.grantWriter ⟨⟨1, by decide, by decide⟩, 1⟩ sampleWriter) =
      some t → Reaches step anyStep s t := fun hstep => .tail .refl trivial hstep
  refine ⟨_, _, hreach, hgrant rfl, rfl, ?_⟩
  rw [fencing_safety.2 _ ?_ ?_]
  · rfl
  · intro entry hentry
    rcases mem_pair.mp hentry with rfl | rfl
    · exact hreach
    · exact hreach.trans (hgrant rfl)
  · exact pairwise_pair.mpr ⟨(by decide : 5 < 7), hgrant rfl⟩

end VolumeControlState

end Mantissa
