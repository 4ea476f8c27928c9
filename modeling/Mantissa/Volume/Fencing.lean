import Mantissa.Volume.ControlInvariant

/-!
# Fencing

A fence stands for one copy set and at most one writer. Each transition either raises the fence or
leaves copies and writer alone (`Transition.fenceOrder`), so over a whole run two states with one
fence agree on both (`later_of_initialized`). Copy sets change only by a recovery, which selects
among the copies, and by an adoption, which swaps or adds one; either way two copies of the old set
stay.

`AppliedVolumeStateCell` is the local projection that requests are checked against. It refuses a
newer entry that falls behind in revision, fence, capacity or storage identity, which no later state
of a run does.
-/

namespace Mantissa.VolumeControlState

open VolumeDescriptor Finset

/-! ## One transition -/

/-- The fence rises, or it stays with the copies and the writer. -/
def FenceOrder (data data' : DataControlState) : Prop :=
  data.fence < data'.fence ∨
    data.fence = data'.fence ∧ data.copies = data'.copies ∧ data.writer = data'.writer

lemma FenceOrder.refl (data : DataControlState) : FenceOrder data data := .inr ⟨rfl, rfl, rfl⟩

variable {data data' : DataControlState}

lemma FenceOrder.trans {data'' : DataControlState} (h : FenceOrder data data')
    (h' : FenceOrder data' data'') : FenceOrder data data'' := by
  rcases h with h | ⟨hfence, hcopies, hwriter⟩
  · rcases h' with h' | ⟨hfence', -, -⟩
    · exact .inl (h.trans h')
    · exact .inl (h.trans_eq hfence')
  · rcases h' with h' | ⟨hfence', hcopies', hwriter'⟩
    · exact .inl (hfence.trans_lt h')
    · exact .inr ⟨hfence.trans hfence', hcopies.trans hcopies', hwriter.trans hwriter'⟩

lemma FenceOrder.fence_le (h : FenceOrder data data') : data.fence ≤ data'.fence := by
  rcases h with h | ⟨h, -, -⟩
  · exact h.le
  · exact h.le

lemma FenceOrder.eq_of_fence_eq (h : FenceOrder data data') (heq : data.fence = data'.fence) :
    data.copies = data'.copies ∧ data.writer = data'.writer := by
  rcases h with h | ⟨-, h⟩
  · exact absurd heq h.ne
  · exact h

variable {s s' : VolumeControlState} {command : VolumeCommand}

/-- An initialization is the only transition from a state without data. -/
lemma Valid.data_eq_none (hs : Valid s) (hnone : s.descriptor = none) : s.data = none := by
  cases hs with
  | uninitialized => rfl
  | initialized _ _ => cases hnone

lemma Valid.two_le_card (hs : Valid s) (hdata : s.data = some data) :
    2 ≤ data.copies.card ∧ data.copies.card ≤ 3 := by
  cases hs with
  | uninitialized => cases hdata
  | initialized _ hgrants =>
    cases hdata
    exact hgrants.copies

variable {recovery : RecoveryGrant}

lemma Valid.recovery_source (hs : Valid s)
    (hdata : s.data = some data) (hgranted : data.recovery = some recovery) :
    recovery.sourceNodeId ∈ data.copies := by
  cases hs with
  | uninitialized => cases hdata
  | initialized _ hgrants =>
    cases hdata
    exact (checkStoredRecovery_eq_ok.mp (hgrants.recovery recovery hgranted)).2.2.2.1

variable (h : Transition s command s')

include h

/-- **Every transition raises the fence or leaves copies and writer alone.** -/
theorem Transition.fenceOrder (hs : Valid s)
    (hdata : s.data = some data) (hdata' : s'.data = some data') : FenceOrder data data' := by
  cases h with
  | initializeVolume hnone hcard =>
    rw [hs.data_eq_none hnone] at hdata
    cases hdata
  | restore | cancelReplacement =>
    rw [hdata] at hdata'
    cases hdata'
    exact .refl _
  | expand | beginReplacement =>
    cases hdata
    cases hdata'
    exact .refl _
  | revokeRecovery hrecovery =>
    cases hdata
    cases hdata'
    exact .inr ⟨rfl, rfl, rfl⟩
  | retain hfence | grantWriter _ _ hfence | fenceWriter _ hfence | beginRecovery _ hfence
  | adoptReplacement _ _ hfence =>
    cases hdata
    cases hdata'
    exact .inl (FenceEpoch.lt_of_next hfence)

/-- Copies change by a recovery or an adoption only. -/
lemma Transition.copies_cases (hs : Valid s)
    (hdata : s.data = some data) (hdata' : s'.data = some data') :
    data'.copies = data.copies ∨ data'.copies ⊆ data.copies ∨
      data'.copies.card = 3 ∧ ∃ replacement : ReplacementGrant,
        copiesAfterReplacement data.copies replacement = data'.copies := by
  cases h with
  | initializeVolume hnone hcard =>
    rw [hs.data_eq_none hnone] at hdata
    cases hdata
  | beginRecovery hrequested hfence =>
    cases hdata
    cases hdata'
    exact .inr (.inl (checkRequestedRecovery_eq_ok.mp hrequested).2.2.2)
  | @adoptReplacement _ _ _ replacement _ _ hfinished hwriter hfence =>
    cases hdata
    cases hdata'
    obtain ⟨hcard, -, hcopies⟩ := finishedCopies_iff.mp hfinished
    exact .inr (.inr ⟨hcard, replacement, hcopies⟩)
  | restore | cancelReplacement =>
    rw [hdata] at hdata'
    cases hdata'
    exact .inl rfl
  | _ =>
    cases hdata
    cases hdata'
    exact .inl rfl

omit h in
/-- A replacement adds one node at most. -/
lemma card_inter_copiesAfterReplacement (current : Finset VolumeNodeId)
    (replacement : ReplacementGrant) : (copiesAfterReplacement current replacement).card ≤
      (current ∩ copiesAfterReplacement current replacement).card + 1 := by
  have hsubset : copiesAfterReplacement current replacement ⊆
      insert replacement.newNodeId (current ∩ copiesAfterReplacement current replacement) := by
    intro node hnode
    rw [mem_insert, mem_inter]
    by_cases hnew : node = replacement.newNodeId
    · exact .inl hnew
    · refine .inr ⟨?_, hnode⟩
      rw [copiesAfterReplacement, mem_insert] at hnode
      have hrest := hnode.resolve_left hnew
      cases hold : replacement.oldNodeId with
      | none => rwa [hold] at hrest
      | some old =>
        rw [hold] at hrest
        exact mem_of_mem_erase hrest
  exact (card_le_card hsubset).trans (card_insert_le _ _)

/-- **Two copies survive every transition.** -/
theorem Transition.two_le_card_inter (hs : Valid s)
    (hdata : s.data = some data) (hdata' : s'.data = some data') :
    2 ≤ (data.copies ∩ data'.copies).card := by
  have hcard := hs.two_le_card hdata
  have hcard' := (hs.transition h).two_le_card hdata'
  rcases h.copies_cases hs hdata hdata' with heq | hsubset | ⟨hthree, replacement, hadopted⟩
  · rw [heq, inter_self]
    exact hcard.1
  · rw [inter_eq_right.mpr hsubset]
    exact hcard'.1
  · have hone := card_inter_copiesAfterReplacement data.copies replacement
    rw [hadopted, hthree] at hone
    omega

/-- A recovery that a transition grants takes its data from a copy that was and stays one. -/
lemma Transition.recovery_source (hs : Valid s) (hdata' : s'.data = some data')
    (hgranted : data'.recovery = some recovery) :
    ∃ data, s.data = some data ∧ recovery.sourceNodeId ∈ data'.copies ∧
      (data.recovery = some recovery ∨ recovery.sourceNodeId ∈ data.copies) := by
  have hstored := (hs.transition h).recovery_source hdata' hgranted
  cases h with
  | beginRecovery hrequested hfence =>
    cases hdata'
    cases hgranted
    obtain ⟨-, -, hmember, hsubset⟩ := checkRequestedRecovery_eq_ok.mp hrequested
    exact ⟨_, rfl, hstored, .inr (hsubset hmember)⟩
  | initializeVolume | retain | grantWriter | revokeRecovery =>
    cases hdata'
    cases hgranted
  | restore | cancelReplacement => exact ⟨data', hdata', hstored, .inl hgranted⟩
  | expand | fenceWriter | beginReplacement | adoptReplacement =>
    cases hdata'
    exact ⟨_, rfl, hstored, .inl hgranted⟩

/-- A replacement grant comes from a copy of the state it was granted in. -/
lemma Transition.replacement_source (hs : Valid s)
    {grant : ReplacementGrant} (hgranted : s'.replacement = some grant) :
    s.replacement = some grant ∨ ∃ data, s.data = some data ∧ grant.sourceNodeId ∈ data.copies := by
  cases h with
  | beginReplacement hrecovery hgrant =>
    cases hgranted
    exact .inr ⟨_, rfl, (checkReplacementGrant_eq_ok.mp hgrant).2.1⟩
  | restore | fenceWriter | revokeRecovery => exact .inl hgranted
  | _ => cases hgranted

/-! ## A whole run -/

/-- One storage identity, and no smaller capacity. -/
def DescriptorOrder (descriptor descriptor' : VolumeDescriptor) : Prop :=
  descriptor'.hasSameStorageIdentity descriptor = true ∧
    descriptor.capacity ≤ descriptor'.capacity

omit h in
lemma DescriptorOrder.refl (descriptor : VolumeDescriptor) :
    DescriptorOrder descriptor descriptor :=
  ⟨hasSameStorageIdentity_iff.mpr ⟨rfl, rfl, rfl⟩, le_rfl⟩

omit h in
lemma DescriptorOrder.trans {d d' d'' : VolumeDescriptor} (h : DescriptorOrder d d')
    (h' : DescriptorOrder d' d'') : DescriptorOrder d d'' := by
  obtain ⟨hid, hgeneration, hsizes⟩ := hasSameStorageIdentity_iff.mp h.1
  obtain ⟨hid', hgeneration', hsizes'⟩ := hasSameStorageIdentity_iff.mp h'.1
  exact ⟨hasSameStorageIdentity_iff.mpr
    ⟨hid'.trans hid, hgeneration'.trans hgeneration, hsizes'.trans hsizes⟩, h.2.trans h'.2⟩

variable {descriptor : VolumeDescriptor}

/-- Capacity only grows, and nothing else of a descriptor changes. -/
lemma Transition.descriptorOrder (hd : s.descriptor = some descriptor) :
    ∃ descriptor', s'.descriptor = some descriptor' ∧ DescriptorOrder descriptor descriptor' := by
  cases h with
  | initializeVolume hnone hcard =>
    rw [hnone] at hd
    cases hd
  | expand hrecovery hcapacity hbuilt =>
    cases hd
    obtain ⟨hid, hgeneration, hnew, hsizes⟩ := new_eq_ok hbuilt
    exact ⟨_, rfl, hasSameStorageIdentity_iff.mpr ⟨hid, hgeneration, hsizes⟩,
      hcapacity.trans_eq hnew.symm⟩
  | _ =>
    cases hd
    exact ⟨_, rfl, .refl _⟩

omit h

/-- What a later state of a run has of an earlier, initialized one. -/
structure Later (descriptor : VolumeDescriptor) (data : DataControlState) (revision : ℕ)
    (t : VolumeControlState) : Prop where
  revision_le : revision ≤ t.revision
  descriptor_later : ∃ descriptor', t.descriptor = some descriptor' ∧
    DescriptorOrder descriptor descriptor'
  data_later : ∃ data', t.data = some data' ∧ FenceOrder data data'

/-- **Later states of a run.** -/
theorem later_of_initialized {s t : VolumeControlState} (hs : Valid s)
    (h : Reaches step anyStep s t)
    (hd : s.descriptor = some descriptor) (hdata : s.data = some data) :
    Later descriptor data s.revision t := by
  refine (h.invariant (P := fun t => Valid t ∧ Later descriptor data s.revision t)
    ⟨hs, le_rfl, ⟨descriptor, hd, .refl _⟩, ⟨data, hdata, .refl _⟩⟩ ?_).2
  rintro x y command ⟨hx, hrevision, ⟨d, hxd, hdorder⟩, ⟨xdata, hxdata, horder⟩⟩ _ hstep
  rcases step_cases hstep with rfl | htransition
  · exact ⟨hx, hrevision, ⟨d, hxd, hdorder⟩, ⟨xdata, hxdata, horder⟩⟩
  have hy := hx.transition htransition
  obtain ⟨d', hyd, hdorder'⟩ := htransition.descriptorOrder hxd
  obtain ⟨ydata, hydata⟩ := Option.isSome_iff_exists.mp (hy.data_isSome (by rw [hyd]; rfl))
  refine ⟨hy, ?_, ⟨d', hyd, hdorder.trans hdorder'⟩,
    ⟨ydata, hydata, horder.trans (htransition.fenceOrder hx hxdata hydata)⟩⟩
  rw [htransition.revision_eq hx]
  exact Nat.le_succ_of_le hrevision

end Mantissa.VolumeControlState
