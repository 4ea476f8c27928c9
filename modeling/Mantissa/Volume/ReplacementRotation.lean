import Mantissa.Volume.ControlInvariant

/-!
# Which node a replacement tries next

A replacement that fails is cancelled, and the next attempt takes the candidate at half the control
revision. From one attempt to the next the revision rises by two, and by one for every other
command that is applied. So the attempts go round the candidates in a fixed stride, which comes to
all of them if and only if it has no divisor above two in common with twice their number
(`halves_cover_iff`).
-/

namespace Mantissa

open Nat Option List

/-- `rotating_replacement_candidate`. -/
def rotatingReplacementCandidate (candidates : List VolumeNodeId) (controlRevision : ℕ) :
    Option VolumeNodeId :=
  if candidates.length = 0 then none
  else candidates[controlRevision / 2 % candidates.length]?

namespace VolumeControlState

/-- The state after a command that was applied. -/
def applied (s : VolumeControlState) (command : VolumeCommand) : Option VolumeControlState :=
  (s.evaluate command).bind fun plan =>
    match plan.response with
    | .applied _ _ => some plan.state
    | _ => none

/-- A replacement that begins and is cancelled, and the other commands before and in it. -/
structure FailedReplacement where
  before : List VolumeCommand
  beginAt : ExpectedVolumeRevision
  grant : ReplacementGrant
  during : List VolumeCommand
  cancelAt : ExpectedVolumeRevision

/-- A failed replacement whose target is the selected candidate. -/
def failReplacement (candidates : List VolumeNodeId) (s : VolumeControlState)
    (cycle : FailedReplacement) : Option VolumeControlState := do
  let s ← cycle.before.foldlM applied s
  if rotatingReplacementCandidate candidates s.revision = some cycle.grant.newNodeId then
    let s ← s.applied (.beginReplacement cycle.beginAt cycle.grant)
    let s ← cycle.during.foldlM applied s
    s.applied (.cancelReplacement cycle.cancelAt cycle.grant.id)
  else none

/-! ## Revisions -/

variable {s s' : VolumeControlState} {candidates : List VolumeNodeId}

lemma applied_spec {command : VolumeCommand} (hs : Valid s) (h : s.applied command = some s') :
    Valid s' ∧ s'.revision = s.revision + 1 := by
  obtain ⟨plan, hplan, hresponse⟩ := bind_eq_some_iff.mp h
  rcases evaluate_spec hplan with ⟨-, hnot⟩ | ⟨t, htransition, rfl⟩
  · split at hresponse
    case h_1 revision fence heq => exact absurd heq (hnot revision fence)
    case h_2 => cases hresponse
  · cases hresponse
    exact ⟨hs.transition htransition, htransition.revision_eq hs⟩

lemma foldlM_applied_spec {commands : List VolumeCommand} (hs : Valid s)
    (h : commands.foldlM applied s = some s') :
    Valid s' ∧ s'.revision = s.revision + commands.length := by
  induction commands generalizing s with
  | nil =>
    cases h
    exact ⟨hs, rfl⟩
  | cons command commands ih =>
    obtain ⟨t, ht, hrest⟩ := bind_eq_some_iff.mp h
    obtain ⟨hvalid, hrevision⟩ := applied_spec hs ht
    obtain ⟨hvalid', hrevision'⟩ := ih hvalid hrest
    exact ⟨hvalid', by rw [hrevision', hrevision, length_cons]; omega⟩

lemma failReplacement_spec {cycle : FailedReplacement} (hs : Valid s)
    (h : failReplacement candidates s cycle = some s') :
    Valid s' ∧ s'.revision = s.revision + (cycle.before.length + cycle.during.length + 2) ∧
      candidates[(s.revision + cycle.before.length) / 2 % candidates.length]? =
        some cycle.grant.newNodeId := by
  obtain ⟨s₁, hbefore, h⟩ := bind_eq_some_iff.mp h
  obtain ⟨hvalid₁, hrevision₁⟩ := foldlM_applied_spec hs hbefore
  split_ifs at h with hselected
  obtain ⟨s₂, hbegin, h⟩ := bind_eq_some_iff.mp h
  obtain ⟨hvalid₂, hrevision₂⟩ := applied_spec hvalid₁ hbegin
  obtain ⟨s₃, hduring, hcancel⟩ := bind_eq_some_iff.mp h
  obtain ⟨hvalid₃, hrevision₃⟩ := foldlM_applied_spec hvalid₂ hduring
  obtain ⟨hvalid', hrevision'⟩ := applied_spec hvalid₃ hcancel
  rw [rotatingReplacementCandidate] at hselected
  split_ifs at hselected
  exact ⟨hvalid', by omega, hrevision₁ ▸ hselected⟩

variable {before during : ℕ} {cycles : List FailedReplacement}

/-- The targets stand at equal distances. -/
lemma target_eq (hs : Valid s) (h : cycles.foldlM (failReplacement candidates) s = some s')
    (hpattern : ∀ cycle ∈ cycles, cycle.before.length = before ∧ cycle.during.length = during)
    {i : ℕ} {cycle : FailedReplacement} (hcycle : cycles[i]? = some cycle) :
    candidates[(s.revision + before + i * (before + during + 2)) / 2 % candidates.length]? =
      some cycle.grant.newNodeId := by
  induction cycles generalizing s i with
  | nil => cases hcycle
  | cons first cycles ih =>
    obtain ⟨t, ht, hrest⟩ := bind_eq_some_iff.mp h
    obtain ⟨hvalid, hrevision, hselected⟩ := failReplacement_spec hs ht
    obtain ⟨hbefore, hduring⟩ := hpattern first mem_cons_self
    rw [hbefore, hduring] at hrevision
    cases i with
    | zero =>
      cases hcycle
      rw [zero_mul, add_zero, ← hbefore]
      exact hselected
    | succ i =>
      have hlater := ih hvalid hrest (fun cycle hmem =>
          hpattern cycle (mem_cons_of_mem _ hmem)) hcycle
      rw [hrevision] at hlater
      rw [← hlater]
      congr 3
      ring

/-! ## Strides -/

/-- The halves of the numbers in a stride have all remainders if and only if the stride has no
divisor above two in common with twice the modulus. -/
lemma halves_cover_iff (start stride : ℕ) {n m : ℕ} (hn : 0 < n) (hm : 2 * n ≤ m) :
    (∀ c < n, ∃ i < m, (start + i * stride) / 2 % n = c) ↔ stride.gcd (2 * n) ≤ 2 := by
  have hhalf : ∀ x, x / 2 % n = x % (2 * n) / 2 := fun x => (mod_mul_right_div_self x 2 n).symm
  constructor
  · intro hall
    -- All the numbers have one remainder modulo the common divisor.
    have hsame : ∀ c < n, ∃ x, x / 2 = c ∧ x ≡ start [MOD stride.gcd (2 * n)] := by
      intro c hc
      obtain ⟨i, -, hi⟩ := hall c hc
      rw [hhalf] at hi
      refine ⟨_, hi, ((Nat.mod_modEq _ _).of_dvd (Nat.gcd_dvd_right _ _)).trans ?_⟩
      exact (Nat.modEq_zero_iff_dvd.mpr ((Nat.gcd_dvd_left _ _).mul_left i)).add_left start
    by_contra! hlarge
    have hdvd := Nat.gcd_dvd_right stride (2 * n)
    generalize stride.gcd (2 * n) = g at *
    have hle := le_of_dvd (by omega) hdvd
    obtain ⟨x, hx, hxg⟩ := hsame 0 hn
    obtain ⟨y, hy, hyg⟩ := hsame 1 (by omega)
    have hle' := le_of_dvd (by omega) ((modEq_iff_dvd' (by omega)).mp (hxg.trans hyg.symm))
    -- Only three divides a difference of numbers with halves 0 and 1, and then there is a third
    -- half.
    obtain rfl : g = 3 := by omega
    obtain ⟨z, hz, hzg⟩ := hsame 2 (by omega)
    unfold Nat.ModEq at hxg hyg hzg
    omega
  · intro hsmall c hc
    -- The number with half `c` that is even or odd as the start is.
    have hdvd : ((stride.gcd (2 * n) : ℕ) : ℤ) ∣ 2 * c + start % 2 - start := by
      have hpos := gcd_pos_of_pos_right stride (show 0 < 2 * n by omega)
      obtain hone | htwo : stride.gcd (2 * n) = 1 ∨ stride.gcd (2 * n) = 2 := by omega
      · exact hone ▸ one_dvd _
      · rw [htwo]
        omega
    obtain ⟨k, hk⟩ := hdvd
    rw [gcd_eq_gcd_ab] at hk
    generalize stride.gcdA (2 * n) = a, stride.gcdB (2 * n) = b at hk
    have hnonneg := Int.emod_nonneg (a * k) (show ((2 * n : ℕ) : ℤ) ≠ 0 by omega)
    have hlt := Int.emod_lt_of_pos (a * k) (show 0 < ((2 * n : ℕ) : ℤ) by omega)
    obtain ⟨i, hi⟩ := Int.eq_ofNat_of_zero_le hnonneg
    refine ⟨i, by omega, ?_⟩
    have hmod : start + i * stride ≡ 2 * c + start % 2 [MOD 2 * n] := by
      rw [← Int.natCast_modEq_iff, cast_add, cast_mul i, ← hi]
      refine (((Int.mod_modEq _ _).mul_right _).add_left _).trans
        (Int.modEq_iff_dvd.mpr ⟨b * k, ?_⟩)
      push_cast
      push_cast at hk
      linear_combination hk
    rw [hhalf, hmod, mod_eq_of_lt (by omega)]
    omega

/-- **Repeated attempts try every candidate if and only if the stride of the revision allows it.**
-/
theorem every_candidate_tried_iff (before during : ℕ) (hreach : Reaches step anyStep default s)
    (hne : candidates ≠ []) (hnodup : candidates.Nodup)
    (hpattern : ∀ cycle ∈ cycles, cycle.before.length = before ∧ cycle.during.length = during)
    (hrun : cycles.foldlM (failReplacement candidates) s = some s')
    (hlong : 2 * candidates.length ≤ cycles.length) :
    (∀ node ∈ candidates, ∃ cycle ∈ cycles, cycle.grant.newNodeId = node) ↔
      (before + during + 2).gcd (2 * candidates.length) ≤ 2 := by
  have htarget := @target_eq _ _ _ _ _ _ (valid_of_reaches .uninitialized hreach) hrun hpattern
  rw [← halves_cover_iff (s.revision + before) _ (length_pos_of_ne_nil hne) hlong]
  constructor
  · intro hall c hc
    obtain ⟨cycle, hcycle, hnode⟩ := hall candidates[c] (getElem_mem hc)
    obtain ⟨i, hi, rfl⟩ := getElem_of_mem hcycle
    refine ⟨i, hi, ?_⟩
    have heq := htarget (getElem?_eq_getElem hi)
    rw [hnode, ← getElem?_eq_getElem hc] at heq
    exact ((getElem?_inj hc hnodup).mp heq.symm).symm
  · intro hall node hnode
    obtain ⟨c, hc, rfl⟩ := getElem_of_mem hnode
    obtain ⟨i, hi, hic⟩ := hall c hc
    refine ⟨cycles[i], getElem_mem hi, ?_⟩
    have heq := htarget (getElem?_eq_getElem hi)
    rw [hic, getElem?_eq_getElem hc] at heq
    exact (Option.some.inj heq).symm

def sampleExpected (revision : ℕ) : ExpectedVolumeRevision :=
  ⟨⟨1, Nat.one_pos, one_le_u64Max⟩, revision⟩

/-- An attempt to replace the third node, after the other commands. -/
def sampleAttempt (before : List VolumeCommand) (node : Fin 100) (revision : ℕ) :
    FailedReplacement :=
  ⟨before, sampleExpected revision, ⟨sampleIdentity .replacement 0, sampleIdentity .volumeNode 0,
    some (sampleIdentity .volumeNode 2), sampleIdentity .volumeNode node,
    sampleIdentity .volumeNode 0⟩, [], sampleExpected (revision + 1)⟩

def sampleCandidates : List VolumeNodeId :=
  [sampleIdentity .volumeNode 3, sampleIdentity .volumeNode 4]

/-- Attempts without other commands, on both candidates in turn. -/
def sampleAttempts : List FailedReplacement :=
  [sampleAttempt [] 3 1, sampleAttempt [] 4 3, sampleAttempt [] 3 5, sampleAttempt [] 4 7]

/-- Attempts that each follow a writer that came and went. -/
def sampleFencedAttempts : List FailedReplacement :=
  [1, 5, 9, 13].map fun revision => sampleAttempt
    [.grantWriter (sampleExpected revision) sampleWriter,
      .fenceWriter (sampleExpected (revision + 1)) sampleWriter] 4 (revision + 2)

theorem both_candidates_tried : ∃ s s', Reaches step anyStep default s ∧
    sampleAttempts.foldlM (failReplacement sampleCandidates) s = some s' ∧
    ∀ node ∈ sampleCandidates, ∃ cycle ∈ sampleAttempts, cycle.grant.newNodeId = node := by
  have hreach : Reaches step anyStep default _ :=
    reaches_of_runActions [.initializeVolume sampleDescriptor sampleCopies] rfl
  exact ⟨_, _, hreach, rfl, (every_candidate_tried_iff 0 0 hreach (by decide)
    (by decide) (by decide) rfl (by decide)).mpr (by decide)⟩

/-- With four revisions to a cycle the second of two candidates is tried again and again. -/
theorem second_candidate_tried_again : ∃ s s', Reaches step anyStep default s ∧
    sampleFencedAttempts.foldlM (failReplacement sampleCandidates) s = some s' ∧
    2 * sampleCandidates.length ≤ sampleFencedAttempts.length ∧
    ¬ ∀ node ∈ sampleCandidates, ∃ cycle ∈ sampleFencedAttempts, cycle.grant.newNodeId = node := by
  exact ⟨_, _, reaches_of_runActions [.initializeVolume sampleDescriptor sampleCopies] rfl, rfl,
    by decide, by decide +kernel⟩

end VolumeControlState

end Mantissa
