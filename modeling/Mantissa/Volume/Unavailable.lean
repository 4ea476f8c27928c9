import Mantissa.Volume.ControlInvariant

/-!
# When a failing replica is confirmed unavailable

A node that is observed as failing is confirmed once it has been observed for the grace period. One
map keeps, for all volumes, since when: a call forgets the nodes it does not observe, and starts
anew where the replacement with the node as target has changed.

An entry of the map stands for the latest calls for its volume as far back as all of them observed
the node under one replacement (`since_iff`).
-/

namespace Mantissa

structure ReplicaKey where
  volumeId : VolumeId
  generation : VolumeGeneration
  deriving DecidableEq

structure ReplicaFailureObservation where
  since : ℕ
  replacementId : Option ReplacementId
  deriving DecidableEq

abbrev ReplicaFailureObservations := ReplicaKey → VolumeNodeId → Option ReplicaFailureObservation

/-- The arguments of `confirm_unavailable`. -/
structure ConfirmCall where
  key : ReplicaKey
  observed : Finset VolumeNodeId
  replacement : Option ReplacementGrant
  now : ℕ
  grace : ℕ

namespace ConfirmCall

variable (call : ConfirmCall) (node : VolumeNodeId)

/-- The grant under which the node is the target. -/
def replacementId : Option ReplacementId :=
  (call.replacement.filter fun grant => decide (grant.newNodeId = node)).map ReplacementGrant.id

/-- What a call that observes a node makes of its entry. -/
def observe (saved : Option ReplicaFailureObservation) : ReplicaFailureObservation :=
  let observation := saved.getD ⟨call.now, call.replacementId node⟩
  if observation.replacementId ≠ call.replacementId node then ⟨call.now, call.replacementId node⟩
  else observation

/-- `confirm_unavailable`: the map it leaves, and the nodes it returns. -/
def confirmUnavailable (firstSeen : ReplicaFailureObservations) :
    ReplicaFailureObservations × Finset VolumeNodeId :=
  let retained : ReplicaFailureObservations := fun key node =>
    if key ≠ call.key ∨ node ∈ call.observed then firstSeen key node else none
  let updated : ReplicaFailureObservations := fun key node =>
    if key = call.key ∧ node ∈ call.observed then some (call.observe node (retained key node))
    else retained key node
  (updated, call.observed.filter fun node => (updated call.key node).any fun observation =>
    decide (call.grace ≤ call.now - observation.since))

/-- The call observes the node under this replacement. -/
def Observes (id : Option ReplacementId) : Prop :=
  node ∈ call.observed ∧ call.replacementId node = id

end ConfirmCall

open ConfirmCall List

/-- The map after calls. -/
def observationsAfter (calls : List ConfirmCall) : ReplicaFailureObservations :=
  calls.foldl (fun firstSeen call => (call.confirmUnavailable firstSeen).1) fun _ _ => none

variable {calls : List ConfirmCall} {call : ConfirmCall} {key : ReplicaKey} {node : VolumeNodeId}

lemma observationsAfter_concat : observationsAfter (calls ++ [call]) key node =
    if key = call.key then
      if node ∈ call.observed then some (call.observe node (observationsAfter calls key node))
        else none
    else observationsAfter calls key node := by
  simp only [observationsAfter, foldl_concat, confirmUnavailable]
  split_ifs <;> simp_all

lemma observe_spec (call : ConfirmCall) (node : VolumeNodeId) (saved) :
    (call.observe node saved).replacementId = call.replacementId node ∧
      ((call.observe node saved).since = call.now ∨ saved = some (call.observe node saved)) := by
  simp only [observe]
  cases saved with
  | none => simp
  | some observation =>
    split_ifs with hid
    · exact ⟨rfl, .inl rfl⟩
    · exact ⟨not_not.mp hid, .inr rfl⟩

lemma since_mem {observation : ReplicaFailureObservation}
    (h : observationsAfter calls key node = some observation) :
    ∃ call ∈ calls, call.now = observation.since := by
  induction calls using List.reverseRecOn with
  | nil => cases h
  | append_singleton calls call ih =>
    have hearlier : observationsAfter calls key node = some observation →
        ∃ other ∈ calls ++ [call], other.now = observation.since := fun h => by
      obtain ⟨other, hother, hnow⟩ := ih h
      exact ⟨other, mem_append_left _ hother, hnow⟩
    rw [observationsAfter_concat] at h
    split_ifs at h
    · cases h
      rcases (observe_spec call node _).2 with hnow | hsaved
      · exact ⟨call, mem_append_right _ mem_cons_self, hnow.symm⟩
      · exact hearlier hsaved
    · exact hearlier h

lemma observe_since_le (hsorted : (calls ++ [call]).Pairwise fun a b => a.now ≤ b.now) :
    (call.observe node (observationsAfter calls key node)).since ≤ call.now := by
  rcases (observe_spec call node (observationsAfter calls key node)).2 with hsince | hsaved
  · exact hsince.le
  · obtain ⟨earlier, hearlier, heq⟩ := since_mem hsaved
    exact heq ▸ (pairwise_append.mp hsorted).2.2 earlier hearlier call mem_cons_self

/-- **How far an entry reaches back.** -/
lemma since_iff (hsorted : calls.Pairwise fun a b => a.now ≤ b.now) {id : Option ReplacementId}
    {grace t : ℕ} :
    (∃ observation, observationsAfter calls key node = some observation ∧
      observation.replacementId = id ∧ observation.since + grace ≤ t) ↔
    ∃ streak, streak <:+ calls.filter (fun call => decide (call.key = key)) ∧
      (∀ call ∈ streak, call.Observes node id) ∧ ∃ call ∈ streak, call.now + grace ≤ t := by
  induction calls using List.reverseRecOn with
  | nil => simp [observationsAfter]
  | append_singleton calls call ih =>
    specialize ih (pairwise_append.mp hsorted).1
    rw [observationsAfter_concat, filter_append]
    by_cases hkey : call.key = key
    · subst hkey
      rw [if_pos rfl, filter_singleton, decide_eq_true rfl, cond_true]
      obtain ⟨hid, hsince⟩ := observe_spec call node (observationsAfter calls call.key node)
      constructor
      · rintro ⟨observation, hobservation, rfl, ht⟩
        split_ifs at hobservation with hnode
        cases hobservation
        have hcall : call.Observes node _ := ⟨hnode, hid.symm⟩
        rcases hsince with hsince | hsaved
        · exact ⟨[call], suffix_append _ _, by simpa using hcall, call, by simp, hsince ▸ ht⟩
        · obtain ⟨streak, hsuffix, hall, other, hother, hnow⟩ := ih.mp ⟨_, hsaved, rfl, ht⟩
          refine ⟨streak ++ [call], suffix_concat_iff.mpr (.inr ⟨streak, rfl, hsuffix⟩), ?_, other,
            mem_append_left _ hother, hnow⟩
          intro later hlater
          rcases mem_append.mp hlater with hlater | hlater
          · exact hall later hlater
          · rw [mem_singleton.mp hlater]
            exact hcall
      · rintro ⟨streak, hsuffix, hall, other, hother, hnow⟩
        rcases suffix_concat_iff.mp hsuffix with rfl | ⟨streak, rfl, hrest⟩
        · cases hother
        have hcall := hall call (mem_append_right _ mem_cons_self)
        rw [if_pos hcall.1]
        refine ⟨_, rfl, hid.trans hcall.2, ?_⟩
        rcases mem_append.mp hother with hother | hother
        · obtain ⟨observation, hsaved, hsame, ht⟩ := ih.mpr ⟨streak, hrest,
            fun other hother => hall other (mem_append_left _ hother), other, hother, hnow⟩
          have hkept : call.observe node (some observation) = observation := by
            simp [observe, hsame, hcall.2]
          rw [hsaved, hkept]
          exact ht
        · obtain rfl := mem_singleton.mp hother
          exact (Nat.add_le_add_right (observe_since_le hsorted) grace).trans hnow
    · simpa [hkey, Ne.symm hkey] using ih

/-- **A node is confirmed exactly when the latest calls for the volume, back to one that is the
grace period ago, all observed it under its present replacement**, and other volumes keep their
entries. -/
theorem unavailable_iff (hsorted : (calls ++ [call]).Pairwise fun a b => a.now ≤ b.now) :
    (∀ node, node ∈ (call.confirmUnavailable (observationsAfter calls)).2 ↔
      ∃ streak, streak <:+ (calls ++ [call]).filter (fun other => decide (other.key = call.key)) ∧
        (∀ other ∈ streak, other.Observes node (call.replacementId node)) ∧
        ∃ other ∈ streak, other.now + call.grace ≤ call.now) ∧
    ∀ key ≠ call.key, (call.confirmUnavailable (observationsAfter calls)).1 key =
      observationsAfter calls key := by
  refine ⟨fun node => ?_, fun key hkey => funext fun node => ?_⟩
  · rw [← since_iff hsorted, observationsAfter_concat, if_pos rfl]
    have hid := (observe_spec call node (observationsAfter calls call.key node)).1
    have hle : (call.observe node (observationsAfter calls call.key node)).since ≤ call.now :=
      observe_since_le hsorted
    by_cases hnode : node ∈ call.observed
    · simp [confirmUnavailable, hnode, hid]
      omega
    · simp [confirmUnavailable, hnode]
  · simp [confirmUnavailable, hkey]

def sampleCall (now : ℕ) : ConfirmCall :=
  ⟨⟨VolumeControlState.sampleIdentity .volume 0, ⟨1, Nat.one_pos, one_le_u64Max⟩⟩,
    {VolumeControlState.sampleIdentity .volumeNode 1}, none, now, 10⟩

/-- A node that two calls observe, as far apart as the grace period. -/
theorem unavailable_after_grace : VolumeControlState.sampleIdentity .volumeNode 1 ∈
    ((sampleCall 10).confirmUnavailable (observationsAfter [sampleCall 0])).2 :=
  ((unavailable_iff (by simp [sampleCall])).1 _).mpr ⟨[sampleCall 0, sampleCall 10],
    by simp [sampleCall], by simp [Observes, sampleCall, replacementId], by simp [sampleCall]⟩

end Mantissa
