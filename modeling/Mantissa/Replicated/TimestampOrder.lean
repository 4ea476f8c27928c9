import Mantissa.Replicated.Guarded
import Mantissa.Replicated.VolumeNodes

/-!
# Time stamps that do not parse

Replicated time stamps are compared as instants if both parse and as texts otherwise. The order of
instants is not the order of texts where offsets differ, so a text that does not parse may lie above
one valid time stamp and below another that is no later: the three compare in a circle.

That is the only way (`totalOn_compareParsedOrRaw_iff`). Where no such text is among them, the
comparison is total, and so is every precedence and rank that has it as one link of its chain; then
the maximum does not depend on the order in which the rows are scanned.
-/

namespace Mantissa.Volumes

open VolumeSpecValue

/-- `VolumeStatus`. -/
inductive VolumeStatus
  | pending | bound | ready | inUse | retaining | retained | restoring | failed | deleted

/-- `ReplicatedVolumeGroupStatusValue`. -/
structure ReplicatedVolumeGroupStatusValue where
  id : Uuid
  volumeId : Uuid
  volumeEpoch : ℕ
  groupId : Uuid
  reporterNodeId : Uuid
  status : VolumeStatus
  committedIndex : ℕ
  leaderNodeId : Option Uuid
  attachedNodeId : Option Uuid
  updatedAt : String
  message : Option String
  controlRevision : ℕ
  replicatedCapacityBytes : ℕ
  fence : Option ℕ
  copyNodeIds : List Uuid
  voterNodeIds : List Uuid
  replacementId : Option Uuid
  replacementOldNodeId : Option Uuid
  replacementNewNodeId : Option Uuid
  degraded : Bool

/-- `ReplicatedVolumeCapacityRequest`. -/
structure ReplicatedVolumeCapacityRequest where
  id : Uuid
  volumeId : Uuid
  volumeEpoch : ℕ
  revision : ℕ
  requestId : Uuid
  targetCapacityBytes : ℕ
  updatedAt : String

variable (parseTimestamp : String → Option ℕ)

/-- `ReplicatedVolumeGroupStatusValue::precedence_cmp` and the order of its rank. -/
def ReplicatedVolumeGroupStatusValue.precedenceCmp [LinearOrder ReplicatedVolumeGroupStatusValue]
    (self other : ReplicatedVolumeGroupStatusValue) : Ordering :=
  (compare self.volumeEpoch other.volumeEpoch).then <|
  (compare self.committedIndex other.committedIndex).then <|
  (compareVolumeTimestamps parseTimestamp self.updatedAt other.updatedAt).then <|
  (compare self.status.ctorIdx other.status.ctorIdx).then <|
  (compare self.leaderNodeId other.leaderNodeId).then <|
  (compare self.attachedNodeId other.attachedNodeId).then <|
  ordCmp other self

/-- `ReplicatedVolumeCapacityRequest::precedence_cmp`. -/
def ReplicatedVolumeCapacityRequest.precedenceCmp [LinearOrder ReplicatedVolumeCapacityRequest]
    (self other : ReplicatedVolumeCapacityRequest) : Ordering :=
  (compare self.volumeEpoch other.volumeEpoch).then <|
  (compare self.revision other.revision).then <|
  (compare self.requestId other.requestId).then <|
  (compareVolumeTimestamps parseTimestamp self.updatedAt other.updatedAt).then <|
  ordCmp other self

/-- Valid texts around one that does not parse are in the order of their instants. -/
def Separated (texts : List String) : Prop :=
  ∀ a ∈ texts, ∀ m ∈ texts, ∀ b ∈ texts, parseTimestamp m = none → a ≤ m → m ≤ b →
    ∀ s t, parseTimestamp a = some s → parseTimestamp b = some t → s < t

lemma compareParsedOrRaw_ne_gt {a b : String} : compareParsedOrRaw parseTimestamp a b ≠ .gt ↔
    match parseTimestamp a, parseTimestamp b with
    | some s, some t => s ≤ t
    | _, _ => a ≤ b := by
  unfold compareParsedOrRaw
  cases parseTimestamp a <;> cases parseTimestamp b <;> exact compare_le_iff_le

/-- **When time stamps are totally ordered.** -/
lemma totalOn_compareParsedOrRaw_iff {texts : List String} :
    TotalOn (compareParsedOrRaw parseTimestamp) texts ↔ Separated parseTimestamp texts := by
  constructor
  · intro h a ha m hm b hb hmalformed ham hmb s t hs ht
    have htrans := h.trans b hb a ha m hm
    simp only [compareParsedOrRaw_ne_gt, hs, ht, hmalformed] at htrans
    by_contra hle
    obtain rfl := hmb.antisymm (htrans (not_lt.mp hle) ham)
    rw [hmalformed] at ht
    cases ht
  · intro h
    refine ⟨fun a _ b _ => compareParsedOrRaw_swap parseTimestamp a b, ?_⟩
    intro a ha b hb c hc hab hbc
    have habc := h a ha b hb c hc
    have hbca := h b hb c hc a ha
    have hcab := h c hc a ha b hb
    rw [compareParsedOrRaw_ne_gt] at hab hbc ⊢
    -- texts are compared unless both parse, and the three cases that mix are those of `Separated`
    rcases ha' : parseTimestamp a with _ | s <;> rcases hb' : parseTimestamp b with _ | t <;>
      rcases hc' : parseTimestamp c with _ | u <;>
      simp only [ha', hb', hc'] at hab hbc habc hbca hcab ⊢ <;> grind

/-! ## Maxima -/

/-- The maximum of rows with these time stamps does not depend on the order they are scanned in. -/
def ScanIndependent {V : Type} (cmp : V → V → Ordering) (updatedAt : V → String)
    (texts : List String) : Prop :=
  ∀ rows rows' : List V, (∀ row ∈ rows, updatedAt row ∈ texts) → rows.Perm rows' →
    maxBy cmp rows = maxBy cmp rows'

/-- A comparison that is total on the rows and tells them apart. -/
lemma maxBy_perm {V : Type} {cmp : V → V → Ordering} {rows rows' : List V}
    (htotal : TotalOn cmp rows) (heq : ∀ a b, cmp a b = .eq → a = b) (hperm : rows.Perm rows') :
    maxBy cmp rows = maxBy cmp rows' := by
  cases hsorted : (SliceSort.insertion V).sortBy (fun a b => cmp b a) rows with
  | nil =>
    obtain rfl := (hsorted ▸ (SliceSort.insertion V).perm (fun a b => cmp b a) rows).nil_eq
    rw [hperm.nil_eq]
  | cons top rest =>
    have hmem : top ∈ rows := (SliceSort.insertion V).mem_sortBy.mp (hsorted ▸ List.mem_cons_self)
    have hbeats : ∀ v ∈ rows, v ≠ top → (cmp v top != .gt) = true ∧ (cmp top v != .gt) = false := by
      intro v hv hne
      have hle := (SliceSort.insertion V).head_ne_gt htotal.flip hsorted hv
      have hgt : cmp top v = .gt := by
        have hswap := htotal.swap v hv top hmem
        cases hcmp : cmp v top with
        | lt => rw [hswap, hcmp]; rfl
        | eq => exact absurd (heq _ _ hcmp) hne
        | gt => exact absurd hcmp hle
      simp [hle, hgt]
    rw [maxBy, maxBy, selectBest_of_beats_all hmem hbeats, selectBest_of_beats_all
      (hperm.mem_iff.mp hmem) fun v hv => hbeats v (hperm.mem_iff.mpr hv)]

lemma totalOn_on {V β : Type} [Ord β] [Std.TransOrd β] (key : V → β) (l : List V) :
    TotalOn (fun a b => compare (key a) (key b)) l :=
  totalOn_of_transCmp (compareOn key) l

variable {parseTimestamp} in
/-- A chain of comparisons with the time stamp as one link. -/
lemma scanIndependent {V : Type} {cmp : V → V → Ordering} {updatedAt : V → String}
    {texts : List String} (h : TotalOn (compareParsedOrRaw parseTimestamp) texts)
    (hchain : ∀ rows, TotalOn (compareParsedOrRaw parseTimestamp) (rows.map updatedAt) →
      TotalOn cmp rows) (heq : ∀ a b, cmp a b = .eq → a = b) :
    ScanIndependent cmp updatedAt texts := by
  intro rows rows' hrows hperm
  have hsub : ∀ a ∈ rows.map updatedAt, a ∈ texts := by simpa using hrows
  refine maxBy_perm (hchain rows ⟨?_, ?_⟩) heq hperm
  · exact fun a ha b hb => h.swap a (hsub a ha) b (hsub b hb)
  · exact fun a ha b hb c hc => h.trans a (hsub a ha) b (hsub b hb) c (hsub c hc)

section Ranks

variable [LinearOrder VolumeDriver] [LinearOrder VolumeSpecValue] [LinearOrder VolumeNodeStateValue]
variable [LinearOrder ReplicatedVolumeGroupStatusValue]
  [LinearOrder ReplicatedVolumeCapacityRequest]

/-- **Time stamps and the ranks built on them are total orders** on rows whose time stamps are
separated, and only on those. -/
theorem timestamp_ranks_total_iff (texts : List String) :
    (TotalOn (compareParsedOrRaw parseTimestamp) texts ∧
      TotalOn (compareVolumeTimestamps parseTimestamp) texts ∧
      ScanIndependent (precedenceCmp parseTimestamp) updatedAt texts ∧
      ScanIndependent (compareVolumeNodeRanks parseTimestamp) VolumeNodeStateValue.updatedAt texts ∧
      ScanIndependent (ReplicatedVolumeGroupStatusValue.precedenceCmp parseTimestamp)
        ReplicatedVolumeGroupStatusValue.updatedAt texts ∧
      ScanIndependent (ReplicatedVolumeCapacityRequest.precedenceCmp parseTimestamp)
        ReplicatedVolumeCapacityRequest.updatedAt texts) ↔ Separated parseTimestamp texts := by
  rw [← totalOn_compareParsedOrRaw_iff]
  refine ⟨And.left, fun h => ⟨h, h, ?_, ?_, ?_, ?_⟩⟩
  · refine scanIndependent h (fun rows hstamps => ?_) fun a b heq => ?_
    · iterate 6 refine (totalOn_on _ _).andThen ?_
      refine hstamps.comap.andThen ?_
      iterate 8 refine (totalOn_on _ _).andThen ?_
      exact (totalOn_ordCmp _).flip
    · simp only [precedenceCmp, Ordering.then_eq_eq, ordCmp_eq_compare, compare_eq_iff_eq] at heq
      tauto
  · refine scanIndependent h (fun rows hstamps => ?_) fun a b heq => ?_
    · rw [compareVolumeNodeRanks_eq]
      refine TotalOn.andThen ?_ (totalOn_ordCmp _).flip
      refine (totalOn_on _ _).andThen (hstamps.comap.andThen ?_)
      iterate 11 refine (totalOn_on _ _).andThen ?_
      exact totalOn_on _ _
    · rw [compareVolumeNodeRanks_eq] at heq
      exact eq_of_tiesReversed heq
  · refine scanIndependent h (fun rows hstamps => ?_) fun a b heq => ?_
    · iterate 2 refine (totalOn_on _ _).andThen ?_
      refine hstamps.comap.andThen ?_
      iterate 3 refine (totalOn_on _ _).andThen ?_
      exact (totalOn_ordCmp _).flip
    · simp only [ReplicatedVolumeGroupStatusValue.precedenceCmp, Ordering.then_eq_eq,
        ordCmp_eq_compare, compare_eq_iff_eq] at heq
      tauto
  · refine scanIndependent h (fun rows hstamps => ?_) fun a b heq => ?_
    · iterate 3 refine (totalOn_on _ _).andThen ?_
      exact hstamps.comap.andThen (totalOn_ordCmp _).flip
    · simp only [ReplicatedVolumeCapacityRequest.precedenceCmp, Ordering.then_eq_eq,
        ordCmp_eq_compare, compare_eq_iff_eq] at heq
      tauto

end Ranks

/-- Offsets turn two valid time stamps round, and a truncated one lies between their texts. -/
def circleParser (text : String) : Option ℕ :=
  if text = "2026-01-01T10:00:00+05:00" then some 5
  else if text = "2026-01-01T08:00:00Z" then some 8 else none

/-- **A circle**: each of three specifications is the maximum in some scan. -/
theorem malformed_timestamp_circle :
    letI := someOrder VolumeDriver
    letI := someOrder VolumeSpecValue
    let spec := fun text => { sampleSpec with updatedAt := text }
    let early := spec "2026-01-01T10:00:00+05:00"
    let late := spec "2026-01-01T08:00:00Z"
    let truncated := spec "2026-01-01T09"
    compareParsedOrRaw circleParser early.updatedAt late.updatedAt = .lt ∧
      compareParsedOrRaw circleParser late.updatedAt truncated.updatedAt = .lt ∧
      compareParsedOrRaw circleParser truncated.updatedAt early.updatedAt = .lt ∧
      maxBy (precedenceCmp circleParser) [early, late, truncated] = some truncated ∧
      maxBy (precedenceCmp circleParser) [late, truncated, early] = some early := by
  decide +kernel

end Mantissa.Volumes
