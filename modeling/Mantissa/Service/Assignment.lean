import Mantissa.Service.Ordering

/-!
# Compact replica assignments

A service keeps the ids of its replicas as a list, or, when they are the ids derived for its
generation, as ranges of replicas. A range is expanded with the epoch that the service has when it
is read. `ReadsAs` says that the four ways to read an assignment give one list, and
`assignment_transparent` that this is the list that would be there without ranges, as long as no
range is stored when a generation begins. A redeployment without changes does not see to that:
`range_follows_generation`.
-/

namespace Mantissa.Service

open List ReplicaAssignmentSegment

/-- How ids are derived, whether a text is blank, and what is read of a template. -/
structure ReplicaRules (E : Type) where
  deriveServiceReplicaId : Uuid → ℕ → String → ℕ → Uuid
  isBlank : String → Bool
  name : E → String
  replicas : E → ℕ

/-- `u16::MAX`. -/
def u16Max : ℕ := 65535

variable {E : Type} (rules : ReplicaRules E) (now : String) (spec : ServiceSpecValue E)

namespace ReplicaAssignmentSegment

/-- `ServiceReplicaAssignmentSegment::new`. -/
def new (templateName : String) (firstReplica replicaCount : ℕ) : Option ReplicaAssignmentSegment :=
  if rules.isBlank templateName ∨ firstReplica = 0 ∨ replicaCount = 0 ∨
      u16Max < firstReplica + (replicaCount - 1) then none
  else some ⟨templateName, firstReplica, replicaCount⟩

variable (segment : ReplicaAssignmentSegment) (id : Uuid) (epoch : ℕ)

/-- `replica_ids`. -/
def replicaIds : List Uuid := (range segment.replicaCount).map fun offset =>
  rules.deriveServiceReplicaId id epoch segment.templateName (segment.firstReplica + offset)

/-- The id at an offset, as the readers that do not expand the range compute it. -/
def idAt (offset : ℕ) : Uuid :=
  rules.deriveServiceReplicaId id epoch segment.templateName
    (min (segment.firstReplica + offset) u16Max)

/-- What `new` sees to. -/
def Fits : Prop := segment.firstReplica + (segment.replicaCount - 1) ≤ u16Max

variable {segment}

lemma replicaIds_eq (h : segment.Fits) : segment.replicaIds rules id epoch =
      (range segment.replicaCount).map (segment.idAt rules id epoch) := by
  refine map_congr_left fun offset hoffset => ?_
  have := mem_range.mp hoffset
  rw [idAt, min_eq_left (by unfold Fits at h; omega)]

end ReplicaAssignmentSegment

/-! ## Reading an assignment -/

namespace ServiceSpecValue

/-- `assigned_replica_count`. -/
def assignedReplicaCount : ℕ :=
  if spec.replicaAssignmentSegments.isEmpty then spec.replicaIds.length
  else (spec.replicaAssignmentSegments.map replicaCount).sum

/-- `assigned_replica_ids`. -/
def assignedReplicaIds : List Uuid :=
  if spec.replicaAssignmentSegments.isEmpty then spec.replicaIds
  else spec.replicaAssignmentSegments.flatMap fun segment =>
    segment.replicaIds rules spec.id spec.serviceEpoch

/-- `has_assigned_replica_id`. -/
def hasAssignedReplicaId (taskId : Uuid) : Bool :=
  if spec.replicaAssignmentSegments.isEmpty then spec.replicaIds.contains taskId
  else spec.replicaAssignmentSegments.any fun segment =>
    (range segment.replicaCount).any fun offset =>
      segment.idAt rules spec.id spec.serviceEpoch offset = taskId

/-- The loop of `assigned_replica_id`. -/
def replicaIdIn (id : Uuid) (epoch slotIndex : ℕ) : ℕ → List ReplicaAssignmentSegment → Option Uuid
  | _, [] => none
  | cursor, segment :: segments =>
    if slotIndex < cursor + segment.replicaCount then
      some (segment.idAt rules id epoch (slotIndex - cursor))
    else replicaIdIn id epoch slotIndex (cursor + segment.replicaCount) segments

/-- `assigned_replica_id`. -/
def assignedReplicaId (slotIndex : ℕ) : Option Uuid :=
  if spec.replicaAssignmentSegments.isEmpty then spec.replicaIds[slotIndex]?
  else replicaIdIn rules spec.id spec.serviceEpoch slotIndex 0 spec.replicaAssignmentSegments

/-- Every reading is one of this list. -/
structure ReadsAs (ids : List Uuid) : Prop where
  expanded : spec.assignedReplicaIds rules = ids
  count : spec.assignedReplicaCount = ids.length
  has : ∀ taskId, spec.hasAssignedReplicaId rules taskId = true ↔ taskId ∈ ids
  slot : ∀ slotIndex, spec.assignedReplicaId rules slotIndex = ids[slotIndex]?

variable {rules spec}

lemma replicaIdIn_eq {id epoch slotIndex : ℕ} : ∀ (segments : List ReplicaAssignmentSegment)
    (cursor : ℕ), (∀ segment ∈ segments, segment.Fits) → cursor ≤ slotIndex →
    replicaIdIn rules id epoch slotIndex cursor segments =
      (segments.flatMap fun segment => segment.replicaIds rules id epoch)[slotIndex - cursor]?
  | [], _, _, _ => rfl
  | segment :: segments, cursor, hfits, hcursor => by
    have hlength : (segment.replicaIds rules id epoch).length = segment.replicaCount := by
      simp [ReplicaAssignmentSegment.replicaIds]
    rw [replicaIdIn, flatMap_cons]
    split_ifs with hlt
    · rw [getElem?_append_left (by omega),
        replicaIds_eq _ _ _ (hfits _ mem_cons_self), getElem?_map,
        getElem?_range (by omega)]
      rfl
    · rw [getElem?_append_right (by omega), hlength, Nat.sub_sub]
      exact replicaIdIn_eq segments _ (fun _ h => hfits _ (mem_cons_of_mem _ h)) (by omega)

/-- The readings agree. -/
lemma readsAs_self (h : ∀ segment ∈ spec.replicaAssignmentSegments, segment.Fits) :
    spec.ReadsAs rules (spec.assignedReplicaIds rules) := by
  unfold assignedReplicaIds
  split_ifs with hempty
  · exact ⟨if_pos hempty, if_pos hempty, fun taskId => by simp [hasAssignedReplicaId, hempty],
      fun _ => if_pos hempty⟩
  · refine ⟨if_neg hempty, ?_, fun taskId => ?_, fun slotIndex => ?_⟩
    · simp [assignedReplicaCount, hempty, ReplicaAssignmentSegment.replicaIds, length_flatMap]
    · simp only [hasAssignedReplicaId, hempty, Bool.false_eq_true, if_false, any_eq_true,
        decide_eq_true_eq, mem_flatMap]
      refine exists_congr fun segment => and_congr_right fun hmem => ?_
      rw [replicaIds_eq _ _ _ (h segment hmem), mem_map]
    · rw [assignedReplicaId, if_neg hempty]
      exact replicaIdIn_eq _ _ h (Nat.zero_le _)

end ServiceSpecValue

/-! ## Updates -/

section Updates

/-- The replicas of a template whose derived ids come next, and the ids after them. -/
def takeReplicas (expected : ℕ → Uuid) : ℕ → ℕ → List Uuid → Option (ℕ × List Uuid)
  | 0, _, ids => some (0, ids)
  | _ + 1, _, [] => some (0, [])
  | remaining + 1, replica, id :: ids =>
    if id ≠ expected replica then none
    else (takeReplicas expected remaining (replica + 1) ids).map fun rest => (rest.1 + 1, rest.2)

/-- The range of a template, if one of its replicas is assigned. -/
def templateSegments (template : E) (count : ℕ) : Option (List ReplicaAssignmentSegment) :=
  if count = 0 then some []
  else (new rules (rules.name template) 1 count).map ([·])

/-- The loop of `compact_service_replica_assignment_segments`. -/
def compactSegments (id epoch : ℕ) : List E → List Uuid → Option (List ReplicaAssignmentSegment)
  | [], ids => if ids.isEmpty then some [] else none
  | template :: templates, ids => do
    let taken ← takeReplicas (rules.deriveServiceReplicaId id epoch (rules.name template))
      (rules.replicas template) 1 ids
    let segments ← templateSegments rules template taken.1
    if taken.2.isEmpty then some segments
    else (compactSegments id epoch templates taken.2).map (segments ++ ·)

/-- Store ids and ranges; a change advances the phase. -/
def reassign (changed : Bool) (ids : List Uuid) (segments : List ReplicaAssignmentSegment) :
    ServiceSpecValue E :=
  { spec with
    replicaIds := ids
    replicaAssignmentSegments := segments
    phaseVersion := if changed then saturatingAdd spec.phaseVersion 1 else spec.phaseVersion
    updatedAt := if changed then now else spec.updatedAt }

variable (ids : List Uuid)

/-- `set_replica_ids`. -/
def setReplicaIds : ServiceSpecValue E :=
  reassign now spec (spec.replicaIds ≠ ids || !spec.replicaAssignmentSegments.isEmpty) ids []

/-- `set_replica_ids_compact_when_derived`. -/
def setReplicaIdsCompactWhenDerived : ServiceSpecValue E :=
  match compactSegments rules spec.id spec.serviceEpoch spec.taskTemplates ids with
  | some (segment :: segments) => reassign now spec (!spec.replicaIds.isEmpty ||
      spec.replicaAssignmentSegments ≠ segment :: segments) [] (segment :: segments)
  | _ => setReplicaIds now spec ids

/-- `clear_replica_assignments`. -/
def clearReplicaAssignments : ServiceSpecValue E :=
  reassign now spec spec.hasAssignedReplicas [] []

/-- `replace_assigned_replica_id`. -/
def replaceAssignedReplicaId (slotIndex : ℕ) (replacement : Uuid) : ServiceSpecValue E :=
  let ids := spec.assignedReplicaIds rules
  if slotIndex < ids.length then setReplicaIds now spec (ids.set slotIndex replacement) else spec

/-- `start_new_generation`. -/
def startNewGeneration : ServiceSpecValue E :=
  { spec with serviceEpoch := saturatingAdd spec.serviceEpoch 1, phaseVersion := 0, updatedAt :=
    now }

/-- The updates of an assignment. -/
inductive AssignmentOp (E : Type)
  | setIds (ids : List Uuid)
  | setCompact (ids : List Uuid)
  | replace (slotIndex : ℕ) (replacement : Uuid)
  | clear
  | newGeneration
  | setTemplates (templates : List E)

def AssignmentOp.apply : AssignmentOp E → ServiceSpecValue E
  | .setIds ids => setReplicaIds now spec ids
  | .setCompact ids => setReplicaIdsCompactWhenDerived rules now spec ids
  | .replace slotIndex replacement => replaceAssignedReplicaId rules now spec slotIndex replacement
  | .clear => clearReplicaAssignments now spec
  | .newGeneration => startNewGeneration now spec
  | .setTemplates templates => { spec with taskTemplates := templates }

/-- What an update does to an explicit list. -/
def AssignmentOp.onList : AssignmentOp E → List Uuid
  | .setIds ids' | .setCompact ids' => ids'
  | .replace slotIndex replacement => ids.set slotIndex replacement
  | .clear => []
  | .newGeneration | .setTemplates _ => ids

/-- The service after some updates, each with the time it was made at. -/
def applyUpdates (ops : List (AssignmentOp E × String)) : ServiceSpecValue E :=
  ops.foldl (fun spec op => op.1.apply rules op.2 spec) spec

/-- No range is stored when a generation begins. -/
def BeginsExplicit : ServiceSpecValue E → List (AssignmentOp E × String) → Prop
  | _, [] => True
  | spec, (op, now) :: ops =>
    (op = .newGeneration → spec.replicaAssignmentSegments = []) ∧
      BeginsExplicit (op.apply rules now spec) ops

end Updates

/-! ## Ranges stand for the list -/

lemma takeReplicas_eq_some {expected : ℕ → Uuid} :
    ∀ {remaining replica : ℕ} {ids : List Uuid} {count : ℕ}
    {rest : List Uuid}, takeReplicas expected remaining replica ids = some (count, rest) →
    ids = ((range count).map fun offset => expected (replica + offset)) ++ rest
  | 0, _, ids, _, _, h => by
    cases h
    rfl
  | _ + 1, _, [], _, _, h => by
    cases h
    rfl
  | remaining + 1, replica, id :: ids, count, rest, h => by
    rw [takeReplicas] at h
    split_ifs at h with hid
    obtain ⟨⟨count', rest'⟩, htake, heq⟩ := Option.map_eq_some_iff.mp h
    cases heq
    rw [takeReplicas_eq_some htake, range_succ_eq_map]
    simp [not_not.mp hid, Function.comp_def, Nat.add_assoc, Nat.add_comm 1]

lemma compactSegments_eq_some {id epoch : ℕ} : ∀ {templates : List E} {ids : List Uuid}
    {segments : List ReplicaAssignmentSegment},
    compactSegments rules id epoch templates ids = some segments →
    (∀ segment ∈ segments, segment.Fits) ∧
      (segments.flatMap fun segment => segment.replicaIds rules id epoch) = ids
  | [], ids, segments, h => by
    simp only [compactSegments] at h
    split_ifs at h with hempty
    cases h
    simp [isEmpty_iff.mp hempty]
  | template :: templates, ids, segments, h => by
    obtain ⟨⟨count, rest⟩, htake, h⟩ := Option.bind_eq_some_iff.mp h
    obtain ⟨first, hfirst, h⟩ := Option.bind_eq_some_iff.mp h
    rw [takeReplicas_eq_some htake]
    have hhead : (∀ segment ∈ first, segment.Fits) ∧
        (first.flatMap fun segment => segment.replicaIds rules id epoch) = (range count).map
          fun offset => rules.deriveServiceReplicaId id epoch (rules.name template)
            (1 + offset) := by
      unfold templateSegments at hfirst
      split_ifs at hfirst with hcount
      · cases hfirst
        simp [show count = 0 from hcount]
      · obtain ⟨segment, hnew, rfl⟩ := Option.map_eq_some_iff.mp hfirst
        simp only [new, Option.ite_none_left_eq_some,
          Option.some.injEq] at hnew
        obtain ⟨hbad, rfl⟩ := hnew
        exact ⟨fun _ hmem => mem_singleton.mp hmem ▸
          not_lt.mp fun hlt => hbad (.inr (.inr (.inr hlt))), append_nil _⟩
    split_ifs at h with hempty
    · cases h
      exact ⟨hhead.1, by rw [hhead.2, show rest = [] from isEmpty_iff.mp hempty, append_nil]⟩
    · obtain ⟨later, hlater, rfl⟩ := Option.map_eq_some_iff.mp h
      obtain ⟨hfits, hids⟩ := compactSegments_eq_some hlater
      refine ⟨fun segment hmem => (mem_append.mp hmem).elim (hhead.1 _) (hfits _), ?_⟩
      rw [flatMap_append, hhead.2, hids]

/-- The service has this list, in one form or the other. -/
def Tracks (ids : List Uuid) : Prop :=
  (∀ segment ∈ spec.replicaAssignmentSegments, segment.Fits) ∧ spec.assignedReplicaIds rules = ids

variable {rules now spec}

lemma Tracks.apply {ids : List Uuid} {op : AssignmentOp E} (h : Tracks rules spec ids)
    (hbegin : op = .newGeneration → spec.replicaAssignmentSegments = []) :
    Tracks rules (op.apply rules now spec) (op.onList ids) := by
  have hset : ∀ ids, Tracks rules (setReplicaIds now spec ids) ids := fun ids => ⟨nofun, rfl⟩
  cases op with
  | setIds ids' => exact hset ids'
  | clear => exact ⟨nofun, rfl⟩
  | setTemplates templates => exact h
  | newGeneration =>
    have hnone := hbegin rfl
    refine ⟨h.1, ?_⟩
    have hids := h.2
    simp only [ServiceSpecValue.assignedReplicaIds, hnone] at hids
    simpa [AssignmentOp.apply, startNewGeneration, ServiceSpecValue.assignedReplicaIds, hnone]
  | replace slotIndex replacement =>
    simp only [AssignmentOp.apply, replaceAssignedReplicaId, AssignmentOp.onList, h.2]
    split_ifs with hlt
    · exact hset _
    · rwa [set_eq_of_length_le (not_lt.mp hlt)]
  | setCompact ids' =>
    simp only [AssignmentOp.apply, setReplicaIdsCompactWhenDerived]
    split
    · next segment segments hsome =>
      obtain ⟨hfits, hids⟩ := compactSegments_eq_some rules hsome
      exact ⟨hfits, hids⟩
    · exact hset ids'

/-- **Ranges are transparent** while no range is stored when a generation begins: every reading is
that of the list that the same updates make of explicit ids. -/
theorem assignment_transparent (hfits : ∀ segment ∈ spec.replicaAssignmentSegments, segment.Fits)
    (ops : List (AssignmentOp E × String)) (hbegin : BeginsExplicit rules spec ops) :
    (applyUpdates rules spec ops).ReadsAs rules
      (ops.foldl (fun ids op => op.1.onList ids) (spec.assignedReplicaIds rules)) := by
  have htracks : ∀ (ops : List (AssignmentOp E × String)) (spec : ServiceSpecValue E)
      (ids : List Uuid), Tracks rules spec ids → BeginsExplicit rules spec ops →
      Tracks rules (applyUpdates rules spec ops)
        (ops.foldl (fun ids op => op.1.onList ids) ids) := by
    intro ops
    induction ops with
    | nil => exact fun _ _ h _ => h
    | cons op ops ih => exact fun spec ids h hbegin => ih _ _ (h.apply hbegin.1) hbegin.2
  obtain ⟨hfits', hids⟩ := htracks ops spec _ ⟨hfits, rfl⟩ hbegin
  exact hids ▸ ServiceSpecValue.readsAs_self hfits'

/-! ## A generation that begins with ranges -/

/-- Ids that tell epochs and replicas apart. -/
def sampleRules : ReplicaRules Unit where
  deriveServiceReplicaId _ epoch _ replica := epoch * (u16Max + 1) + replica
  isBlank name := name == ""
  name _ := "web"
  replicas _ := 1

/-- A service without an assignment. -/
def unassigned : ServiceSpecValue Unit :=
  { sampleSpec 1 0 .running with taskTemplates := [()] }

/-- A range of the first generation is written out before the next one begins, which then has a
range of its own. -/
theorem assignment_transparent_compact :
    (applyUpdates sampleRules unassigned [(.setCompact [1], "t"), (.replace 0 1, "t"),
      (.newGeneration, "t"), (.setCompact [65537], "t")]).ReadsAs sampleRules [65537] :=
  assignment_transparent (fun _ h => absurd h not_mem_nil) _
    ⟨nofun, nofun, fun _ => rfl, nofun, trivial⟩

/-- **A new generation changes what a range stands for.** The id derived for the first generation
is stored as a range; once the next generation has begun, the service has the id derived for that
one. -/
theorem range_follows_generation :
    let ops : List (AssignmentOp Unit × String) := [(.setCompact [1], "t"), (.newGeneration, "t")]
    (applyUpdates sampleRules unassigned ops).assignedReplicaIds sampleRules = [65537] ∧
      ops.foldl (fun ids op => op.1.onList ids) (unassigned.assignedReplicaIds sampleRules) = [1] :=
  ⟨rfl, rfl⟩

end Mantissa.Service
