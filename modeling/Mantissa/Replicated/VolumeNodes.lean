import Mantissa.Replicated.Ranked
import Mantissa.Volume.Rows

/-!
# Node reports about a volume

A reader of a volume's node reports first drops those of other epochs and other Raft groups and
takes the greatest of what is left, the last one if several compare as equal. Compaction ranks all
reports, by the same comparison, and breaks ties the other way. So the report a reader selects
survives only if it ranks above the reports the reader would not look at, and if no other one
compares as equal to it.

The comparison is not an order: it compares time stamps as instants or as texts, pair by pair.
Where it runs in a circle the sort of the compaction may put any report first.

`node_state_kept_iff` says exactly when the selected report survives, and `tied_report_dropped` is a
report that does not: it differs from another one in the name of its node only.
-/

namespace Mantissa

open MvReg List

open Workload (selectBest selectBest_eq_none)

/-! ## Selecting among matching values -/

section Matching

variable {V A : Type*} [LinearOrder V] [LinearOrder A] {better : V → V → Bool} {best : V}

omit [LinearOrder V] in
/-- A value that stays from the first to the last step meets no better one. -/
lemma not_better_of_first {values : List V}
    (hnot : best ∉ values) (h : selectBest better (best :: values) = some best) :
    ∀ v ∈ values, better best v = false := by
  induction values with
  | nil => exact nofun
  | cons w values ih =>
    rw [selectBest_cons_cons] at h
    have hw : better best w = false := by
      by_contra hbetter
      rw [Bool.not_eq_false] at hbetter
      rw [if_pos hbetter] at h
      exact hnot (mem_of_selectBest h)
    rw [hw, if_neg Bool.false_ne_true] at h
    have hvalues := ih (fun hmem => hnot (mem_cons_of_mem w hmem)) h
    exact forall_mem_cons.mpr ⟨hw, hvalues⟩

omit [LinearOrder V] in
/-- Nothing behind the returned value is better than it. -/
lemma not_better_behind {front behind : List V} (hfront : best ∉ front) (hbehind : best ∉ behind)
    (h : selectBest better (front ++ best :: behind) = some best) :
    ∀ v ∈ behind, better best v = false := by
  cases hbefore : selectBest better front with
  | none =>
    rw [selectBest_eq_none.mp hbefore, nil_append] at h
    exact not_better_of_first hbehind h
  | some current =>
    have hstart : selectBest better (front ++ best :: behind) =
        selectBest better (current :: best :: behind) := by
      rw [selectBest, foldl_append, ← selectBest, hbefore]
      rfl
    rw [hstart, selectBest_cons_cons] at h
    split_ifs at h with hbetter
    · exact not_better_of_first hbehind h
    · rcases mem_cons.mp (mem_of_selectBest h) with heq | hmem
      · exact absurd (heq ▸ mem_of_selectBest hbefore) hfront
      · exact absurd hmem hbehind

/-- In a sorted list nothing greater is better than what is returned. -/
lemma not_better_of_lt {values : List V} {v : V}
    (hsorted : values.Pairwise (· < ·)) (h : selectBest better values = some best)
    (hv : v ∈ values) (hlt : best < v) : better best v = false := by
  obtain ⟨front, behind, rfl⟩ := append_of_mem (mem_of_selectBest h)
  obtain ⟨-, hbehind, hacross⟩ := pairwise_append.mp hsorted
  have hbehind := (pairwise_cons.mp hbehind).1
  refine not_better_behind (fun hmem => ?_) (fun hmem => (hbehind best hmem).false) h v ?_
  · exact (hacross best hmem best (mem_cons_self ..)).false
  · rcases mem_append.mp hv with hv | hv
    · exact absurd (hacross v hv best (mem_cons_self ..)) hlt.asymm
    · exact (mem_cons.mp hv).resolve_left hlt.ne'

variable {cmp : V → V → Ordering} {matching : V → Bool} {r r' : MvReg V A} {v : V}

/-- The greatest of the values that match, the last one of those that compare as equal. -/
def selectMatching (cmp : V → V → Ordering) (matching : V → Bool) (values : List V) : Option V :=
  maxBy cmp (values.filter matching)

lemma selectMatching_eq_none :
    selectMatching cmp matching r.snapshot.vals = none ↔
      ∀ v ∈ r.readValues, matching v = false := by
  rw [selectMatching, maxBy, selectBest_eq_none, filter_eq_nil_iff]
  simp

lemma mem_of_selectMatching (h : selectMatching cmp matching r.snapshot.vals = some v) :
    v ∈ r.readValues ∧ matching v = true := by
  have hmem := mem_filter.mp (mem_of_selectBest h)
  exact ⟨mem_vals_snapshot.mp hmem.1, hmem.2⟩

variable (hswap : ∀ a b, cmp b a = (cmp a b).swap)

include hswap

/-- No value matches, or one that does ranks above all others, and no other matching one compares as
equal to it. -/
def SelectedRanksFirst (cmp : V → V → Ordering) (matching : V → Bool) (values : List V) : Prop :=
  (∀ v ∈ values, matching v = false) ∨
    TotalOn (tiesReversed cmp) values ∧ ∃ top ∈ values, matching top = true ∧
      ∀ v ∈ values, v ≠ top →
        cmp v top = .lt ∨ cmp v top = .eq ∧ matching v = false ∧ top < v

lemma selectMatching_of_subset_of_ranksFirst {top : V}
    (hmatch : matching top = true) (hbest : ∀ v ∈ r.readValues, v ≠ top →
      cmp v top = .lt ∨ cmp v top = .eq ∧ matching v = false ∧ top < v)
    (htop : top ∈ r'.readValues) (hsub : ∀ v ∈ r'.readValues, v ∈ r.readValues) :
    selectMatching cmp matching r'.snapshot.vals = some top := by
  refine selectBest_of_beats_all
    (mem_filter.mpr ⟨mem_vals_snapshot.mpr htop, hmatch⟩) fun w hw hne => ?_
  obtain ⟨hw, hwmatch⟩ := mem_filter.mp hw
  have hlt : cmp w top = .lt := by
    rcases hbest w (hsub w (mem_vals_snapshot.mp hw)) hne with hlt | ⟨-, hnot, -⟩
    · exact hlt
    · exact absurd hwmatch (by rw [hnot]; exact Bool.false_ne_true)
  constructor
  · rw [hlt]
    rfl
  · rw [hswap w top, hlt]
    rfl

/-- A selected value that ranks first stays selected. -/
lemma selectMatching_compactBy
    (h : SelectedRanksFirst cmp matching r.readValues) (sort : SliceSort (MvRegEntry V A × ℕ))
    {n : ℕ}
    (hn : 1 ≤ n) :
    selectMatching cmp matching (r.compactBy sort (tiesReversed cmp) ordCmp n).snapshot.vals =
      selectMatching cmp matching r.snapshot.vals := by
  by_cases hne : r.entries = []
  · rw [compactBy, if_pos (.inr (by simp [hne]))]
  obtain ⟨kept, hcompacts, hkept⟩ := compactBy_compacts sort (Nat.one_le_iff_ne_zero.mp hn) hne
  rcases h with hnone | ⟨htotal, top, htop, hmatch, hbest⟩
  · rw [selectMatching_eq_none.mpr hnone, selectMatching_eq_none]
    exact fun v hv => hnone v (hcompacts.readValues_subset hv)
  · -- the value that is kept for certain is `top`
    have hkepttop : kept.value = top := by
      by_contra hne
      have hmem : kept.value ∈ r.readValues := mem_readValues.mpr ⟨kept, hcompacts.top_mem, rfl⟩
      have hlt : tiesReversed cmp kept.value top = .lt := by
        rcases hbest _ hmem hne with hlt | ⟨heq, -, hgt⟩
        · rw [tiesReversed, hlt, Ordering.lt_then]
        · rw [tiesReversed, heq, Ordering.eq_then, ordCmp_eq_compare]
          exact compare_lt_iff_lt.mpr hgt
      refine hkept htotal (totalOn_ordCmp _) top htop ?_
      rw [tiesReversed_swap hswap, hlt]
      rfl
    have hin : top ∈ (r.compactBy sort (tiesReversed cmp) ordCmp n).readValues :=
      hkepttop ▸ hcompacts.top_mem_readValues
    rw [selectMatching_of_subset_of_ranksFirst hswap hmatch hbest hin fun v =>
        hcompacts.readValues_subset,
      selectMatching_of_subset_of_ranksFirst hswap hmatch hbest htop fun v hv => hv]

omit hswap

/-- What is left of one value. -/
lemma selectMatching_of_single (hvalues : r.readValues = [v])
    (h : selectMatching cmp matching r.snapshot.vals = some best) :
    best = v ∧ matching v = true := by
  obtain ⟨hmem, hmatch⟩ := mem_of_selectMatching h
  rw [hvalues, mem_singleton] at hmem
  exact ⟨hmem, hmem ▸ hmatch⟩

variable (hswap : ∀ a b, cmp b a = (cmp a b).swap)

include hswap

/-- If the selected value survives every sort, the comparison ranks the values one after another. -/
lemma totalOn_of_kept (hkept : ∀ sort, selectMatching cmp matching
      (r.compactBy sort (tiesReversed cmp) ordCmp 1).snapshot.vals = some best) :
    TotalOn (tiesReversed cmp) r.readValues := by
  by_contra htotal
  have hentries : ¬ TotalOn (compareEntriesDesc (tiesReversed cmp) ordCmp) r.entries.zipIdx := by
    intro h
    have := h.of_compareEntriesDesc (tiesReversed_swap hswap) fun _ _ => eq_of_tiesReversed
    exact htotal (r.map_value_zipIdx ▸ this)
  -- whichever entry comes first is the one selected, so they all have that value
  have hall : ∀ v ∈ r.readValues, v = best := by
    intro v hv
    obtain ⟨e, he, rfl⟩ := mem_readValues.mp hv
    obtain ⟨sort, hcompacts⟩ := exists_compactBy_compacts Nat.one_ne_zero he hentries
    exact (selectMatching_of_single hcompacts.readValues_one (hkept sort)).1.symm
  refine htotal ⟨fun v _ w _ => tiesReversed_swap hswap v w, fun u hu v hv w hw huv _ => ?_⟩
  rw [hall w hw, ← hall v hv]
  exact huv

/-- If the selected value survives every compaction, it ranks first. -/
lemma selectedRanksFirst_of_kept (hkept : ∀ sort, selectMatching cmp matching
      (r.compactBy sort (tiesReversed cmp) ordCmp 1).snapshot.vals =
        selectMatching cmp matching r.snapshot.vals) :
    SelectedRanksFirst cmp matching r.readValues := by
  cases hbest : selectMatching cmp matching r.snapshot.vals with
  | none => exact .inl (selectMatching_eq_none.mp hbest)
  | some best =>
    simp only [hbest] at hkept
    obtain ⟨hmem, hmatch⟩ := mem_of_selectMatching hbest
    obtain ⟨e, he, hvalue⟩ := mem_readValues.mp hmem
    have htotal := totalOn_of_kept hswap hkept
    refine .inr ⟨htotal, best, hmem, hmatch, fun v hv hne => ?_⟩
    obtain ⟨top, hcompacts, htop⟩ := compactBy_compacts (SliceSort.insertion _)
      Nat.one_ne_zero (ne_nil_of_mem he)
    obtain ⟨rfl, -⟩ := selectMatching_of_single hcompacts.readValues_one (hkept _)
    have hrank : tiesReversed cmp v top.value ≠ .gt := by
      intro hgt
      exact htop htotal (totalOn_ordCmp _) v hv (by rw [hgt, Ordering.gt_then])
    cases hcmp : cmp v top.value with
    | lt => exact .inl rfl
    | gt => exact absurd (by rw [tiesReversed, hcmp, Ordering.gt_then]) hrank
    | eq =>
      rw [tiesReversed, hcmp, Ordering.eq_then, ordCmp_ne_gt] at hrank
      have hlt : top.value < v := lt_of_le_of_ne hrank hne.symm
      refine .inr ⟨rfl, ?_, hlt⟩
      -- of two matching values that compare as equal the greater one is selected
      by_contra hvmatch
      have hbetter := not_better_of_lt (r.pairwise_vals_snapshot.filter matching) hbest
        (mem_filter.mpr ⟨mem_vals_snapshot.mpr hv, Bool.not_eq_false _ ▸ hvmatch⟩) hlt
      rw [hswap v top.value, hcmp] at hbetter
      exact absurd hbetter (by decide)

/-- Of values that compare as equal the greatest is selected and the smallest is kept. -/
lemma selectMatching_ne_of_ties (hmatch : ∀ a ∈ r.readValues, matching a = true)
    (hties : ∀ a ∈ r.readValues, ∀ b ∈ r.readValues, cmp a b = .eq) {w : V}
    (hv : v ∈ r.readValues) (hw : w ∈ r.readValues) (hne : v ≠ w)
    (sort : SliceSort (MvRegEntry V A × ℕ)) :
    selectMatching cmp matching (r.compactBy sort (tiesReversed cmp) ordCmp 1).snapshot.vals ≠
      selectMatching cmp matching r.snapshot.vals := by
  intro hkept
  have hrank : ∀ a ∈ r.readValues, ∀ b ∈ r.readValues, (tiesReversed cmp a b ≠ .gt ↔ b ≤ a) := by
    intro a ha b hb
    rw [tiesReversed, hties a ha b hb, Ordering.eq_then, ordCmp_ne_gt]
  have htotal : TotalOn (tiesReversed cmp) r.readValues := by
    refine ⟨fun a _ b _ => tiesReversed_swap hswap a b, fun a ha b hb c hc hab hbc => ?_⟩
    rw [hrank a ha b hb] at hab
    rw [hrank b hb c hc] at hbc
    exact (hrank a ha c hc).mpr (hbc.trans hab)
  obtain ⟨e, he, -⟩ := mem_readValues.mp hv
  obtain ⟨top, hcompacts, htop⟩ := compactBy_compacts sort Nat.one_ne_zero (ne_nil_of_mem he)
  have hmem : top.value ∈ r.readValues := mem_readValues.mpr ⟨top, hcompacts.top_mem, rfl⟩
  have hleast : ∀ a ∈ r.readValues, top.value ≤ a := by
    intro a ha
    rw [← hrank a ha _ hmem]
    exact fun hgt => htop htotal (totalOn_ordCmp _) a ha (by rw [hgt, Ordering.gt_then])
  -- the value kept is selected, so it was selected before
  cases hbest : selectMatching cmp matching r.snapshot.vals with
  | none =>
    have hnot := selectMatching_eq_none.mp hbest v hv
    rw [hmatch v hv] at hnot
    exact absurd hnot (by decide)
  | some best =>
    rw [hbest] at hkept
    obtain ⟨rfl, -⟩ := selectMatching_of_single hcompacts.readValues_one hkept
    obtain ⟨other, hother, hlt⟩ : ∃ other ∈ r.readValues, top.value < other := by
      by_cases hvtop : v = top.value
      · exact ⟨w, hw, lt_of_le_of_ne (hleast w hw) (hvtop ▸ hne)⟩
      · exact ⟨v, hv, lt_of_le_of_ne (hleast v hv) (Ne.symm hvtop)⟩
    have hbetter := not_better_of_lt (r.pairwise_vals_snapshot.filter matching) hbest
      (mem_filter.mpr ⟨mem_vals_snapshot.mpr hother, hmatch other hother⟩) hlt
    rw [hties _ hmem _ hother] at hbetter
    exact absurd hbetter (by decide)

end Matching

/-! ## The reports of a volume -/

namespace Volumes

variable (parseTimestamp : String → Option ℕ) (computeReplicatedVolumeGroupId : Uuid → ℕ → Uuid)

/-- `node_state_matches_spec`. -/
def nodeStateMatchesSpec (value : VolumeNodeStateValue) (spec : VolumeSpecValue) :
    Option ReplicatedVolumePlan → Bool
  | some plan => value.groupId == some (computeReplicatedVolumeGroupId plan.descriptor.volumeId
      plan.descriptor.generation)
  | none => if spec.driver.isReplicated then false else value.groupId.isNone

/-- `select_best_volume_node_state_for_spec`. -/
def selectBestVolumeNodeStateForSpec (values : List VolumeNodeStateValue) (spec : VolumeSpecValue)
    (plan : Option ReplicatedVolumePlan) : Option VolumeNodeStateValue :=
  maxBy (compareVolumeNodeStates parseTimestamp) (values.filter fun value =>
    value.volumeId == spec.id && value.volumeEpoch == spec.volumeEpoch &&
      nodeStateMatchesSpec computeReplicatedVolumeGroupId value spec plan)

/-- `VolumeNodeRank`: the fields in the order in which they are compared. -/
structure VolumeNodeRank where
  volumeEpoch : ℕ
  updatedAt : String
  state : VolumeNodeState
  publishedTaskIds : List Uuid
  capacityBytes : Option ℕ
  reservedCapacityBytes : Option ℕ
  preparedCapacityBytes : Option ℕ
  servedCapacityBytes : Option ℕ
  deviceCapacityBytes : Option ℕ
  filesystemExpansionPending : Bool
  usedBytes : Option ℕ
  lastError : Option String
  localPath : Option String
  groupId : Option Uuid
  tieBreaker : VolumeNodeStateValue

/-- `VolumeNodeCompactionRank::rank`. -/
def VolumeNodeRank.of (value : VolumeNodeStateValue) : VolumeNodeRank where
  volumeEpoch := value.volumeEpoch
  updatedAt := value.updatedAt
  state := value.state
  publishedTaskIds := value.publishedTaskIds
  capacityBytes := value.capacityBytes
  reservedCapacityBytes := value.reservedCapacityBytes
  preparedCapacityBytes := value.preparedCapacityBytes
  servedCapacityBytes := value.servedCapacityBytes
  deviceCapacityBytes := value.deviceCapacityBytes
  filesystemExpansionPending := value.filesystemExpansionPending
  usedBytes := value.usedBytes
  lastError := value.lastError
  localPath := value.localPath
  groupId := value.groupId
  tieBreaker := value

section Ranks

variable [LinearOrder VolumeNodeStateValue]

/-- The order of ranks, the last field the other way round. -/
def VolumeNodeRank.cmp (left right : VolumeNodeRank) : Ordering :=
  (compare left.volumeEpoch right.volumeEpoch).then <|
  (compareParsedOrRaw parseTimestamp left.updatedAt right.updatedAt).then <|
  (compare left.state.ctorIdx right.state.ctorIdx).then <|
  (compare left.publishedTaskIds right.publishedTaskIds).then <|
  (compare left.capacityBytes right.capacityBytes).then <|
  (compare left.reservedCapacityBytes right.reservedCapacityBytes).then <|
  (compare left.preparedCapacityBytes right.preparedCapacityBytes).then <|
  (compare left.servedCapacityBytes right.servedCapacityBytes).then <|
  (compare left.deviceCapacityBytes right.deviceCapacityBytes).then <|
  (compare left.filesystemExpansionPending right.filesystemExpansionPending).then <|
  (compare left.usedBytes right.usedBytes).then <|
  (compare left.lastError right.lastError).then <|
  (compare left.localPath right.localPath).then <|
  (compare left.groupId right.groupId).then <|
  ordCmp right.tieBreaker left.tieBreaker

/-- How compaction ranks two reports. -/
def compareVolumeNodeRanks (left right : VolumeNodeStateValue) : Ordering :=
  VolumeNodeRank.cmp parseTimestamp (.of left) (.of right)

lemma compareVolumeNodeRanks_eq :
    compareVolumeNodeRanks parseTimestamp =
      tiesReversed (compareVolumeNodeStates parseTimestamp) := by
  funext left right
  simp [compareVolumeNodeRanks, VolumeNodeRank.cmp, VolumeNodeRank.of, tiesReversed,
    compareVolumeNodeStates, compareVolumeTimestamps, Ordering.then_assoc]

/-- The reports that are looked at for a desired state and its plan. -/
def reportMatches (spec : VolumeSpecValue) (plan : Option ReplicatedVolumePlan)
    (value : VolumeNodeStateValue) : Bool :=
  value.volumeId == spec.id && value.volumeEpoch == spec.volumeEpoch &&
    nodeStateMatchesSpec computeReplicatedVolumeGroupId value spec plan

/-- **When compaction keeps the selected report**: none matches, or one that does ranks above every
other report and no other matching one compares as equal. -/
theorem node_state_kept_iff (r : MvReg VolumeNodeStateValue Uuid) (spec : VolumeSpecValue)
    (plan : Option ReplicatedVolumePlan) :
    (∀ (sort : SliceSort (MvRegEntry VolumeNodeStateValue Uuid × ℕ)) (n : ℕ), 1 ≤ n →
      selectBestVolumeNodeStateForSpec parseTimestamp computeReplicatedVolumeGroupId
          (r.compactBy sort (compareVolumeNodeRanks parseTimestamp) ordCmp n).snapshot.vals spec
            plan =
        selectBestVolumeNodeStateForSpec parseTimestamp computeReplicatedVolumeGroupId
          r.snapshot.vals spec plan) ↔
      SelectedRanksFirst (compareVolumeNodeStates parseTimestamp)
        (reportMatches computeReplicatedVolumeGroupId spec plan) r.readValues := by
  rw [compareVolumeNodeRanks_eq]
  have hswap := compareVolumeNodeStates_swap parseTimestamp
  constructor
  · exact fun hkept => selectedRanksFirst_of_kept hswap fun sort => hkept sort 1 le_rfl
  · exact fun hfirst sort n hn => selectMatching_compactBy hswap hfirst sort hn

end Ranks

/-- A local volume. -/
def sampleSpec : VolumeSpecValue where
  id := 1
  name := "data"
  driver := .ofLocal (.managed .daemon)
  accessMode := .readWriteOnce
  bindingMode := .immediate
  reclaimPolicy := .retain
  initialCapacityBytes := none
  labels := []
  boundNodeId := some 0
  boundNodeName := none
  bindingOperationId := none
  bindingRevision := 0
  planCoordinatorNodeId := none
  volumeEpoch := 0
  lifecycle := ⟨0, 9, .live, false⟩
  createdAt := "2026-01-01T00:00:00Z"
  updatedAt := "2026-01-01T00:00:00Z"

/-- A report of node 0 under one of its names. -/
def sampleReport (nodeName updatedAt : String) : VolumeNodeStateValue where
  id := 5
  volumeId := 1
  nodeId := 0
  nodeName := nodeName
  localPath := some "/var/lib/mantissa/volumes/data"
  state := .ready
  capacityBytes := none
  reservedCapacityBytes := none
  preparedCapacityBytes := none
  servedCapacityBytes := none
  deviceCapacityBytes := none
  filesystemExpansionPending := false
  usedBytes := none
  publishedTaskIds := []
  updatedAt := updatedAt
  lastError := none
  volumeEpoch := 0
  groupId := none

/-- The time stamps of the samples. -/
def sampleParse (text : String) : Option ℕ :=
  if text = "2026-01-01T00:00:00Z" then some 0
  else if text = "2026-01-01T00:00:01Z" then some 1
  else none

/-- An earlier report of the node is dropped. -/
theorem node_state_kept_sample :
    letI := someOrder VolumeNodeStateValue
    let r : MvReg VolumeNodeStateValue Uuid :=
      (new.write 0 (sampleReport "node-a" "2026-01-01T00:00:01Z")).merge
        (new.write 1 (sampleReport "node-a" "2026-01-01T00:00:00Z"))
    let compacted := r.compactBy (SliceSort.insertion _)
        (compareVolumeNodeRanks sampleParse) ordCmp 1
    r.entries.length = 2 ∧ compacted.entries.length = 1 ∧
      selectBestVolumeNodeStateForSpec sampleParse (fun volumeId generation =>
          volumeId + generation) compacted.snapshot.vals sampleSpec none =
        selectBestVolumeNodeStateForSpec sampleParse (fun volumeId generation =>
          volumeId + generation) r.snapshot.vals sampleSpec none := by
  let _ := someOrder VolumeNodeStateValue
  refine ⟨by decide +kernel, by decide +kernel,
    (node_state_kept_iff sampleParse _ _ sampleSpec none).mpr ?_ _ 1 le_rfl⟩
  refine .inr ⟨totalOn_pair (tiesReversed_swap (compareVolumeNodeStates_swap sampleParse)) _ _, _,
    mem_cons_self, rfl, fun v hv hne => ?_⟩
  rcases mem_pair.mp hv with rfl | rfl
  · exact absurd rfl hne
  · exact .inl rfl

/-- One report under two names, stored by two nodes. -/
def tiedReports : MvReg VolumeNodeStateValue Uuid :=
  (new.write 0 (sampleReport "node-a" "2026-01-01T00:00:01Z")).merge
    (new.write 1 (sampleReport "node-b" "2026-01-01T00:00:01Z"))

/-- Of two reports that compare as equal the greater one is selected, and compaction keeps the
smaller one. -/
theorem tied_report_dropped :
    letI := someOrder VolumeNodeStateValue
    selectBestVolumeNodeStateForSpec sampleParse (fun volumeId generation => volumeId + generation)
        (tiedReports.compactBy (SliceSort.insertion _) (compareVolumeNodeRanks sampleParse) ordCmp
          1).snapshot.vals sampleSpec none ≠
      selectBestVolumeNodeStateForSpec sampleParse (fun volumeId generation =>
        volumeId + generation) tiedReports.snapshot.vals sampleSpec none := by
  let _ := someOrder VolumeNodeStateValue
  have hvalues : tiedReports.readValues = [sampleReport "node-a" "2026-01-01T00:00:01Z",
      sampleReport "node-b" "2026-01-01T00:00:01Z"] := by
    decide +kernel
  rw [compareVolumeNodeRanks_eq]
  have hmem : ∀ report ∈ tiedReports.readValues, ∃ nodeName,
      report = sampleReport nodeName "2026-01-01T00:00:01Z" := by
    intro report hreport
    rcases mem_pair.mp (hvalues ▸ hreport) with rfl | rfl <;> exact ⟨_, rfl⟩
  refine selectMatching_ne_of_ties (compareVolumeNodeStates_swap sampleParse) ?_ ?_
    (hvalues ▸ mem_cons_self ..) (hvalues ▸ mem_cons_of_mem _ (mem_singleton_self _))
    (by decide) _
  · intro report hreport
    obtain ⟨nodeName, rfl⟩ := hmem report hreport
    rfl
  · intro report hreport other hother
    obtain ⟨nodeName, rfl⟩ := hmem report hreport
    obtain ⟨otherName, rfl⟩ := hmem other hother
    rfl

end Volumes

end Mantissa
