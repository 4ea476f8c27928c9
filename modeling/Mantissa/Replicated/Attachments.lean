import Mantissa.Replicated.Domains
import Mantissa.Replicated.Variants

/-!
# Network attachments

An attachment is compared without its two time stamps, so that nodes which rebuild one attachment at
different times do not diverge. Selection and rank both prefer the newer attachment. The snapshot
shows one of several attachments that differ in time only, whichever entry came first, while
compaction ranks them all: it may keep a value that the selector passed over (`newer_rebuild_kept`).

`domain_winners_kept` collects the domains: jobs, ingress pools, network specifications, peers and
scheduler digests keep their winner, and attachments do exactly if every variant of the attachment
that ranks highest ranks above every other one.
-/

namespace Mantissa

open Network Ingress

open Workload (selectBest)

namespace Network

/-- `NetworkAttachmentState`. -/
inductive NetworkAttachmentState
  | pending
  | configuring
  | ready
  | removing
  | error
  deriving DecidableEq, Repr

/-- `NetworkAttachmentState::precedence_rank`. -/
def NetworkAttachmentState.precedenceRank : NetworkAttachmentState → ℕ
  | .pending => 0
  | .configuring => 1
  | .ready => 2
  | .error => 3
  | .removing => 4

/-- `NetworkAttachmentValue`. -/
structure NetworkAttachmentValue where
  id : Uuid
  taskId : Uuid
  nodeId : Uuid
  instanceId : String
  networkId : Uuid
  taskUpdatedAt : Option String
  requestedIp : Option String
  assignedIp : Option String
  mac : Option String
  createdAt : String
  updatedAt : String
  state : NetworkAttachmentState
  error : Option String
  trafficPublished : Bool
  serviceName : Option String
  templateName : Option String
  deriving DecidableEq, Repr

/-- `NetworkAttachmentValue::semantically_equals`, which is also its `==`. -/
def NetworkAttachmentValue.semanticallyEquals (self other : NetworkAttachmentValue) : Bool :=
  self.id == other.id && self.taskId == other.taskId && self.nodeId == other.nodeId &&
    self.instanceId == other.instanceId && self.networkId == other.networkId &&
    self.taskUpdatedAt == other.taskUpdatedAt && self.requestedIp == other.requestedIp &&
    self.assignedIp == other.assignedIp && self.mac == other.mac && self.state == other.state &&
    self.error == other.error && self.trafficPublished == other.trafficPublished &&
    self.serviceName == other.serviceName && self.templateName == other.templateName

/-- `NetworkAttachmentValue::cmp`. -/
def compareAttachmentValues (left right : NetworkAttachmentValue) : Ordering :=
  (compare left.id right.id).then <|
  (compare left.taskId right.taskId).then <|
  (compare left.nodeId right.nodeId).then <|
  (compare left.instanceId right.instanceId).then <|
  (compare left.networkId right.networkId).then <|
  (compare left.taskUpdatedAt right.taskUpdatedAt).then <|
  (compare left.requestedIp right.requestedIp).then <|
  (compare left.assignedIp right.assignedIp).then <|
  (compare left.mac right.mac).then <|
  (compare left.state.ctorIdx right.state.ctorIdx).then <|
  (compare left.error right.error).then <|
  (compare left.trafficPublished right.trafficPublished).then <|
  (compare left.serviceName right.serviceName).then <|
  compare left.templateName right.templateName

instance instTransCmpAttachmentValues : Std.TransCmp compareAttachmentValues := by
  unfold compareAttachmentValues
  infer_instance

/-- The order of attachments and their equality look at the same fields. -/
lemma compareAttachmentValues_eq_eq {left right : NetworkAttachmentValue} :
    compareAttachmentValues left right = .eq ↔ left.semanticallyEquals right = true := by
  have hstate : left.state.ctorIdx = right.state.ctorIdx ↔ left.state = right.state := by
    cases left.state <;> cases right.state <;> decide
  simp only [compareAttachmentValues, Ordering.then_eq_eq, Std.LawfulEqOrd.compare_eq_iff_eq,
    hstate, NetworkAttachmentValue.semanticallyEquals, Bool.and_eq_true, beq_iff_eq, and_assoc]

variable (parseRfc3339 : String → Option ℕ)

/-- `attachment_revision_timestamp`. -/
def attachmentRevisionTimestamp (attachment : NetworkAttachmentValue) : Option ℕ :=
  attachment.taskUpdatedAt.bind parseRfc3339

/-- `parse_timestamp`, in the ranker `parse_attachment_timestamp`. -/
def parseTimestamp (updatedAt createdAt : String) : Option ℕ :=
  (parseRfc3339 updatedAt).or (parseRfc3339 createdAt)

/-- One decision of `should_prefer_attachment` by optional time stamps; none if they agree. -/
def preferLater : Option ℕ → Option ℕ → Option Bool
  | some current, some candidate =>
    if candidate > current then some true
    else if candidate < current then some false
    else none
  | none, some _ => some true
  | some _, none => some false
  | none, none => none

variable (current candidate : NetworkAttachmentValue)

/-- `should_prefer_attachment`. -/
def shouldPreferAttachment : Bool :=
  match preferLater (attachmentRevisionTimestamp parseRfc3339 current)
    (attachmentRevisionTimestamp parseRfc3339 candidate) with
  | some preferred => preferred
  | none =>
    match preferLater (parseTimestamp parseRfc3339 current.updatedAt current.createdAt)
      (parseTimestamp parseRfc3339 candidate.updatedAt candidate.createdAt) with
    | some preferred => preferred
    | none =>
      match compare candidate.state.precedenceRank current.state.precedenceRank with
      | .gt => true
      | .lt => false
      | .eq =>
        if candidate.trafficPublished ≠ current.trafficPublished then candidate.trafficPublished
        else decide (candidate.nodeId > current.nodeId)

/-- The order behind `should_prefer_attachment`, which is that of `NetworkAttachmentRank` up to its
last field. -/
def compareAttachmentPreference (left right : NetworkAttachmentValue) : Ordering :=
  (compare (attachmentRevisionTimestamp parseRfc3339 left)
    (attachmentRevisionTimestamp parseRfc3339 right)).then <|
  (compare (parseTimestamp parseRfc3339 left.updatedAt left.createdAt)
    (parseTimestamp parseRfc3339 right.updatedAt right.createdAt)).then <|
  (compare left.state.precedenceRank right.state.precedenceRank).then <|
  (compare left.trafficPublished right.trafficPublished).then <|
  compare left.nodeId right.nodeId

instance instTransCmpAttachmentPreference :
    Std.TransCmp (compareAttachmentPreference parseRfc3339) := by
  unfold compareAttachmentPreference
  infer_instance

/-- A decision by time stamps, and what follows where they agree. -/
lemma preferLater_getD (current candidate : Option ℕ) (rest : Ordering) :
    (preferLater current candidate).getD (rest == .gt) =
      ((compare candidate current).then rest == .gt) := by
  cases current with
  | none => cases candidate <;> rfl
  | some current =>
    cases candidate with
    | none => rfl
    | some candidate =>
      have hcompare : compare (some candidate) (some current) = compare candidate current := rfl
      rw [hcompare, preferLater]
      rcases lt_trichotomy candidate current with hlt | rfl | hgt
      · simp [compare_lt_iff_lt.mpr hlt, hlt, hlt.not_gt]
      · simp
      · simp [compare_gt_iff_gt.mpr hgt, hgt]

lemma preferPublished_eq :
    (if candidate.trafficPublished ≠ current.trafficPublished then candidate.trafficPublished
      else decide (candidate.nodeId > current.nodeId)) =
      ((compare candidate.trafficPublished current.trafficPublished).then
        (compare candidate.nodeId current.nodeId) == .gt) := by
  have hnode : decide (candidate.nodeId > current.nodeId) =
      (compare candidate.nodeId current.nodeId == .gt) := by
    rw [Bool.eq_iff_iff, decide_eq_true_eq, beq_iff_eq, compare_gt_iff_gt]
  rw [hnode]
  cases candidate.trafficPublished <;> cases current.trafficPublished <;> rfl

lemma shouldPreferAttachment_eq : shouldPreferAttachment parseRfc3339 current candidate =
      (compareAttachmentPreference parseRfc3339 candidate current == .gt) := by
  rw [compareAttachmentPreference, ← preferLater_getD, ← preferLater_getD, shouldPreferAttachment,
    preferPublished_eq]
  cases preferLater (attachmentRevisionTimestamp parseRfc3339 current)
    (attachmentRevisionTimestamp parseRfc3339 candidate) with
  | some preferred => rfl
  | none =>
    cases preferLater (parseTimestamp parseRfc3339 current.updatedAt current.createdAt)
      (parseTimestamp parseRfc3339 candidate.updatedAt candidate.createdAt) with
    | some preferred => rfl
    | none => cases compare candidate.state.precedenceRank current.state.precedenceRank <;> rfl

/-- `select_best_attachment_value`. -/
def selectBestAttachmentValue (values : List NetworkAttachmentValue) :
    Option NetworkAttachmentValue :=
  selectBest (shouldPreferAttachment parseRfc3339) values

variable (r : MvReg NetworkAttachmentValue Uuid)

/-- The snapshot of a register of attachments. -/
def attachmentSnapshot : List NetworkAttachmentValue :=
  snapshotBy compareAttachmentValues r.readValues

lemma selectBestAttachmentValue_eq : selectBestAttachmentValue parseRfc3339 (attachmentSnapshot r) =
      selectVariant compareAttachmentValues (compareAttachmentPreference parseRfc3339)
        r.readValues := by
  have hprefer : shouldPreferAttachment parseRfc3339 = fun current candidate =>
      compareAttachmentPreference parseRfc3339 candidate current == .gt :=
    funext₂ (shouldPreferAttachment_eq parseRfc3339)
  rw [selectBestAttachmentValue, hprefer]
  rfl

/-- The order of `NetworkAttachmentRank`. -/
def compareAttachmentRanks (left right : NetworkAttachmentValue) : Ordering :=
  (compare (left.taskUpdatedAt.bind parseRfc3339) (right.taskUpdatedAt.bind parseRfc3339)).then <|
  (compare (parseTimestamp parseRfc3339 left.updatedAt left.createdAt)
    (parseTimestamp parseRfc3339 right.updatedAt right.createdAt)).then <|
  (compare left.state.precedenceRank right.state.precedenceRank).then <|
  (compare left.trafficPublished right.trafficPublished).then <|
  (compare left.nodeId right.nodeId).then <|
  compareAttachmentValues right left

lemma compareAttachmentRanks_eq : compareAttachmentRanks parseRfc3339 =
    variantRank compareAttachmentValues (compareAttachmentPreference parseRfc3339) := by
  funext left right
  simp [compareAttachmentRanks, variantRank, compareAttachmentPreference,
    attachmentRevisionTimestamp, Ordering.then_assoc]

/-- The register after compaction to `n` values. -/
def compactAttachments (sort : SliceSort (MvRegEntry NetworkAttachmentValue Uuid × ℕ))
    (r : MvReg NetworkAttachmentValue Uuid) (n : ℕ) : MvReg NetworkAttachmentValue Uuid :=
  r.compactBy sort (compareAttachmentRanks parseRfc3339) compareAttachmentValues n

end Network

/-! ## All domains -/

section Domains

variable {P : Type*} [LinearOrder P] [LinearOrder Jobs.JobSpecValue]
  [LinearOrder (Ingress.IngressPoolSpecValue P)] [LinearOrder Network.NetworkSpecValue]
  [LinearOrder Network.NetworkPeerStateValue] [LinearOrder Scheduler.SchedulerDigestValue]

/-- **Compaction keeps the winner of every domain but one.** Attachments keep theirs, in whatever
order the entries are, if and only if every variant of the attachment that ranks highest ranks above
every other attachment. -/
theorem domain_winners_kept (text : Jobs.JobText) (parseRfc3339 : String → Option ℕ) :
    (∀ (r : MvReg Jobs.JobSpecValue Uuid) sort n, 1 ≤ n →
      Jobs.selectBestJobSpec text
          (r.compactBy sort (Jobs.compareJobSpecRanks text) ordCmp n).snapshot.vals =
        Jobs.selectBestJobSpec text r.snapshot.vals) ∧
    (∀ (r : MvReg (Ingress.IngressPoolSpecValue P) Uuid) sort n, 1 ≤ n →
      selectCanonicalIngressPool
            (r.compactBy sort compareIngressPoolRanks ordCmp n).snapshot.vals =
          selectCanonicalIngressPool r.snapshot.vals ∧
        selectBestIngressPool
            (r.compactBy sort compareIngressPoolRanks ordCmp n).snapshot.vals =
          selectBestIngressPool r.snapshot.vals) ∧
    (∀ (r : MvReg Network.NetworkSpecValue Uuid) sort n, 1 ≤ n →
      selectNetworkSpec
          (r.compactBy sort compareNetworkSpecRanks ordCmp n).snapshot.vals =
        selectNetworkSpec r.snapshot.vals) ∧
    (∀ (r : MvReg Network.NetworkPeerStateValue Uuid) sort n, 1 ≤ n →
      selectLatestPeerState
          (r.compactBy sort comparePeerRanks ordCmp n).snapshot.vals =
        selectLatestPeerState r.snapshot.vals) ∧
    (∀ (r : MvReg Scheduler.SchedulerDigestValue Uuid) sort n, 1 ≤ n →
      Scheduler.selectBestSchedulerDigest
          (r.compactBy sort Scheduler.compareSchedulerDigestRanks ordCmp n).snapshot.vals =
        Scheduler.selectBestSchedulerDigest r.snapshot.vals) ∧
    ∀ r : MvReg Network.NetworkAttachmentValue Uuid,
      (∀ r' : MvReg Network.NetworkAttachmentValue Uuid, r'.entries.Perm r.entries →
        ∀ sort n, 1 ≤ n → Option.Rel (fun a b => a.semanticallyEquals b = true)
          (selectBestAttachmentValue parseRfc3339
            (attachmentSnapshot (compactAttachments parseRfc3339 sort r' n)))
          (selectBestAttachmentValue parseRfc3339 (attachmentSnapshot r'))) ↔
        VariantsTogether compareAttachmentValues
          (compareAttachmentPreference parseRfc3339) r.readValues := by
  refine ⟨fun r sort n hn => ?_, fun r sort n hn => ?_,
    fun r sort n hn => picksGreatest_getLast?.kept_of_eq r sort hn,
    fun r sort n hn => picksGreatest_maxBy.kept_of_eq r sort hn,
    fun r sort n hn => Scheduler.digest_winner_kept r sort hn, fun r => ?_⟩
  rotate_left 2
  · simp only [selectBestAttachmentValue_eq, ← compareAttachmentValues_eq_eq,
      compactAttachments, compareAttachmentRanks_eq]
    exact variants_kept_iff
  · rw [Jobs.compareJobSpecRanks_eq]
    exact picksGreatest_strict.kept_of_eq r sort hn
  have hkept : selectCanonicalIngressPool (r.compactBy sort compareIngressPoolRanks
      ordCmp n).snapshot.vals = selectCanonicalIngressPool r.snapshot.vals := by
    rw [compareIngressPoolRanks_eq]
    exact picksGreatest_strict.kept_of_eq r sort hn
  refine ⟨hkept, ?_⟩
  rw [selectBestIngressPool, hkept, selectBestIngressPool]

end Domains

namespace Network

/-- The time stamps of the samples. -/
def sampleParse (text : String) : Option ℕ :=
  if text = "2026-01-01T00:00:01Z" then some 1
  else if text = "2026-01-01T00:00:02Z" then some 2
  else if text = "2026-01-01T00:00:03Z" then some 3
  else none

/-- An attachment of a task. -/
def sampleAttachment (state : NetworkAttachmentState) (updatedAt : String) :
    NetworkAttachmentValue where
  id := 1
  taskId := 2
  nodeId := 0
  instanceId := "web-0"
  networkId := 3
  taskUpdatedAt := none
  requestedIp := none
  assignedIp := some "10.0.0.5"
  mac := none
  createdAt := "2026-01-01T00:00:01Z"
  updatedAt := updatedAt
  state := state
  error := none
  trafficPublished := false
  serviceName := none
  templateName := none

/-- One attachment as rebuilt by two nodes at different times. -/
def sampleRebuilds : MvReg NetworkAttachmentValue Uuid :=
  (MvReg.new.write 0 (sampleAttachment .configuring "2026-01-01T00:00:01Z")).merge
    (MvReg.new.write 1 (sampleAttachment .configuring "2026-01-01T00:00:03Z"))

theorem domain_winners_kept_sample :
    letI := someOrder Jobs.JobSpecValue
    letI := someOrder (Ingress.IngressPoolSpecValue ℕ)
    letI := someOrder NetworkSpecValue
    letI := someOrder NetworkPeerStateValue
    letI := someOrder Scheduler.SchedulerDigestValue
    Option.Rel (fun a b => a.semanticallyEquals b = true)
      (selectBestAttachmentValue sampleParse (attachmentSnapshot
        (compactAttachments sampleParse (SliceSort.insertion _) sampleRebuilds 1)))
      (selectBestAttachmentValue sampleParse (attachmentSnapshot sampleRebuilds)) := by
  let _ := someOrder Jobs.JobSpecValue
  let _ := someOrder (Ingress.IngressPoolSpecValue ℕ)
  let _ := someOrder NetworkSpecValue
  let _ := someOrder NetworkPeerStateValue
  let _ := someOrder Scheduler.SchedulerDigestValue
  have hkept := (domain_winners_kept (P := ℕ) ⟨sampleParse, id⟩ sampleParse).2.2.2.2.2
      sampleRebuilds
  refine hkept.mpr ?_ sampleRebuilds (List.Perm.refl _) _ 1 le_rfl
  -- all values are variants of one attachment
  have hsame : ∀ v ∈ sampleRebuilds.readValues, ∀ w ∈ sampleRebuilds.readValues,
      compareAttachmentValues v w = .eq := by
    decide
  exact fun top htop _ _ _ _ other hother hdiff => absurd (hsame other hother top htop) hdiff

/-- The same, and a third node's state of the attachment from in between. -/
def sampleAttachments : MvReg NetworkAttachmentValue Uuid :=
  sampleRebuilds.merge (MvReg.new.write 2 (sampleAttachment .ready "2026-01-01T00:00:02Z"))

/-- The selector sees the older rebuild and returns the state in between; compaction ranks the newer
rebuild first. -/
theorem newer_rebuild_kept :
    ¬ Option.Rel (fun a b => a.semanticallyEquals b = true)
      (selectBestAttachmentValue sampleParse (attachmentSnapshot
        (compactAttachments sampleParse (SliceSort.insertion _) sampleAttachments 1)))
      (selectBestAttachmentValue sampleParse (attachmentSnapshot sampleAttachments)) := by
  have hbefore : selectBestAttachmentValue sampleParse (attachmentSnapshot sampleAttachments) =
      some (sampleAttachment .ready "2026-01-01T00:00:02Z") := by
    decide +kernel
  have hafter : selectBestAttachmentValue sampleParse (attachmentSnapshot
      (compactAttachments sampleParse (SliceSort.insertion _) sampleAttachments 1)) =
      some (sampleAttachment .configuring "2026-01-01T00:00:03Z") := by
    decide +kernel
  intro h
  cases h with
  | some heq => exact absurd heq (by decide)

end Network

end Mantissa
