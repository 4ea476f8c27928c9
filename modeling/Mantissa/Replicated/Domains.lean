import Mantissa.Jobs.Model
import Mantissa.Network.Registry
import Mantissa.Replicated.Ranked

/-!
# Jobs, ingress pools, networks and scheduler digests

Five domains whose selector and rank are the same chain of comparisons, written once for reading and
once for compaction. For each the chain is an order, so compaction keeps the winner: the loops that
keep the first of several equals have ranks that end in `Reverse(value)`, and the others compare the
whole value.
-/

namespace Mantissa

open Workload (selectBest stampKey compareStamps compareStamps_eq)

variable {A : Type*} [LinearOrder A]

/-! ## Jobs -/

namespace Jobs

variable (text : JobText)

/-- `select_best_job_spec`. -/
def selectBestJobSpec (values : List JobSpecValue) : Option JobSpecValue :=
  selectBest (fun current value => compareJobSpecs text value current == .gt) values

instance instTransCmpJobSpecs : Std.TransCmp (compareJobSpecs text) := by
  have hcmp : compareJobSpecs text = compareOn (jobKey text) := by
    funext left right
    simp [compareJobSpecs, compareOn, jobKey, compare_toLex, compareStamps_eq, Ordering.then_assoc]
  rw [hcmp]
  infer_instance

variable [LinearOrder JobSpecValue]

/-- The order of `JobSpecRank`. -/
def compareJobSpecRanks (left right : JobSpecValue) : Ordering :=
  (compare left.attemptsStarted right.attemptsStarted).then <|
  (compare left.phaseVersion right.phaseVersion).then <|
  (compare left.status.precedenceRank right.status.precedenceRank).then <|
  (compareStamps (text.parseTimestamp left.updatedAt) (text.parseTimestamp right.updatedAt)).then <|
  (compare left.id right.id).then <|
  ordCmp right left

lemma compareJobSpecRanks_eq : compareJobSpecRanks text = tiesReversed (compareJobSpecs text) := by
  funext left right
  simp [compareJobSpecRanks, tiesReversed, compareJobSpecs, Ordering.then_assoc]

end Jobs

/-! ## Ingress pools -/

namespace Ingress

/-- `IngressPoolSpreadKey`. -/
inductive IngressPoolSpreadKey
  | nodeLabel (key : String)
  deriving DecidableEq, Repr

/-- What the derived order compares spread keys by. -/
def IngressPoolSpreadKey.key : IngressPoolSpreadKey → String
  | .nodeLabel key => key

/-- `IngressPoolSpecValue`, for any kind of placement policy. -/
structure IngressPoolSpecValue (P : Type*) where
  id : Uuid
  name : String
  minNodes : ℕ
  maxNodes : Option ℕ
  placement : P
  spreadBy : Option IngressPoolSpreadKey
  generation : ℕ
  createdAt : String
  updatedAt : String
  deleted : Bool
  deriving DecidableEq, Repr

variable {P : Type*} [LinearOrder P]

/-- `compare_ingress_pools`. -/
def compareIngressPools (left right : IngressPoolSpecValue P) : Ordering :=
  (compare left.deleted right.deleted).then <|
  (compare left.generation right.generation).then <|
  (compare left.updatedAt right.updatedAt).then <|
  (compare left.name right.name).then <|
  (compare left.minNodes right.minNodes).then <|
  (compare left.maxNodes right.maxNodes).then <|
  (compare left.placement right.placement).then <|
  (compare (left.spreadBy.map IngressPoolSpreadKey.key)
    (right.spreadBy.map IngressPoolSpreadKey.key)).then <|
  (compare left.createdAt right.createdAt).then <|
  compare left.id right.id

instance instTransCmpIngressPools :
    Std.TransCmp (compareIngressPools : IngressPoolSpecValue P → _ → Ordering) := by
  unfold compareIngressPools
  infer_instance

variable (values : List (IngressPoolSpecValue P))

/-- `select_canonical_ingress_pool`. -/
def selectCanonicalIngressPool : Option (IngressPoolSpecValue P) :=
  selectBest (fun current value => compareIngressPools value current == .gt) values

/-- `select_best_ingress_pool`. -/
def selectBestIngressPool : Option (IngressPoolSpecValue P) :=
  (selectCanonicalIngressPool values).filter fun value => !value.deleted

variable [LinearOrder (IngressPoolSpecValue P)]

/-- The order of `IngressPoolRank`. -/
def compareIngressPoolRanks (left right : IngressPoolSpecValue P) : Ordering :=
  (compare left.deleted right.deleted).then <|
  (compare left.generation right.generation).then <|
  (compare left.updatedAt right.updatedAt).then <|
  (compare left.name right.name).then <|
  (compare left.minNodes right.minNodes).then <|
  (compare left.maxNodes right.maxNodes).then <|
  (compare left.placement right.placement).then <|
  (compare (left.spreadBy.map IngressPoolSpreadKey.key)
    (right.spreadBy.map IngressPoolSpreadKey.key)).then <|
  (compare left.createdAt right.createdAt).then <|
  (compare left.id right.id).then <|
  ordCmp right left

lemma compareIngressPoolRanks_eq :
    (compareIngressPoolRanks : IngressPoolSpecValue P → _) = tiesReversed compareIngressPools := by
  funext left right
  simp [compareIngressPoolRanks, tiesReversed, compareIngressPools, Ordering.then_assoc]

end Ingress

/-! ## Networks -/

namespace Network

/-- The registry's read of a network specification: the last one of the snapshot. -/
def selectNetworkSpec (values : List NetworkSpecValue) : Option NetworkSpecValue :=
  values.getLast?

/-- The order of `NetworkSpecCompactionRank`, which ranks a specification by itself. -/
def compareNetworkSpecRanks [LinearOrder NetworkSpecValue] (left right : NetworkSpecValue) :
    Ordering := ordCmp left right

/-- `NetworkPeerState`. -/
inductive NetworkPeerState
  | awaitingSpec
  | configuring
  | ready
  | error
  | removing
  deriving DecidableEq, Repr

/-- `NetworkPeerState::precedence_rank`. -/
def NetworkPeerState.precedenceRank : NetworkPeerState → ℕ
  | .removing => 0
  | .error => 1
  | .awaitingSpec => 2
  | .configuring => 3
  | .ready => 4

/-- `NetworkPeerStateValue`. -/
structure NetworkPeerStateValue where
  id : Uuid
  networkId : Uuid
  peerId : Uuid
  peerName : String
  state : NetworkPeerState
  error : Option String
  updatedAt : String
  deriving DecidableEq, Repr

section Peers

variable [LinearOrder NetworkPeerStateValue] (left right : NetworkPeerStateValue)

/-- `compare_peer_state_values`. -/
def comparePeerStateValues : Ordering :=
  (compare left.updatedAt right.updatedAt).then <|
  (compare left.state.precedenceRank right.state.precedenceRank).then <|
  ordCmp left right

instance instTransCmpPeerStates : Std.TransCmp comparePeerStateValues := by
  unfold comparePeerStateValues
  infer_instance

instance instLawfulEqCmpPeerStates : Std.LawfulEqCmp comparePeerStateValues where
  eq_of_compare h := by
    rw [comparePeerStateValues, Ordering.then_eq_eq, Ordering.then_eq_eq, ordCmp_eq_compare] at h
    exact compare_eq_iff_eq.mp h.2.2

/-- `select_latest_peer_state`. -/
def selectLatestPeerState (values : List NetworkPeerStateValue) : Option NetworkPeerStateValue :=
  maxBy comparePeerStateValues values

/-- The order of `NetworkPeerRank`. -/
def comparePeerRanks : Ordering :=
  (compare left.updatedAt right.updatedAt).then <|
  (compare left.state.precedenceRank right.state.precedenceRank).then <|
  ordCmp left right

end Peers

end Network

/-! ## Scheduler digests -/

namespace Scheduler

/-- `SchedulerDigestValue`. -/
structure SchedulerDigestValue where
  nodeId : Uuid
  snapshotVersion : ℕ
  updatedAtUnixMs : ℕ
  freeSlotCount : ℕ
  freeCpuMillis : ℕ
  freeMemoryBytes : ℕ
  largestFreeSlotCpuMillis : ℕ
  largestFreeSlotMemoryBytes : ℕ
  freeGpuCount : ℕ
  gpuRuntimeReady : Bool
  deriving DecidableEq, Repr

variable (left right : SchedulerDigestValue)

/-- `compare_scheduler_digest_values`. -/
def compareSchedulerDigestValues : Ordering :=
  (compare left.snapshotVersion right.snapshotVersion).then <|
  (compare left.updatedAtUnixMs right.updatedAtUnixMs).then <|
  (compare left.freeSlotCount right.freeSlotCount).then <|
  (compare left.freeCpuMillis right.freeCpuMillis).then <|
  (compare left.freeMemoryBytes right.freeMemoryBytes).then <|
  (compare left.largestFreeSlotCpuMillis right.largestFreeSlotCpuMillis).then <|
  (compare left.largestFreeSlotMemoryBytes right.largestFreeSlotMemoryBytes).then <|
  (compare left.freeGpuCount right.freeGpuCount).then <|
  (compare left.gpuRuntimeReady right.gpuRuntimeReady).then <|
  compare left.nodeId right.nodeId

instance instTransCmpDigests : Std.TransCmp compareSchedulerDigestValues := by
  unfold compareSchedulerDigestValues
  infer_instance

/-- The comparison looks at every field. -/
instance instLawfulEqCmpDigests : Std.LawfulEqCmp compareSchedulerDigestValues where
  eq_of_compare {left right} h := by
    simp only [compareSchedulerDigestValues, Ordering.then_eq_eq, compare_eq_iff_eq] at h
    cases left
    cases right
    grind

/-- `select_best_scheduler_digest`. -/
def selectBestSchedulerDigest (values : List SchedulerDigestValue) : Option SchedulerDigestValue :=
  selectBest (fun current value => compareSchedulerDigestValues value current == .gt) values

/-- The order of the tuples `scheduler_digest_compaction_rank` returns. -/
def compareSchedulerDigestRanks : Ordering :=
  (compare left.snapshotVersion right.snapshotVersion).then <|
  (compare left.updatedAtUnixMs right.updatedAtUnixMs).then <|
  (compare left.freeSlotCount right.freeSlotCount).then <|
  (compare left.freeCpuMillis right.freeCpuMillis).then <|
  (compare left.freeMemoryBytes right.freeMemoryBytes).then <|
  (compare left.largestFreeSlotCpuMillis right.largestFreeSlotCpuMillis).then <|
  (compare left.largestFreeSlotMemoryBytes right.largestFreeSlotMemoryBytes).then <|
  (compare left.freeGpuCount right.freeGpuCount).then <|
  (compare left.gpuRuntimeReady right.gpuRuntimeReady).then <|
  compare left.nodeId right.nodeId

lemma digest_winner_kept [LinearOrder SchedulerDigestValue] (r : MvReg SchedulerDigestValue A)
    (sort : SliceSort (MvRegEntry SchedulerDigestValue A × ℕ)) {n : ℕ} (hn : 1 ≤ n) :
    selectBestSchedulerDigest (r.compactBy sort compareSchedulerDigestRanks ordCmp
      n).snapshot.vals = selectBestSchedulerDigest r.snapshot.vals := by
  have hrank : compareSchedulerDigestRanks = compareSchedulerDigestValues := rfl
  rw [hrank]
  refine picksGreatest_strict.kept (fun v w hle => ?_) r sort hn
  -- values that compare as equal are equal, so the tie-break plays no part
  cases hcmp : compareSchedulerDigestValues v w with
  | lt => simp [tiesReversed, hcmp]
  | gt => simp [hcmp] at hle
  | eq =>
    obtain rfl : v = w := Std.LawfulEqCmp.eq_of_compare hcmp
    simp [tiesReversed, hcmp, ordCmp_ne_gt]

end Scheduler

end Mantissa
