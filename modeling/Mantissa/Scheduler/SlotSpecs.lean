import Mantissa.Scheduler.Snapshot
import Mathlib.Algebra.Order.Floor.Div

/-!
# The slots of a node

At its start a node cuts what it has into slots of nearly the same size. The number of slots is the
greater of what the two target sizes ask for, and is then cut down to the limit and to the units
there are, so that no slot goes without a resource the node has. `splitEvenCapacity_eq` gives the
share of one slot, and `slotCount` is all that the two resources have in common.
-/

namespace Mantissa.Scheduler

open List

/-- `SCHEDULER_MAX_SLOT_COUNT`. -/
def schedulerMaxSlotCount : ℕ := 65536

/-- `RuntimeSchedulerConfig`. -/
structure RuntimeSchedulerConfig where
  reservedCpuMillis : ℕ
  reservedMemoryBytes : ℕ
  targetSlotCpuMillis : ℕ
  targetSlotMemoryBytes : ℕ
  maxSlots : ℕ

/-- What is known of a node's processors and memory. -/
structure NodeResources where
  numLogicalCpus : Option ℕ
  totalMemory : Option ℕ
  memory_le : ∀ total ∈ totalMemory, total ≤ u64Max

/-- `SlotSpec`. -/
structure SlotSpec where
  slotId : SlotId
  capacity : SlotCapacity
  deriving DecidableEq

variable (node : NodeResources) (config : RuntimeSchedulerConfig)

def allocatableCpuMillis : ℕ :=
  min ((node.numLogicalCpus.map (max · 1)).getD 1 * 1000) u64Max - config.reservedCpuMillis

def allocatableMemory : ℕ := node.totalMemory.getD 0 - config.reservedMemoryBytes

/-- The limit on the number of slots. -/
def slotLimit : ℕ := max 1 (min config.maxSlots schedulerMaxSlotCount)

/-- How many slots of the target size a resource needs. -/
def wantedSlots (allocatable target : ℕ) : ℕ :=
  if 0 < allocatable then max (allocatable ⌈/⌉ max target 1) 1 else 0

/-- The number of slots. -/
def slotCount : ℕ :=
  let cpu := allocatableCpuMillis node config
  let memory := allocatableMemory node config
  let count := max (wantedSlots cpu config.targetSlotCpuMillis)
    (wantedSlots memory config.targetSlotMemoryBytes)
  let count := min count (slotLimit config)
  let count := if 0 < cpu then min count cpu else count
  if 0 < memory then min count memory else count

/-- `split_even_capacity`. -/
def splitEvenCapacity (total slotIdx slotCount : ℕ) : ℕ :=
  if total = 0 ∨ slotCount = 0 then 0
  else if slotIdx < total % slotCount then saturatingAdd (total / slotCount) 1
  else total / slotCount

/-- `derive_slot_specs`. -/
def deriveSlotSpecs : List SlotSpec :=
  let count := slotCount node config
  (List.range count).map fun slotIdx => ⟨slotIdx,
    ⟨splitEvenCapacity (allocatableCpuMillis node config) slotIdx count,
      splitEvenCapacity (allocatableMemory node config) slotIdx count, 0⟩⟩

/-! ## One resource -/

/-- What the slots have of a resource: all of it, each about the same and none nothing, and more
than the target size only when the limit or the other resource leaves fewer slots than that size
asks for. -/
structure EvenShares (total other target limit : ℕ) (shares : List ℕ) : Prop where
  sum : shares.sum = total
  close : ∀ a ∈ shares, ∀ b ∈ shares, a ≤ b + 1
  positive : 0 < total → ∀ a ∈ shares, 0 < a
  target : ∀ a ∈ shares, max target 1 < a →
    shares.length < wantedSlots total target ∧ (shares.length = limit ∨ shares.length = other)

section Shares

variable {total other target limit count : ℕ}

lemma splitEvenCapacity_eq (hfits : total ≤ u64Max) (hcount : 0 < count) (slotIdx : ℕ) :
    splitEvenCapacity total slotIdx count =
      total / count + if slotIdx < total % count then 1 else 0 := by
  have hdiv := Nat.div_add_mod total count
  have hmul := Nat.le_mul_of_pos_left (total / count) hcount
  unfold splitEvenCapacity
  split_ifs with hzero hextra hextra
  · obtain rfl := hzero.resolve_right hcount.ne'
    simp at hextra
  · obtain rfl := hzero.resolve_right hcount.ne'
    simp
  · exact saturatingAdd_of_lt (by omega)
  · rfl

lemma sum_range_shares (base extra : ℕ) : ∀ count : ℕ,
    ((List.range count).map fun slotIdx => base + if slotIdx < extra then 1 else 0).sum =
      count * base + min extra count
  | 0 => by simp
  | count + 1 => by
    rw [range_succ, map_append, sum_append, sum_range_shares base extra count, Nat.succ_mul]
    simp only [map_cons, map_nil, sum_cons, sum_nil]
    split_ifs <;> omega

lemma wantedSlots_le : wantedSlots total target ≤ total := by
  unfold wantedSlots
  split_ifs with h
  · refine max_le ((ceilDiv_le_iff_le_mul (by omega)).mpr ?_) h
    exact Nat.le_mul_of_pos_left total (by omega)
  · exact Nat.zero_le _

lemma wantedSlots_pos (h : 0 < total) : 0 < wantedSlots total target := by
  simp [wantedSlots, h]

/-- Enough slots keep every share within the target size. -/
lemma share_le_target (hwanted : wantedSlots total target ≤ count) (slotIdx : ℕ) :
    total / count + (if slotIdx < total % count then 1 else 0) ≤ max target 1 := by
  have htotal : total ≤ max target 1 * count := by
    unfold wantedSlots at hwanted
    split_ifs at hwanted with h
    · exact (ceilDiv_le_iff_le_mul (by omega)).mp ((le_max_left _ _).trans hwanted)
    · omega
  split_ifs with hextra
  · refine Nat.div_lt_of_lt_mul (lt_of_le_of_ne (Nat.mul_comm _ _ ▸ htotal) ?_)
    rintro rfl
    simp at hextra
  · exact Nat.div_le_of_le_mul (Nat.mul_comm _ _ ▸ htotal)

/-- The shares of one resource, given what the number of slots is cut down to. -/
lemma evenShares (hfits : total ≤ u64Max) (htotal : 0 < total → 0 < count ∧ count ≤ total)
    (hcapped : count < wantedSlots total target → count = limit ∨ count = other) :
    EvenShares total other target limit
      ((List.range count).map fun slotIdx => splitEvenCapacity total slotIdx count) := by
  rcases Nat.eq_zero_or_pos count with rfl | hcount
  · exact ⟨by simp; omega, by simp, by simp, by simp⟩
  simp only [splitEvenCapacity_eq hfits hcount]
  have hmod := Nat.mod_lt total hcount
  refine ⟨?_, ?_, ?_, ?_⟩
  · rw [sum_range_shares, min_eq_left hmod.le, Nat.div_add_mod]
  · simp only [forall_mem_map, mem_range]
    intro a _ b _
    split_ifs <;> omega
  · simp only [forall_mem_map, mem_range]
    intro hpos a _
    have := Nat.div_pos (htotal hpos).2 hcount
    omega
  · simp only [forall_mem_map, mem_range, length_map, length_range]
    intro a _ hlt
    have hwanted := not_le.mp fun h => (share_le_target h a).not_gt hlt
    exact ⟨hwanted, hcapped hwanted⟩

end Shares

/-! ## Both resources -/

/-- What the number of slots is cut down to. -/
lemma slotCount_capped (node : NodeResources) (config : RuntimeSchedulerConfig) :
    let count := slotCount node config
    let cpu := allocatableCpuMillis node config
    let memory := allocatableMemory node config
    count ≤ slotLimit config ∧ (0 < cpu → 0 < count ∧ count ≤ cpu) ∧
      (0 < memory → 0 < count ∧ count ≤ memory) ∧
      (count < wantedSlots cpu config.targetSlotCpuMillis → count = slotLimit config ∨
        count = memory) ∧
      (count < wantedSlots memory config.targetSlotMemoryBytes →
        count = slotLimit config ∨ count = cpu) := by
  have hlimit : 0 < slotLimit config := lt_max_of_lt_left Nat.one_pos
  simp only [slotCount]
  generalize allocatableCpuMillis node config = cpu
  generalize allocatableMemory node config = memory
  have hcpu := @wantedSlots_le cpu config.targetSlotCpuMillis
  have hmemory := @wantedSlots_le memory config.targetSlotMemoryBytes
  have hcpuPos := @wantedSlots_pos cpu config.targetSlotCpuMillis
  have hmemoryPos := @wantedSlots_pos memory config.targetSlotMemoryBytes
  split_ifs <;> omega

/-- **No capacity is lost.** There are at most as many slots as the limit allows, and some unless
nothing is left to allocate; they are numbered from zero, and each resource is shared out evenly. A
limit or a target size of zero, which the configuration does not accept, counts as one. -/
theorem deriveSlotSpecs_even (node : NodeResources) (config : RuntimeSchedulerConfig) :
    let specs := deriveSlotSpecs node config
    let cpu := allocatableCpuMillis node config
    let memory := allocatableMemory node config
    specs.length ≤ slotLimit config ∧ (specs = [] → cpu = 0 ∧ memory = 0) ∧
      specs.map SlotSpec.slotId = List.range specs.length ∧
      EvenShares cpu memory config.targetSlotCpuMillis (slotLimit config)
        (specs.map fun spec => spec.capacity.cpuMillis) ∧
      EvenShares memory cpu config.targetSlotMemoryBytes (slotLimit config)
        (specs.map fun spec => spec.capacity.memoryBytes) := by
  have hcpu : allocatableCpuMillis node config ≤ u64Max := (Nat.sub_le _ _).trans (min_le_right _ _)
  have hmemory : allocatableMemory node config ≤ u64Max := by
    refine (Nat.sub_le _ _).trans ?_
    cases htotal : node.totalMemory with
    | none => exact Nat.zero_le _
    | some total => exact node.memory_le total htotal
  obtain ⟨hlimit, hcpuCount, hmemoryCount, hcpuCapped, hmemoryCapped⟩ :=
    slotCount_capped node config
  simp only [deriveSlotSpecs, map_map, Function.comp_def, length_map, length_range,
    map_eq_nil_iff, range_eq_nil, map_id']
  refine ⟨hlimit, fun hzero => ⟨?_, ?_⟩, trivial, evenShares hcpu hcpuCount hcpuCapped,
    evenShares hmemory hmemoryCount hmemoryCapped⟩
  · exact Nat.eq_zero_of_not_pos fun hpos => (hcpuCount hpos).1.ne' hzero
  · exact Nat.eq_zero_of_not_pos fun hpos => (hmemoryCount hpos).1.ne' hzero

end Mantissa.Scheduler
