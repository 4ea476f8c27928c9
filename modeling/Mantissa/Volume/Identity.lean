import Mantissa.Core.Machine

/-!
# Volume identities and descriptors

The identities of the volume crate are UUIDs that are not nil, told apart by their kind, and its
generations, capacities and fences are 64-bit numbers that are not zero. A descriptor is only ever
built by `VolumeDescriptor.new`, which checks the capacity against each block size, so here the
alignment is a field.
-/

namespace Mantissa

/-- What a UUID stands for. -/
inductive IdentityKind
  | volume
  | volumeNode
  | driverSession
  | recovery
  | replacement
  deriving DecidableEq

/-- A UUID that is not nil. -/
structure Identity (kind : IdentityKind) where
  uuid : Fin (2 ^ 128)
  not_nil : uuid ≠ 0

namespace Identity

variable {kind : IdentityKind}

lemma uuid_injective : Function.Injective (uuid : Identity kind → Fin (2 ^ 128)) := by
  rintro ⟨uuid, _⟩ ⟨_, _⟩ rfl
  rfl

instance : LinearOrder (Identity kind) := LinearOrder.lift' uuid uuid_injective

end Identity

abbrev VolumeId := Identity .volume
abbrev VolumeNodeId := Identity .volumeNode
abbrev DriverSessionId := Identity .driverSession
abbrev RecoveryId := Identity .recovery
abbrev ReplacementId := Identity .replacement

/-- A `u64` that is not zero. -/
structure NonzeroU64 where
  get : ℕ
  pos : 0 < get
  le_max : get ≤ u64Max

namespace NonzeroU64

lemma get_injective : Function.Injective get := by
  rintro ⟨value, _, _⟩ ⟨_, _, _⟩ rfl
  rfl

instance : LinearOrder NonzeroU64 := LinearOrder.lift' get get_injective

end NonzeroU64

abbrev VolumeGeneration := NonzeroU64
abbrev VolumeCapacity := NonzeroU64
abbrev FenceEpoch := NonzeroU64

namespace FenceEpoch

/-- `FenceEpoch::initial`. -/
def initial : FenceEpoch := ⟨1, Nat.one_pos, one_le_u64Max⟩

/-- `FenceEpoch::next`: none after the largest value. -/
def next (fence : FenceEpoch) : Option FenceEpoch :=
  if h : fence.get + 1 ≤ u64Max then some ⟨fence.get + 1, Nat.succ_pos _, h⟩ else none

lemma lt_of_next {fence fence' : FenceEpoch} (h : next fence = some fence') : fence < fence' := by
  rw [next] at h
  split_ifs at h
  cases h
  exact Nat.lt_succ_self fence.get

end FenceEpoch

/-! ## Descriptors -/

/-- `BlockSizeSetting`. -/
inductive BlockSizeSetting
  | logicalSector
  | physicalBlock
  | minimumIo
  | dataBlock
  deriving DecidableEq

/-- `REQUIRED_BLOCK_BYTES`. -/
def requiredBlockBytes : ℕ := 4 * 1024

/-- A block size the format supports. -/
structure BlockSize where
  bytes : ℕ
  supported : bytes = requiredBlockBytes
  deriving DecidableEq

/-- `VolumeBlockSizes`. -/
structure VolumeBlockSizes where
  logicalSector : BlockSize
  physicalBlock : BlockSize
  minimumIo : BlockSize
  dataBlock : BlockSize
  deriving DecidableEq

/-- The block sizes a capacity is checked against, in the order they are checked. -/
def VolumeBlockSizes.alignments (sizes : VolumeBlockSizes) : List (BlockSizeSetting × ℕ) :=
  [(.logicalSector, sizes.logicalSector.bytes), (.physicalBlock, sizes.physicalBlock.bytes),
    (.minimumIo, sizes.minimumIo.bytes), (.dataBlock, sizes.dataBlock.bytes)]

/-- `DescriptorError`, as far as a capacity that is not zero can cause it. -/
inductive DescriptorError
  | misalignedCapacity (capacityBytes : ℕ) (setting : BlockSizeSetting) (alignmentBytes : ℕ)
  deriving DecidableEq

/-- `VolumeDescriptor`. -/
structure VolumeDescriptor where
  volumeId : VolumeId
  generation : VolumeGeneration
  capacity : VolumeCapacity
  blockSizes : VolumeBlockSizes
  aligned : ∀ alignment ∈ blockSizes.alignments, alignment.2 ∣ capacity.get

namespace VolumeDescriptor

@[ext] lemma ext' {d e : VolumeDescriptor} (hid : d.volumeId = e.volumeId)
    (hgeneration : d.generation = e.generation) (hcapacity : d.capacity = e.capacity)
    (hsizes : d.blockSizes = e.blockSizes) : d = e := by
  obtain ⟨_, _, _, _, _⟩ := e
  obtain rfl : _ = _ := hid
  obtain rfl : _ = _ := hgeneration
  obtain rfl : _ = _ := hcapacity
  obtain rfl : _ = _ := hsizes
  rfl

instance : DecidableEq VolumeDescriptor := fun d e =>
  decidable_of_iff (d.volumeId = e.volumeId ∧ d.generation = e.generation ∧
      d.capacity = e.capacity ∧ d.blockSizes = e.blockSizes)
    ⟨fun h => ext' h.1 h.2.1 h.2.2.1 h.2.2.2, fun h => by subst h; exact ⟨rfl, rfl, rfl, rfl⟩⟩

/-- `VolumeDescriptor::new`, from a capacity that is already known not to be zero: the first block
size that does not divide it is reported. -/
def new (volumeId : VolumeId) (generation : VolumeGeneration) (capacity : VolumeCapacity)
    (blockSizes : VolumeBlockSizes) : Except DescriptorError VolumeDescriptor :=
  match h : blockSizes.alignments.find? fun alignment => decide (¬ alignment.2 ∣ capacity.get) with
  | some (setting, alignment) => .error (.misalignedCapacity capacity.get setting alignment)
  | none => .ok ⟨volumeId, generation, capacity, blockSizes, fun alignment hmem => by
    have hnone := List.find?_eq_none.mp h alignment hmem
    simpa using hnone⟩

/-- `with_capacity`. -/
def withCapacity (d : VolumeDescriptor) (capacity : VolumeCapacity) :
    Except DescriptorError VolumeDescriptor :=
  new d.volumeId d.generation capacity d.blockSizes

/-- `has_same_storage_identity`. -/
def hasSameStorageIdentity (d other : VolumeDescriptor) : Bool :=
  decide (d.volumeId = other.volumeId ∧ d.generation = other.generation ∧
    d.blockSizes = other.blockSizes)

lemma hasSameStorageIdentity_iff {d other : VolumeDescriptor} :
    d.hasSameStorageIdentity other = true ↔ d.volumeId = other.volumeId ∧
      d.generation = other.generation ∧ d.blockSizes = other.blockSizes :=
  decide_eq_true_iff

/-- A descriptor that was built has the parts it was built from. -/
lemma new_eq_ok {volumeId : VolumeId} {generation : VolumeGeneration} {capacity : VolumeCapacity}
    {blockSizes : VolumeBlockSizes} {d : VolumeDescriptor}
    (h : new volumeId generation capacity blockSizes = .ok d) :
    d.volumeId = volumeId ∧ d.generation = generation ∧ d.capacity = capacity ∧
      d.blockSizes = blockSizes := by
  rw [new] at h
  split at h
  · cases h
  · cases h
    exact ⟨rfl, rfl, rfl, rfl⟩

end VolumeDescriptor

end Mantissa
