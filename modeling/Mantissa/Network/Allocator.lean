import Mantissa.Network.Cidr

/-!
# The addresses of an overlay network

Three functions hand out addresses of a network: tasks get offsets `2 mod 4`, resolvers odd offsets
and service addresses offsets `0 mod 4`. Each adds its offset to the base address as it was
written, not to the masked network address, with its own treatment of overflow (wrapping for tasks
and resolvers, saturating for services, and a cast to 32 bits for IPv4).

Each offset is one of the block's, and the address is the base plus the offset wherever that does
not leave the numbers of the family (`task_offset`, `resolver_offset`, `vip_offset`). The greatest
offset is the resolver's, three below the size of the block. Hence the addresses stay in the block
if the base is at most two above the network address, or if the block is the whole family, and only
then (`fitsBlock_of_contains`).

The hash of the ids is an input: a pair of words.
-/

namespace Mantissa.Network

open Nat

/-! ## Subnets -/

/-- `ParsedOverlaySubnet`. -/
structure ParsedOverlaySubnet where
  baseIp : IpAddr
  prefixLen : ℕ
  prefixLen_le : prefixLen ≤ baseIp.family.addressBits
  deriving DecidableEq

/-- `parse_overlay_cidr`. Unlike `CidrBlock::parse` it does not trim the text. -/
def parseOverlayCidr (text : CidrText) (cidr : String) : Except CidrError ParsedOverlaySubnet :=
  match text.splitOnce cidr with
  | none => .error (.missingDelimiter cidr)
  | some (baseText, prefixText) =>
    match text.parseU8 prefixText with
    | none => .error (.prefixNotANumber cidr)
    | some prefixLen =>
      match text.parseAddress baseText with
      | none => .error (.invalidBase cidr)
      | some base =>
        if h : prefixLen ≤ base.family.addressBits then .ok ⟨base, prefixLen, h⟩
        else .error (.prefixExceeds cidr prefixLen base.family)

namespace ParsedOverlaySubnet

def family (subnet : ParsedOverlaySubnet) : IpFamily := subnet.baseIp.family

/-- `host_bits`. -/
def hostBits (subnet : ParsedOverlaySubnet) : ℕ := subnet.family.addressBits - subnet.prefixLen

/-- The block of a subnet. -/
def block (subnet : ParsedOverlaySubnet) : CidrBlock :=
  .ofAddress subnet.baseIp subnet.prefixLen subnet.prefixLen_le

end ParsedOverlaySubnet

/-- What the address functions can read, the overlap check reads as the same subnet. -/
lemma parse_of_parseOverlayCidr {text : CidrText} {cidr : String} {subnet : ParsedOverlaySubnet}
    (h : parseOverlayCidr text cidr = .ok subnet) :
    text.trim cidr = cidr ∧ CidrBlock.parse text cidr = .ok subnet.block := by
  unfold parseOverlayCidr at h
  rcases hsplit : text.splitOnce cidr with _ | ⟨baseText, prefixText⟩ <;>
    simp only [hsplit, reduceCtorEq] at h
  rcases hlen : text.parseU8 prefixText with _ | prefixLen <;>
    simp only [hlen, reduceCtorEq] at h
  rcases hbase : text.parseAddress baseText with _ | base <;>
    simp only [hbase, reduceCtorEq] at h
  split_ifs at h with hle
  cases h
  have htrim := text.trim_eq hsplit hbase hlen
  refine ⟨htrim, ?_⟩
  simp only [CidrBlock.parse, htrim, hsplit, hlen, hbase, dif_pos hle]
  rfl

/-! ## The layout of a subnet -/

inductive OverlayError
  | cidr (error : CidrError)
  | wholeIpv6
  | invalidSubnet
  | tooSmall
  | noTaskCapacity
  | noFreeAddress
  | probeWindowExhausted
  | noResolverCapacity
  deriving DecidableEq

/-- `OverlayLayout`. -/
structure OverlayLayout where
  family : IpFamily
  base : ℕ
  nodeSlots : ℕ
  taskSlots : ℕ
  deriving DecidableEq

/-- `raw as u32` for IPv4; an IPv6 address is the number itself. -/
def IpFamily.address (family : IpFamily) (raw : ℕ) : IpAddr :=
  ⟨family, raw % 2 ^ family.addressBits, Nat.mod_lt _ (Nat.two_pow_pos _)⟩

/-- `address_at`. -/
def OverlayLayout.addressAt (layout : OverlayLayout) (offset : ℕ) : IpAddr :=
  layout.family.address ((layout.base + offset) % 2 ^ 128)

/-- `u128::saturating_mul`. -/
def saturatingMul128 (a b : ℕ) : ℕ := min (a * b) u128Max

/-- `u128::saturating_add`. -/
def saturatingAdd128 (a b : ℕ) : ℕ := min (a + b) u128Max

/-- `address_for_task_slot`. -/
def OverlayLayout.addressForTaskSlot (layout : OverlayLayout) (slot : ℕ) : IpAddr :=
  layout.addressAt (2 + saturatingMul128 slot 4)

/-- `overlay_layout`. -/
def overlayLayout (text : CidrText) (cidr : String) : Except OverlayError OverlayLayout :=
  match parseOverlayCidr text cidr with
  | .error error => .error (.cidr error)
  | .ok subnet =>
    if subnet.family = .ipv6 ∧ subnet.hostBits = 128 then .error .wholeIpv6
    else
      let maxHosts := 2 ^ subnet.hostBits
      if maxHosts < 2 then .error .invalidSubnet
      else if maxHosts - 2 < 2 then .error .tooSmall
      else .ok ⟨subnet.family, subnet.baseIp.value, (maxHosts - 2) / 2, (maxHosts - 2) / 4⟩

/-! ## Handing out addresses -/

/-- The two words of a hash. -/
structure Digest where
  low : BitVec 128
  high : BitVec 128
  deriving DecidableEq

/-- A local address made of five bytes of a hash. -/
def macFrom (word : BitVec 128) (firstByte : ℕ) : List (BitVec 8) :=
  2 :: (List.range 5).map fun i => (word >>> (8 * (firstByte + i))).truncate 8

/-- The search of `probe_step` for a stride without a common divisor. A search that reaches the
number of slots goes on with 1, which has none. -/
def coprimeStep (taskSlots step : ℕ) : ℕ :=
  if Nat.gcd step taskSlots = 1 then step
  else if step + 1 < taskSlots then coprimeStep taskSlots (step + 1)
  else 1
termination_by taskSlots - step

/-- `probe_step`. -/
def probeStep (digest : Digest) (taskSlots : ℕ) : ℕ :=
  if taskSlots ≤ 1 then 1
  else
    let step := digest.high.toNat % taskSlots
    coprimeStep taskSlots (if step = 0 then 1 else step)

/-- The probes of `allocate_overlay_address_avoiding`. -/
def probeTaskSlots (layout : OverlayLayout) (startSlot step : ℕ) (isOccupied : IpAddr → Bool) :
    (probe budget : ℕ) → Option IpAddr
  | _, 0 => none
  | probe, budget + 1 =>
    let slot := ((startSlot + saturatingMul128 probe step) % 2 ^ 128) % layout.taskSlots
    let assigned := layout.addressForTaskSlot slot
    if !isOccupied assigned then some assigned
    else probeTaskSlots layout startSlot step isOccupied (probe + 1) budget

variable (text : CidrText) (cidr : String) (digest : Digest)

/-- `allocate_overlay_address_avoiding`. -/
def allocateOverlayAddressAvoiding
    (occupiedCount : ℕ) (isOccupied : IpAddr → Bool) :
    Except OverlayError (IpAddr × List (BitVec 8)) :=
  match overlayLayout text cidr with
  | .error error => .error error
  | .ok layout =>
    if layout.taskSlots = 0 then .error .noTaskCapacity
    else if layout.taskSlots ≤ occupiedCount then .error .noFreeAddress
    else
      match probeTaskSlots layout (digest.low.toNat % layout.taskSlots)
          (probeStep digest layout.taskSlots) isOccupied 0 (saturatingAdd128 occupiedCount 1) with
      | some assigned => .ok (assigned, macFrom digest.high 0)
      | none => .error .probeWindowExhausted

/-- `resolver_ip_address`. -/
def resolverIpAddress : Except OverlayError IpAddr :=
  match overlayLayout text cidr with
  | .error error => .error error
  | .ok layout =>
    if layout.nodeSlots = 0 then .error .noResolverCapacity
    else .ok (layout.addressAt (1 + saturatingMul128 (digest.low.toNat % layout.nodeSlots) 2))

/-- The probes of `compute_service_vip`. -/
def probeVips (subnet : ParsedOverlaySubnet) (availableVips : ℕ) (backendIps : List IpAddr) :
    (slot budget : ℕ) → Option IpAddr
  | _, 0 => none
  | slot, budget + 1 =>
    let vip := subnet.family.address (saturatingAdd128 subnet.baseIp.value slot)
    if vip ∉ backendIps then some vip
    else
      let next := ((slot + 4) % 2 ^ 128) % (availableVips * 4)
      probeVips subnet availableVips backendIps (if next < 8 then 8 else next) budget

/-- `compute_service_vip` for a network that is registered. -/
def computeServiceVip (backends : List IpAddr) :
    Option (IpAddr × List (BitVec 8)) :=
  match parseOverlayCidr text cidr with
  | .error _ => none
  | .ok subnet =>
    if subnet.hostBits < 4 then none
    else if subnet.family = .ipv6 ∧ subnet.hostBits = 128 then none
    else
      let availableVips := (2 ^ subnet.hostBits - 16) / 4
      if availableVips = 0 then none
      else
        let backendIps := (backends.filter (·.family = subnet.family)).dedup
        if backendIps.length ≠ backends.length then none
        else
          (probeVips subnet availableVips backendIps
            ((digest.low.toNat % availableVips) * 4 + 8) (min availableVips 16)).map
              fun vip => (vip, macFrom digest.low 4)

/-! ## Offsets -/

namespace ParsedOverlaySubnet

variable {subnet : ParsedOverlaySubnet}

/-- The address an offset from the base leads to. -/
def addressAt (subnet : ParsedOverlaySubnet) (offset : ℕ) : IpAddr :=
  subnet.family.address (subnet.baseIp.value + offset)

/-- The base is close to the network address, or the block is the whole family. -/
def FitsBlock (subnet : ParsedOverlaySubnet) : Prop :=
  subnet.hostBits = subnet.family.addressBits ∨ subnet.baseIp.value % 2 ^ subnet.hostBits ≤ 2

lemma base_lt (subnet : ParsedOverlaySubnet) :
    subnet.baseIp.value < 2 ^ subnet.family.addressBits := subnet.baseIp.bound

lemma hostBits_le (subnet : ParsedOverlaySubnet) : subnet.hostBits ≤ subnet.family.addressBits :=
  sub_le _ _

lemma block_network : subnet.block.network =
    subnet.baseIp.value / 2 ^ subnet.hostBits * 2 ^ subnet.hostBits :=
  normalizeNetwork_eq subnet.base_lt subnet.family.addressBits_le

lemma base_eq : subnet.baseIp.value =
    subnet.block.network + subnet.baseIp.value % 2 ^ subnet.hostBits := by
  rw [block_network]
  exact (div_add_mod' _ _).symm

/-- A block ends within its family. -/
lemma block_end_le : subnet.block.network + 2 ^ subnet.hostBits ≤
    2 ^ subnet.family.addressBits := by
  obtain ⟨c, hc⟩ := pow_dvd_pow 2 subnet.hostBits_le
  have hlt := subnet.base_lt
  rw [hc] at hlt ⊢
  rw [block_network, ← succ_mul, mul_comm]
  exact Nat.mul_le_mul_left _ (Nat.div_lt_of_lt_mul hlt)

lemma value_addressAt (offset : ℕ) : (subnet.addressAt offset).value =
    (subnet.baseIp.value + offset) % 2 ^ subnet.family.addressBits := rfl

/-- Different offsets of a block lead to different addresses. -/
lemma addressAt_inj {offset other : ℕ} (hoffset : offset < 2 ^ subnet.hostBits)
    (hother : other < 2 ^ subnet.hostBits) (h : subnet.addressAt offset = subnet.addressAt other) :
    offset = other := by
  have hmod : subnet.baseIp.value + offset ≡ subnet.baseIp.value + other
      [MOD 2 ^ subnet.family.addressBits] := congrArg IpAddr.value h
  have hle : 2 ^ subnet.hostBits ≤ 2 ^ subnet.family.addressBits :=
    Nat.pow_le_pow_right (by decide) subnet.hostBits_le
  exact (Nat.ModEq.add_left_cancel' _ hmod).eq_of_lt_of_lt (hoffset.trans_le hle)
    (hother.trans_le hle)

/-- The greatest offset of a resolver leaves the block if the base is too far from its start. -/
lemma fitsBlock_of_contains
    (h : subnet.block.Contains (subnet.addressAt (2 ^ subnet.hostBits - 3))) :
    subnet.FitsBlock := by
  by_contra hfits
  obtain ⟨hwhole, hbase⟩ := not_or.mp hfits
  obtain ⟨-, hge, hlt⟩ := h
  have hhostBits : subnet.block.hostBits = subnet.hostBits := rfl
  rw [value_addressAt, hhostBits] at hlt
  rw [value_addressAt] at hge
  have hbase_eq := subnet.base_eq
  -- The block is a multiple of its size, and so is the end of the family.
  have hdouble : 2 * 2 ^ subnet.hostBits ≤ 2 ^ subnet.family.addressBits := by
    rw [← Nat.pow_succ']
    exact Nat.pow_le_pow_right (by decide) (Nat.lt_of_le_of_ne subnet.hostBits_le hwhole)
  rcases Nat.lt_or_ge (subnet.baseIp.value + (2 ^ subnet.hostBits - 3))
      (2 ^ subnet.family.addressBits) with hsmall | hlarge
  · rw [Nat.mod_eq_of_lt hsmall] at hlt
    omega
  · rw [Nat.mod_eq_sub_mod hlarge, Nat.mod_eq_of_lt (by omega)] at hge hlt
    omega

end ParsedOverlaySubnet

/-! ## What the three functions return -/

section Returned

variable {text : CidrText} {cidr : String} {digest : Digest} {address : IpAddr}
variable {subnet : ParsedOverlaySubnet}

/-- A subnet that has addresses to hand out. -/
def Serves (subnet : ParsedOverlaySubnet) : Prop := 2 ≤ subnet.hostBits ∧ subnet.hostBits < 128

/-- The layout of a subnet. -/
def ParsedOverlaySubnet.layout (subnet : ParsedOverlaySubnet) : OverlayLayout :=
  ⟨subnet.family, subnet.baseIp.value, (2 ^ subnet.hostBits - 2) / 2,
    (2 ^ subnet.hostBits - 2) / 4⟩

lemma not_whole_iff (subnet : ParsedOverlaySubnet) :
    ¬ (subnet.family = .ipv6 ∧ subnet.hostBits = 128) ↔ subnet.hostBits < 128 := by
  have hle := subnet.hostBits_le
  cases hfamily : subnet.family with
  | ipv4 =>
    rw [hfamily] at hle
    have : IpFamily.ipv4.addressBits = 32 := rfl
    omega
  | ipv6 =>
    rw [hfamily] at hle
    have : IpFamily.ipv6.addressBits = 128 := rfl
    simp
    omega

lemma overlayLayout_eq (h : parseOverlayCidr text cidr = .ok subnet) (hserves : Serves subnet) :
    overlayLayout text cidr = .ok subnet.layout := by
  have hsize : 2 ^ 2 ≤ 2 ^ subnet.hostBits := Nat.pow_le_pow_right (by decide) hserves.1
  simp only [overlayLayout, h]
  rw [if_neg ((not_whole_iff subnet).mpr hserves.2), if_neg (by omega), if_neg (by omega)]
  rfl

lemma overlayLayout_ok {layout : OverlayLayout} (h : overlayLayout text cidr = .ok layout) :
    ∃ subnet, parseOverlayCidr text cidr = .ok subnet ∧ Serves subnet ∧ layout = subnet.layout := by
  unfold overlayLayout at h
  rcases hparse : parseOverlayCidr text cidr with error | subnet <;>
    simp only [hparse, reduceCtorEq] at h
  split_ifs at h with hwhole hsmall hspan
  refine ⟨subnet, rfl, ⟨?_, (not_whole_iff subnet).mp hwhole⟩, (Except.ok.inj h).symm⟩
  by_contra hhost
  have hle : 2 ^ subnet.hostBits ≤ 2 ^ 1 := Nat.pow_le_pow_right (by decide) (by omega)
  omega

lemma Serves.size_lt (h : Serves subnet) : 2 ^ subnet.hostBits ≤ 2 ^ 127 :=
  Nat.pow_le_pow_right (by decide) (Nat.le_of_lt_succ h.2)

lemma addressAt_layout (offset : ℕ) : subnet.layout.addressAt offset = subnet.addressAt offset := by
  have hmod : (subnet.baseIp.value + offset) % 2 ^ 128 % 2 ^ subnet.family.addressBits =
      (subnet.baseIp.value + offset) % 2 ^ subnet.family.addressBits :=
    mod_mod_of_dvd _ (pow_dvd_pow 2 subnet.family.addressBits_le)
  simp only [OverlayLayout.addressAt, ParsedOverlaySubnet.addressAt, ParsedOverlaySubnet.layout,
    IpFamily.address, hmod]

variable {isOccupied : IpAddr → Bool}

lemma probeTaskSlots_some {layout : OverlayLayout} {startSlot step : ℕ}
    (hslots : 0 < layout.taskSlots) : ∀ {budget probe : ℕ},
      probeTaskSlots layout startSlot step isOccupied probe budget = some address →
      (∃ slot < layout.taskSlots, address = layout.addressForTaskSlot slot) ∧
        isOccupied address = false
  | 0, _, h => by cases h
  | budget + 1, probe, h => by
    rw [probeTaskSlots] at h
    split_ifs at h with hfree
    · cases h
      exact ⟨⟨_, mod_lt _ hslots, rfl⟩, by simpa using hfree⟩
    · exact probeTaskSlots_some hslots h

/-- A task gets an address at an offset `2 mod 4`. -/
lemma task_offset {occupiedCount : ℕ} {mac : List (BitVec 8)}
    (h : allocateOverlayAddressAvoiding text cidr digest occupiedCount isOccupied =
      .ok (address, mac)) : ∃ subnet, parseOverlayCidr text cidr = .ok subnet ∧ Serves subnet ∧
      ∃ offset, offset % 4 = 2 ∧ offset + 3 ≤ 2 ^ subnet.hostBits ∧
        address = subnet.addressAt offset := by
  unfold allocateOverlayAddressAvoiding at h
  rcases hlayout : overlayLayout text cidr with error | layout <;>
    simp only [hlayout, reduceCtorEq] at h
  obtain ⟨subnet, hparse, hserves, rfl⟩ := overlayLayout_ok hlayout
  split_ifs at h with hnone hfull
  split at h
  case h_2 => cases h
  case h_1 assigned hprobe =>
    cases h
    obtain ⟨⟨slot, hslot, rfl⟩, -⟩ := probeTaskSlots_some (pos_of_ne_zero hnone) hprobe
    have hslots : slot < (2 ^ subnet.hostBits - 2) / 4 := hslot
    have hsize := hserves.size_lt
    have hmul : saturatingMul128 slot 4 = slot * 4 := by
      unfold saturatingMul128 u128Max
      omega
    refine ⟨subnet, hparse, hserves, 2 + slot * 4, by omega, by omega, ?_⟩
    rw [OverlayLayout.addressForTaskSlot, hmul, addressAt_layout]

/-- A resolver gets an address at an odd offset. -/
lemma resolver_offset (h : resolverIpAddress text cidr digest = .ok address) :
    ∃ subnet, parseOverlayCidr text cidr = .ok subnet ∧ Serves subnet ∧
      ∃ offset, offset % 2 = 1 ∧ offset + 3 ≤ 2 ^ subnet.hostBits ∧
        address = subnet.addressAt offset := by
  unfold resolverIpAddress at h
  rcases hlayout : overlayLayout text cidr with error | layout <;>
    simp only [hlayout, reduceCtorEq] at h
  obtain ⟨subnet, hparse, hserves, rfl⟩ := overlayLayout_ok hlayout
  split_ifs at h with hnone
  cases h
  have hslot : digest.low.toNat % subnet.layout.nodeSlots < (2 ^ subnet.hostBits - 2) / 2 :=
    mod_lt _ (pos_of_ne_zero hnone)
  generalize digest.low.toNat % subnet.layout.nodeSlots = slot at hslot
  have hsize := hserves.size_lt
  have hmul : saturatingMul128 slot 2 = slot * 2 := by
    unfold saturatingMul128 u128Max
    omega
  refine ⟨subnet, hparse, hserves, 1 + slot * 2, by omega, by omega, ?_⟩
  rw [hmul, addressAt_layout]

/-- Every odd offset of a block is a resolver's for some node. -/
lemma resolver_reaches (h : parseOverlayCidr text cidr = .ok subnet) (hserves : Serves subnet) :
    ∃ digest, resolverIpAddress text cidr digest =
      .ok (subnet.addressAt (2 ^ subnet.hostBits - 3)) := by
  have hsize := hserves.size_lt
  obtain ⟨k, hk⟩ : ∃ k, 2 ^ subnet.hostBits = 2 * k + 4 := by
    obtain ⟨m, hm⟩ := Nat.exists_eq_add_of_le hserves.1
    have hpos := Nat.two_pow_pos m
    refine ⟨2 * 2 ^ m - 2, ?_⟩
    rw [hm, pow_add]
    omega
  have hslots : subnet.layout.nodeSlots = k + 1 := by
    simp only [ParsedOverlaySubnet.layout, hk]
    omega
  refine ⟨⟨BitVec.ofNat 128 k, 0⟩, ?_⟩
  have hlow : (BitVec.ofNat 128 k).toNat = k := by
    rw [BitVec.toNat_ofNat, mod_eq_of_lt (by omega)]
  have hmul : saturatingMul128 k 2 = k * 2 := by
    unfold saturatingMul128 u128Max
    omega
  simp only [resolverIpAddress, overlayLayout_eq h hserves, hslots, hlow]
  rw [if_neg (succ_ne_zero k), mod_eq_of_lt (lt_succ_self k), hmul, addressAt_layout, hk]
  congr 2
  omega

lemma probeVips_some {availableVips : ℕ} {backendIps : List IpAddr} (hserves : Serves subnet)
    (hvips : availableVips * 4 + 16 = 2 ^ subnet.hostBits) (hpos : 0 < availableVips) :
    ∀ {budget slot : ℕ}, slot % 4 = 0 → slot + 12 ≤ 2 ^ subnet.hostBits →
      probeVips subnet availableVips backendIps slot budget = some address →
      ∃ offset, offset % 4 = 0 ∧ offset + 12 ≤ 2 ^ subnet.hostBits ∧
        address = subnet.family.address (saturatingAdd128 subnet.baseIp.value offset)
  | 0, _, _, _, h => by cases h
  | budget + 1, slot, hmod, hle, h => by
    rw [probeVips] at h
    by_cases hfree : subnet.family.address (saturatingAdd128 subnet.baseIp.value slot) ∈ backendIps
    · have hsize := hserves.size_lt
      have hwrap : (slot + 4) % 2 ^ 128 = slot + 4 := mod_eq_of_lt (by omega)
      have hlt := mod_lt (slot + 4) (mul_pos hpos (by decide : 0 < 4))
      have hnext : (slot + 4) % (availableVips * 4) % 4 = 0 := by
        rw [mod_mod_of_dvd _ (Dvd.intro_left availableVips rfl)]
        omega
      simp only [hfree, not_true_eq_false, if_false, hwrap] at h
      split_ifs at h with hlow
      · exact probeVips_some hserves hvips hpos (by decide) (by omega) h
      · exact probeVips_some hserves hvips hpos hnext (by omega) h
    · simp only [hfree, not_false_eq_true, if_true, Option.some.injEq] at h
      exact ⟨slot, hmod, hle, h.symm⟩

/-- A service gets an address at an offset `0 mod 4`, unless the addition saturates. -/
lemma vip_offset {backends : List IpAddr} {mac : List (BitVec 8)}
    (h : computeServiceVip text cidr digest backends = some (address, mac)) :
    ∃ subnet, parseOverlayCidr text cidr = .ok subnet ∧ Serves subnet ∧
      ∃ offset, offset % 4 = 0 ∧ offset + 3 ≤ 2 ^ subnet.hostBits ∧
        address = subnet.family.address (saturatingAdd128 subnet.baseIp.value offset) := by
  unfold computeServiceVip at h
  rcases hparse : parseOverlayCidr text cidr with error | subnet <;>
    simp only [hparse, reduceCtorEq] at h
  split_ifs at h with hhost hwhole hnone hbackends
  have hserves : Serves subnet := ⟨by omega, (not_whole_iff subnet).mp hwhole⟩
  obtain ⟨vip, hprobe, hvip⟩ := Option.map_eq_some_iff.mp h
  cases hvip
  have hpos := pos_of_ne_zero hnone
  have hvips : (2 ^ subnet.hostBits - 16) / 4 * 4 + 16 = 2 ^ subnet.hostBits := by
    obtain ⟨m, hm⟩ := Nat.exists_eq_add_of_le (show 4 ≤ subnet.hostBits by omega)
    have hpos := Nat.two_pow_pos m
    rw [hm, pow_add]
    omega
  have hslot := mod_lt digest.low.toNat hpos
  obtain ⟨offset, hmod, hle, rfl⟩ := probeVips_some hserves hvips hpos (by omega) (by omega) hprobe
  exact ⟨subnet, rfl, hserves, offset, hmod, by omega, rfl⟩

/-- Within a block that fits, the addition does not saturate. -/
lemma vip_addressAt (hserves : Serves subnet) (hfits : subnet.FitsBlock) {offset : ℕ}
    (hoffset : offset + 3 ≤ 2 ^ subnet.hostBits) :
    subnet.family.address (saturatingAdd128 subnet.baseIp.value offset) =
      subnet.addressAt offset := by
  have hsum : saturatingAdd128 subnet.baseIp.value offset = subnet.baseIp.value + offset := by
    have hend := subnet.block_end_le
    have hbase_eq := subnet.base_eq
    have hle := Nat.pow_le_pow_right (show 0 < 2 by decide) subnet.family.addressBits_le
    unfold saturatingAdd128 u128Max
    rcases hfits with hwhole | hfits
    · have hhalf := hserves.size_lt
      rw [hwhole] at hhalf hoffset
      omega
    · omega
  rw [hsum]
  rfl

end Returned

end Mantissa.Network
