import Mantissa.Core.PrefixTrie

/-!
# Blocks of addresses

A subnet is written as an address and a prefix length. `CidrBlock` keeps the masked network
address; the registry indexes the blocks of the active networks in a prefix trie per address family
and asks it, before a network is created, how many blocks the new one overlaps.

Two blocks overlap exactly if they share an address (`overlaps_iff`), which is also when their bit
strings are comparable (`comparable_bits_iff`). So the count the index returns is the number of
blocks that share an address with the given one (`CidrOverlapIndex.Holds.overlapCount_eq`).
-/

namespace Mantissa.Network

open Multiset Nat

/-! ## Addresses -/

/-- `OverlayIpFamily` and `DefaultNetworkIpFamily`. -/
inductive IpFamily
  | ipv4
  | ipv6
  deriving DecidableEq

/-- `address_bits`. -/
def IpFamily.addressBits : IpFamily → ℕ
  | .ipv4 => 32
  | .ipv6 => 128

lemma IpFamily.addressBits_le (family : IpFamily) : family.addressBits ≤ 128 := by
  cases family <;> decide

/-- `IpAddr`, with the address as a number. -/
structure IpAddr where
  family : IpFamily
  value : ℕ
  bound : value < 2 ^ family.addressBits
  deriving DecidableEq

/-- How texts are read. An address or a number with blanks around it does not parse, so a text with
an address before and a number after its delimiter has nothing to trim. -/
structure CidrText where
  trim : String → String
  splitOnce : String → Option (String × String)
  parseAddress : String → Option IpAddr
  parseU8 : String → Option ℕ
  trim_trim : ∀ raw, trim (trim raw) = trim raw
  splitOnce_empty : splitOnce "" = none
  trim_eq : ∀ {cidr base length ip n}, splitOnce cidr = some (base, length) →
    parseAddress base = some ip → parseU8 length = some n → trim cidr = cidr

inductive CidrError
  | missingDelimiter (cidr : String)
  | prefixNotANumber (cidr : String)
  | invalidBase (cidr : String)
  | prefixExceeds (cidr : String) (prefixLen : ℕ) (family : IpFamily)
  deriving DecidableEq

/-! ## Masking -/

/-- `u128::MAX`. -/
def u128Max : ℕ := 2 ^ 128 - 1

/-- `normalize_network`. -/
def normalizeNetwork (value prefixLen bits : ℕ) : ℕ :=
  if prefixLen = 0 then 0 else value &&& ((u128Max <<< (bits - prefixLen)) % 2 ^ 128)

/-- Masking clears the host bits. -/
lemma normalizeNetwork_eq {value prefixLen bits : ℕ} (hvalue : value < 2 ^ bits)
    (hbits : bits ≤ 128) : normalizeNetwork value prefixLen bits =
      value / 2 ^ (bits - prefixLen) * 2 ^ (bits - prefixLen) := by
  unfold normalizeNetwork
  split_ifs with hzero
  · rw [hzero, Nat.sub_zero, Nat.div_eq_of_lt hvalue, Nat.zero_mul]
  · rw [← shiftRight_eq_div_pow, ← shiftLeft_eq]
    refine eq_of_testBit_eq fun i => ?_
    simp only [u128Max, testBit_and, testBit_mod_two_pow, testBit_shiftLeft,
      testBit_two_pow_sub_one, testBit_shiftRight]
    by_cases hi : bits - prefixLen ≤ i
    · rw [Nat.add_sub_cancel' hi]
      by_cases hi' : i < 128
      · have hlt : i - (bits - prefixLen) < 128 := by omega
        simp [hi, hi', hlt]
      · have hclear : value.testBit i = false := by
          refine Nat.testBit_lt_two_pow (hvalue.trans_le (Nat.pow_le_pow_right (by decide) ?_))
          omega
        simp [hclear]
    · simp [hi]

/-! ## Blocks -/

/-- `CidrBlock`: a network address whose host bits are clear. -/
structure CidrBlock where
  family : IpFamily
  network : ℕ
  prefixLen : ℕ
  prefixLen_le : prefixLen ≤ family.addressBits
  network_lt : network < 2 ^ family.addressBits
  aligned : 2 ^ (family.addressBits - prefixLen) ∣ network
  deriving DecidableEq

/-- The block an address lies in. -/
def CidrBlock.ofAddress (base : IpAddr) (prefixLen : ℕ) (h : prefixLen ≤ base.family.addressBits) :
    CidrBlock where
  family := base.family
  network := normalizeNetwork base.value prefixLen base.family.addressBits
  prefixLen := prefixLen
  prefixLen_le := h
  network_lt := by
    rw [normalizeNetwork_eq base.bound base.family.addressBits_le]
    exact (Nat.div_mul_le_self _ _).trans_lt base.bound
  aligned := by
    rw [normalizeNetwork_eq base.bound base.family.addressBits_le]
    exact Dvd.intro_left _ rfl

namespace CidrBlock

variable (block : CidrBlock)

/-- The bits an address of the block is free in. -/
def hostBits : ℕ := block.family.addressBits - block.prefixLen

/-- The addresses of a block. -/
def Contains (address : IpAddr) : Prop :=
  address.family = block.family ∧ block.network ≤ address.value ∧
    address.value < block.network + 2 ^ block.hostBits

/-- `CidrBlock::parse`. -/
def parse (text : CidrText) (raw : String) : Except CidrError CidrBlock :=
  let cidr := text.trim raw
  match text.splitOnce cidr with
  | none => .error (.missingDelimiter cidr)
  | some (baseText, prefixText) =>
    match text.parseU8 prefixText with
    | none => .error (.prefixNotANumber cidr)
    | some prefixLen =>
      match text.parseAddress baseText with
      | none => .error (.invalidBase cidr)
      | some base =>
        if h : prefixLen ≤ base.family.addressBits then
          .ok (ofAddress base prefixLen h)
        else .error (.prefixExceeds cidr prefixLen base.family)

/-- `network_at_prefix`. -/
def networkAtPrefix (prefixLen : ℕ) : ℕ :=
  normalizeNetwork block.network prefixLen block.family.addressBits

/-- `CidrBlock::overlaps`. -/
def overlaps (block other : CidrBlock) : Bool :=
  decide (block.family = other.family) &&
    let prefixLen := min block.prefixLen other.prefixLen
    decide (block.networkAtPrefix prefixLen = other.networkAtPrefix prefixLen)

/-- `bit_at`. -/
def bitAt (depth : ℕ) : Bool :=
  decide ((block.network >>> (block.family.addressBits - 1 - depth)) &&& 1 ≠ 0)

/-- The path of a block in its trie. -/
def bits : List Bool := (List.range block.prefixLen).map block.bitAt

variable {block other : CidrBlock}

lemma bitAt_eq (depth : ℕ) :
    block.bitAt depth = block.network.testBit (block.family.addressBits - 1 - depth) := by
  rw [bitAt, Nat.and_comm]
  exact decide_not

/-- An address is in a block if it agrees with it above the host bits. -/
lemma contains_iff {address : IpAddr} : block.Contains address ↔ address.family = block.family ∧
    address.value / 2 ^ block.hostBits = block.network / 2 ^ block.hostBits := by
  obtain ⟨k, hk⟩ := block.aligned
  have hpos : 0 < 2 ^ block.hostBits := Nat.two_pow_pos _
  have hnetwork : block.network = k * 2 ^ block.hostBits := by
    rw [hk, mul_comm]
    rfl
  rw [Contains, hnetwork, Nat.mul_div_cancel _ hpos, Nat.div_eq_iff hpos]
  constructor
  · rintro ⟨hle, hlt⟩
    exact ⟨hle, by omega⟩
  · rintro ⟨hle, hlt⟩
    exact ⟨hle, by omega⟩

/-- The network address as an address. -/
def first : IpAddr := ⟨block.family, block.network, block.network_lt⟩

lemma contains_first : block.Contains block.first :=
  ⟨rfl, le_rfl, Nat.lt_add_of_pos_right (Nat.two_pow_pos _)⟩

/-- Two blocks overlap if they agree above the host bits of the larger one. -/
lemma overlaps_iff_div : block.overlaps other = true ↔ block.family = other.family ∧
    block.network / 2 ^ max block.hostBits other.hostBits =
      other.network / 2 ^ max block.hostBits other.hostBits := by
  simp only [overlaps, Bool.and_eq_true, decide_eq_true_eq]
  refine and_congr_right fun hfamily => ?_
  unfold networkAtPrefix
  have hhost : other.family.addressBits - min block.prefixLen other.prefixLen =
      max block.hostBits other.hostBits := by
    unfold hostBits
    rw [hfamily]
    omega
  rw [normalizeNetwork_eq block.network_lt block.family.addressBits_le,
    normalizeNetwork_eq other.network_lt other.family.addressBits_le, hfamily, hhost]
  exact Nat.mul_left_inj (Nat.two_pow_pos _).ne'

/-- Agreement above some bits is agreement above more of them. -/
lemma div_pow_congr {a b m n : ℕ} (hle : m ≤ n) (h : a / 2 ^ m = b / 2 ^ m) :
    a / 2 ^ n = b / 2 ^ n := by
  obtain ⟨k, rfl⟩ := Nat.exists_eq_add_of_le hle
  rw [Nat.pow_add, ← Nat.div_div_eq_div_mul, ← Nat.div_div_eq_div_mul, h]

/-- **Two blocks overlap exactly if they share an address.** -/
theorem overlaps_iff : block.overlaps other = true ↔
    ∃ address, block.Contains address ∧ other.Contains address := by
  rw [overlaps_iff_div]
  constructor
  · rintro ⟨hfamily, hagree⟩
    -- The block with fewer host bits lies in the other one.
    rcases le_total block.hostBits other.hostBits with hle | hle
    · rw [max_eq_right hle] at hagree
      exact ⟨block.first, contains_first, contains_iff.mpr ⟨hfamily, hagree⟩⟩
    · rw [max_eq_left hle] at hagree
      exact ⟨other.first, contains_iff.mpr ⟨hfamily.symm, hagree.symm⟩, contains_first⟩
  · rintro ⟨address, hblock, hother⟩
    rw [contains_iff] at hblock hother
    refine ⟨hblock.1.symm.trans hother.1, ?_⟩
    exact (div_pow_congr (le_max_left _ _) hblock.2).symm.trans
      (div_pow_congr (le_max_right _ _) hother.2)

lemma overlaps_comm : block.overlaps other = other.overlaps block := by
  rw [Bool.eq_iff_iff, overlaps_iff, overlaps_iff]
  exact exists_congr fun address => and_comm

lemma div_pow_eq_iff {a b m bits : ℕ} (ha : a < 2 ^ bits) (hb : b < 2 ^ bits) :
    a / 2 ^ m = b / 2 ^ m ↔ ∀ i, m ≤ i → i < bits → a.testBit i = b.testBit i := by
  rw [← shiftRight_eq_div_pow, ← shiftRight_eq_div_pow]
  constructor
  · intro h i hm _
    have hbit := congrArg (fun n => Nat.testBit n (i - m)) h
    simpa [Nat.testBit_shiftRight, Nat.add_sub_cancel' hm] using hbit
  · intro h
    refine eq_of_testBit_eq fun j => ?_
    rw [testBit_shiftRight, testBit_shiftRight]
    by_cases hj : m + j < bits
    · exact h _ (le_add_right m j) hj
    · have hle : 2 ^ bits ≤ 2 ^ (m + j) := Nat.pow_le_pow_right (by decide) (not_lt.mp hj)
      rw [testBit_lt_two_pow (ha.trans_le hle), testBit_lt_two_pow (hb.trans_le hle)]

/-- In one family, blocks overlap exactly if one path in the trie continues the other. -/
theorem comparable_bits_iff (hfamily : block.family = other.family) :
    PrefixTrie.Comparable block.bits other.bits ↔ block.overlaps other = true := by
  have hother := other.network_lt
  rw [← hfamily] at hother
  rw [overlaps_iff_div, and_iff_right hfamily, div_pow_eq_iff block.network_lt hother, bits, bits,
    PrefixTrie.comparable_map_range]
  simp only [bitAt_eq, ← hfamily]
  have hle' := other.prefixLen_le
  rw [← hfamily] at hle'
  have hmax : max block.hostBits other.hostBits =
      block.family.addressBits - min block.prefixLen other.prefixLen := by
    unfold hostBits
    rw [← hfamily]
    omega
  constructor
  · intro h i hi hi'
    have hbit := h (block.family.addressBits - 1 - i) (by omega) (by omega)
    rwa [show block.family.addressBits - 1 - (block.family.addressBits - 1 - i) =
      i by omega] at hbit
  · intro h depth hdepth hdepth'
    exact h _ (by omega) (by omega)

/-- A path belongs to one block of the family. -/
lemma bits_inj (hfamily : block.family = other.family) (h : block.bits = other.bits) :
    block = other := by
  have hlength : block.prefixLen = other.prefixLen := by simpa [bits] using congrArg List.length h
  have hoverlaps := (comparable_bits_iff hfamily).mp (.inl (h ▸ List.prefix_rfl))
  have hhost : other.hostBits = block.hostBits := by rw [hostBits, hostBits, hfamily, hlength]
  have haligned : 2 ^ block.hostBits ∣ other.network := by
    rw [← hhost]
    exact other.aligned
  have hagree := (overlaps_iff_div.mp hoverlaps).2
  rw [hhost, max_self] at hagree
  have hnetwork := (Nat.div_left_inj block.aligned haligned).mp hagree
  cases other
  subst hfamily hlength hnetwork
  rfl

end CidrBlock

/-! ## The index of the active blocks -/

/-- `CidrOverlapIndex`. -/
structure CidrOverlapIndex where
  ipv4 : PrefixTrie
  ipv6 : PrefixTrie

namespace CidrOverlapIndex

/-- `CidrOverlapIndex::new`. -/
def new : CidrOverlapIndex := ⟨.node 0 0 .empty .empty, .node 0 0 .empty .empty⟩

variable (index : CidrOverlapIndex)

/-- `trie`. -/
def trie : IpFamily → PrefixTrie
  | .ipv4 => index.ipv4
  | .ipv6 => index.ipv6

/-- Replace the trie of a family. -/
def setTrie (family : IpFamily) (trie : PrefixTrie) : CidrOverlapIndex :=
  match family with
  | .ipv4 => { index with ipv4 := trie }
  | .ipv6 => { index with ipv6 := trie }

/-- `insert`. -/
def insert (block : CidrBlock) : CidrOverlapIndex :=
  index.setTrie block.family ((index.trie block.family).insert block.bits)

/-- `insert_cidr`. -/
def insertCidr (text : CidrText) (index : CidrOverlapIndex) (cidr : String) :
    Except CidrError (CidrOverlapIndex × CidrBlock) :=
  match CidrBlock.parse text cidr with
  | .ok block => .ok (index.insert block, block)
  | .error error => .error error

/-- `remove`. -/
def remove (block : CidrBlock) : CidrOverlapIndex :=
  index.setTrie block.family ((index.trie block.family).remove block.bits).2

/-- `overlap_count`. -/
def overlapCount (block : CidrBlock) : ℕ :=
  (index.trie block.family).overlapCount block.bits

/-- `overlaps_cidr`. -/
def overlapsCidr (text : CidrText) (index : CidrOverlapIndex) (cidr : String) : Bool :=
  match CidrBlock.parse text cidr with
  | .ok block => decide (0 < index.overlapCount block)
  | .error _ => false

/-- The index holds these blocks, of which there are no more than it can count. -/
structure Holds (blocks : Multiset CidrBlock) : Prop where
  card : blocks.card ≤ u64Max
  tries : ∀ family, (index.trie family).Counted ∧
    (index.trie family).keys = (blocks.filter (·.family = family)).map CidrBlock.bits

variable {index : CidrOverlapIndex} {blocks : Multiset CidrBlock} {block : CidrBlock}

@[simp] lemma trie_setTrie (family other : IpFamily) (trie : PrefixTrie) :
    (index.setTrie family trie).trie other = if other = family then trie else index.trie other := by
  cases family <;> cases other <;> rfl

lemma holds_new : new.Holds 0 := by
  refine ⟨Nat.zero_le _, fun family => ?_⟩
  cases family <;> exact ⟨⟨rfl, trivial, trivial⟩, rfl⟩

lemma Holds.card_keys_le (h : index.Holds blocks) (family : IpFamily) :
    (index.trie family).keys.card ≤ blocks.card := by
  rw [(h.tries family).2, card_map]
  exact card_le_card (filter_le _ _)

lemma Holds.insert (h : index.Holds blocks) (hroom : (block ::ₘ blocks).card ≤ u64Max) :
    (index.insert block).Holds (block ::ₘ blocks) := by
  refine ⟨hroom, fun family => ?_⟩
  rw [card_cons] at hroom
  have hkeys := (h.card_keys_le block.family).trans_lt hroom
  rw [CidrOverlapIndex.insert, trie_setTrie]
  by_cases hfamily : family = block.family
  · rw [if_pos hfamily, PrefixTrie.keys_insert _ hkeys,
      filter_cons_of_pos (p := fun b : CidrBlock => b.family = family) blocks hfamily.symm,
      map_cons, (h.tries block.family).2, hfamily]
    exact ⟨(h.tries block.family).1.insert block.bits hkeys, rfl⟩
  · rw [if_neg hfamily, filter_cons_of_neg (p := fun b : CidrBlock => b.family = family) blocks
        (Ne.symm hfamily)]
    exact h.tries family

/-- Removing a block that the index holds removes one copy of it. -/
lemma Holds.remove (h : index.Holds (block ::ₘ blocks)) : (index.remove block).Holds blocks := by
  refine ⟨(card_le_card (le_cons_self _ _)).trans h.card, fun family => ?_⟩
  rw [CidrOverlapIndex.remove, trie_setTrie]
  obtain ⟨hcounted, hkeys⟩ := h.tries family
  by_cases hfamily : family = block.family
  · subst hfamily
    rw [filter_cons_of_pos (p := fun b : CidrBlock => b.family = block.family) blocks rfl,
      map_cons] at hkeys
    rw [if_pos rfl]
    obtain ⟨hcounted', ⟨-, hremoved⟩ | ⟨-, -, hmissing⟩⟩ :=
      PrefixTrie.remove_spec block.bits hcounted
    · rw [hkeys] at hremoved
      exact ⟨hcounted', ((cons_inj_right _).mp hremoved).symm⟩
    · rw [hkeys] at hmissing
      exact absurd (mem_cons_self _ _) hmissing
  · rw [filter_cons_of_neg (p := fun b : CidrBlock => b.family = family) blocks
      (Ne.symm hfamily)] at hkeys
    rw [if_neg hfamily]
    exact ⟨hcounted, hkeys⟩

/-- A removal takes out one copy of the block, if there is one. -/
lemma Holds.erase (h : index.Holds blocks) (block : CidrBlock) :
    (index.remove block).Holds (blocks.erase block) := by
  by_cases hmem : block ∈ blocks
  · rw [← cons_erase hmem] at h
    exact h.remove
  · rw [erase_of_notMem hmem]
    obtain ⟨hcounted, hkeys⟩ := h.tries block.family
    refine ⟨h.card, fun family => ?_⟩
    rw [CidrOverlapIndex.remove, trie_setTrie]
    split_ifs with hfamily
    · subst hfamily
      obtain ⟨-, ⟨-, hremoved⟩ | ⟨-, hsame, -⟩⟩ := PrefixTrie.remove_spec block.bits hcounted
      · have hkey : block.bits ∈ (index.trie block.family).keys := hremoved ▸ mem_cons_self _ _
        rw [hkeys, mem_map] at hkey
        obtain ⟨other, hother, hbits⟩ := hkey
        obtain ⟨hother, hfamily⟩ := mem_filter.mp hother
        exact absurd (CidrBlock.bits_inj hfamily hbits ▸ hother) hmem
      · rw [hsame]
        exact h.tries block.family
    · exact h.tries family

/-- **The index counts the blocks that overlap the given one.** -/
theorem Holds.overlapCount_eq (h : index.Holds blocks) (block : CidrBlock) :
    index.overlapCount block = blocks.countP (fun other => block.overlaps other = true) := by
  obtain ⟨hcounted, hkeys⟩ := h.tries block.family
  rw [overlapCount, PrefixTrie.overlapCount_eq hcounted ((h.card_keys_le _).trans h.card), hkeys,
    countP_map, filter_filter, countP_eq_card_filter]
  congr 1
  refine filter_congr fun other _ => ?_
  constructor
  · rintro ⟨hcomparable, hfamily⟩
    exact (CidrBlock.comparable_bits_iff hfamily.symm).mp hcomparable
  · intro hoverlaps
    have hfamily := (CidrBlock.overlaps_iff_div.mp hoverlaps).1
    exact ⟨(CidrBlock.comparable_bits_iff hfamily).mpr hoverlaps, hfamily.symm⟩

/-! ## Whole runs -/

inductive IndexChange
  | insert (block : CidrBlock)
  | remove (block : CidrBlock)

/-- The index after a change. -/
def change (index : CidrOverlapIndex) : IndexChange → CidrOverlapIndex
  | .insert block => index.insert block
  | .remove block => index.remove block

/-- The blocks that are in the index after a change. -/
def IndexChange.inserted (blocks : Multiset CidrBlock) : IndexChange → Multiset CidrBlock
  | .insert block => block ::ₘ blocks
  | .remove block => blocks.erase block

/-- After any changes the index holds what was inserted and not removed, if there are never too many
blocks. -/
lemma Holds.foldl_change : ∀ (changes : List IndexChange) {index : CidrOverlapIndex}
    {blocks : Multiset CidrBlock}, index.Holds blocks →
      (∀ done, done <+: changes → (done.foldl IndexChange.inserted blocks).card ≤ u64Max) →
      (changes.foldl change index).Holds (changes.foldl IndexChange.inserted blocks)
  | [], _, _, h, _ => h
  | .insert block :: changes, _, _, h, hroom =>
    (h.insert (hroom [.insert block] (by simp))).foldl_change changes
      fun done hdone => hroom (.insert block :: done) (List.cons_prefix_cons.mpr ⟨rfl, hdone⟩)
  | .remove block :: changes, _, _, h, hroom =>
    (h.erase block).foldl_change changes
      fun done hdone => hroom (.remove block :: done) (List.cons_prefix_cons.mpr ⟨rfl, hdone⟩)

end CidrOverlapIndex

end Mantissa.Network
