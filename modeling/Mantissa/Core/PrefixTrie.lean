import Mantissa.Core.Machine

/-!
# A prefix trie with counts

Keys are bit strings. Every node counts the keys that end at it and the keys that pass through it,
so the keys comparable with a given one (a prefix of it, or an extension of it) are counted along a
single path: the keys that end on the way, and all that lie below its end. The counts are machine
numbers that saturate, so this is right as long as there are at most `u64Max` keys.

`keys` is the multiset a trie holds, and `Counted` says that the second count of every node is
right. The three operations are described in these terms: `keys_insert`, `remove_spec` and
`overlapCount_eq`.
-/

namespace Mantissa

open List

/-- A trie; `empty` is a missing child. -/
inductive PrefixTrie
  | empty
  | node (exact subtree : ℕ) (zero one : PrefixTrie)
  deriving DecidableEq

namespace PrefixTrie

/-- Keys that end at this node. -/
def exact : PrefixTrie → ℕ
  | .empty => 0
  | .node exact _ _ _ => exact

/-- Keys that end at this node or below it, as counted. -/
def subtree : PrefixTrie → ℕ
  | .empty => 0
  | .node _ subtree _ _ => subtree

variable (bit : Bool)

def child : PrefixTrie → PrefixTrie
  | .empty => .empty
  | .node _ _ zero one => if bit then one else zero

/-- The node with the given child under `bit` and the given other child. -/
def branch (exact subtree : ℕ) (taken other : PrefixTrie) : PrefixTrie :=
  match bit with
  | false => .node exact subtree taken other
  | true => .node exact subtree other taken

/-- Insert a key and count it at every node on its path. -/
def insert : List Bool → PrefixTrie → PrefixTrie
  | [], t =>
    .node (saturatingAdd t.exact 1) (saturatingAdd t.subtree 1) (t.child false) (t.child true)
  | bit :: key, t =>
    branch bit t.exact (saturatingAdd t.subtree 1) (insert key (t.child bit)) (t.child !bit)

/-- A child that holds nothing any more is dropped. -/
def prune (t : PrefixTrie) : PrefixTrie := if t.subtree = 0 then .empty else t

/-- Remove one copy of a key; the flag tells whether there was one. -/
def remove : List Bool → PrefixTrie → Bool × PrefixTrie
  | [], t =>
    if t.exact = 0 then (false, t)
    else (true, .node (t.exact - 1) (t.subtree - 1) (t.child false) (t.child true))
  | bit :: key, t =>
    match remove key (t.child bit) with
    | (true, taken) => (true, branch bit t.exact (t.subtree - 1) taken.prune (t.child !bit))
    | (false, _) => (false, t)

/-- The walk of an overlap query. -/
def overlapLoop : List Bool → PrefixTrie → ℕ → ℕ
  | [], t, count => saturatingAdd count (t.subtree - t.exact)
  | bit :: key, t, count =>
    match t.child bit with
    | .empty => count
    | .node exact subtree zero one =>
      overlapLoop key (.node exact subtree zero one) (saturatingAdd count exact)

/-- How many keys are comparable with the given one. -/
def overlapCount (t : PrefixTrie) (key : List Bool) : ℕ := overlapLoop key t t.exact

/-! ## What a trie holds -/

/-- The keys of a trie, each as often as it is counted. -/
def keys : PrefixTrie → Multiset (List Bool)
  | .empty => 0
  | .node exact _ zero one =>
    Multiset.replicate exact [] + (zero.keys.map (cons false) + one.keys.map (cons true))

/-- The subtree counts are right. -/
def Counted : PrefixTrie → Prop
  | .empty => True
  | .node exact subtree zero one =>
    subtree = exact + (zero.keys.card + one.keys.card) ∧ zero.Counted ∧ one.Counted

/-- One of two keys is a prefix of the other. -/
def Comparable (key other : List Bool) : Prop := other <+: key ∨ key <+: other

instance (key : List Bool) : DecidablePred (Comparable key) :=
  fun _ => inferInstanceAs (Decidable (_ ∨ _))

variable {t : PrefixTrie} {key : List Bool}

lemma Counted.subtree_eq (h : t.Counted) : t.subtree = t.keys.card := by
  cases t with
  | empty => rfl
  | node exact subtree zero one =>
    simp only [PrefixTrie.subtree, keys, Multiset.card_add, Multiset.card_replicate,
      Multiset.card_map]
    exact h.1

lemma Counted.child (h : t.Counted) (bit : Bool) : (t.child bit).Counted := by
  cases t with
  | empty => exact h
  | node exact subtree zero one =>
    cases bit with
    | false => exact h.2.1
    | true => exact h.2.2

/-- A trie is what ends at its root and what its two children hold. -/
lemma keys_eq (t : PrefixTrie) : t.keys = Multiset.replicate t.exact [] +
    ((t.child bit).keys.map (cons bit) + (t.child !bit).keys.map (cons !bit)) := by
  cases t with
  | empty => rfl
  | node exact subtree zero one =>
    cases bit with
    | false => rfl
    | true => exact congrArg _ (add_comm _ _)

lemma keys_branch (exact subtree : ℕ) (taken other : PrefixTrie) :
    (branch bit exact subtree taken other).keys = Multiset.replicate exact [] +
      (taken.keys.map (cons bit) + other.keys.map (cons !bit)) := by
  cases bit with
  | false => rfl
  | true => exact congrArg _ (add_comm _ _)

lemma counted_branch {bit : Bool} {exact subtree : ℕ} {taken other : PrefixTrie}
    (hsubtree : subtree = exact + (taken.keys.card + other.keys.card)) (htaken : taken.Counted)
    (hother : other.Counted) : (branch bit exact subtree taken other).Counted := by
  cases bit with
  | false => exact ⟨hsubtree, htaken, hother⟩
  | true =>
    rw [Nat.add_comm taken.keys.card] at hsubtree
    exact ⟨hsubtree, hother, htaken⟩

lemma card_keys (t : PrefixTrie) :
    t.keys.card = t.exact + ((t.child bit).keys.card + (t.child !bit).keys.card) := by
  rw [keys_eq bit t]
  simp

/-- The subtree count by the two children. -/
lemma Counted.subtree_eq_add (h : t.Counted) (bit : Bool) :
    t.subtree = t.exact + ((t.child bit).keys.card + (t.child !bit).keys.card) :=
  h.subtree_eq.trans (card_keys bit t)

/-! ## Insertion -/

theorem keys_insert : ∀ (key : List Bool) {t : PrefixTrie}, t.keys.card < u64Max →
    (t.insert key).keys = key ::ₘ t.keys
  | [], t, hroom => by
    have hcard := card_keys false t
    rw [keys_eq false t, insert, keys, saturatingAdd_of_lt (by omega), Multiset.replicate_succ,
      Multiset.cons_add]
    rfl
  | bit :: key, t, hroom => by
    have hcard := card_keys bit t
    rw [keys_eq bit t, insert, keys_branch, keys_insert key (by omega), Multiset.map_cons,
      Multiset.cons_add, Multiset.add_cons]

lemma Counted.insert : ∀ (key : List Bool) {t : PrefixTrie}, t.Counted → t.keys.card < u64Max →
    (t.insert key).Counted
  | [], t, h, hroom => by
    refine ⟨?_, h.child false, h.child true⟩
    have hcard := card_keys false t
    rw [saturatingAdd_of_lt (h.subtree_eq ▸ hroom), saturatingAdd_of_lt (by omega),
      h.subtree_eq, hcard, Bool.not_false]
    omega
  | bit :: key, t, h, hroom => by
    have hcard := card_keys bit t
    refine counted_branch ?_ (Counted.insert key (h.child bit) (by omega)) (h.child !bit)
    rw [saturatingAdd_of_lt (h.subtree_eq ▸ hroom), keys_insert key (by omega), Multiset.card_cons,
      h.subtree_eq_add bit]
    omega

/-! ## Removal -/

lemma Counted.prune (h : t.Counted) : t.prune.Counted := by
  unfold PrefixTrie.prune
  split_ifs
  · trivial
  · exact h

lemma keys_prune (h : t.Counted) : t.prune.keys = t.keys := by
  unfold prune
  split_ifs with hzero
  · rw [h.subtree_eq, Multiset.card_eq_zero] at hzero
    rw [hzero]
    rfl
  · rfl

/-- What a removal leaves: one copy less, or the same trie if there was none. -/
theorem remove_spec : ∀ (key : List Bool) {t : PrefixTrie}, t.Counted → (t.remove key).2.Counted ∧
      ((t.remove key).1 = true ∧ t.keys = key ::ₘ (t.remove key).2.keys ∨
        (t.remove key).1 = false ∧ (t.remove key).2 = t ∧ key ∉ t.keys)
  | [], t, h => by
    rw [remove]
    by_cases hexact : t.exact = 0
    · rw [if_pos hexact]
      refine ⟨h, .inr ⟨rfl, rfl, ?_⟩⟩
      rw [keys_eq false t, hexact]
      simp
    · rw [if_neg hexact]
      obtain ⟨n, hn⟩ := Nat.exists_eq_succ_of_ne_zero hexact
      refine ⟨⟨?_, h.child false, h.child true⟩, .inl ⟨rfl, ?_⟩⟩
      · have hsubtree := h.subtree_eq_add false
        simp only [Bool.not_false] at hsubtree
        omega
      · rw [keys_eq false t, hn, Multiset.replicate_succ, Multiset.cons_add]
        rfl
  | bit :: key, t, h => by
    obtain ⟨hcounted, hcases⟩ := remove_spec key (h.child bit)
    rw [remove]
    rcases hremove : (t.child bit).remove key with ⟨_ | _, taken⟩ <;>
      simp only [hremove, reduceCtorEq, false_and, true_and, false_or, or_false] at hcounted hcases
    · refine ⟨h, .inr ⟨rfl, rfl, ?_⟩⟩
      rw [keys_eq bit t]
      simpa [Multiset.mem_replicate] using hcases.2
    · have hsubtree := h.subtree_eq_add bit
      rw [hcases, Multiset.card_cons] at hsubtree
      refine ⟨counted_branch ?_ hcounted.prune (h.child !bit), .inl ⟨rfl, ?_⟩⟩
      · rw [keys_prune hcounted]
        omega
      · rw [keys_eq bit t, keys_branch, keys_prune hcounted, hcases, Multiset.map_cons,
          Multiset.cons_add, Multiset.add_cons]

/-! ## Queries -/

lemma comparable_cons {bit other : Bool} {rest : List Bool} :
    Comparable (bit :: key) (other :: rest) ↔ other = bit ∧ Comparable key rest := by
  unfold Comparable
  rw [cons_prefix_cons, cons_prefix_cons]
  tauto

/-- Keys read off bit by bit are comparable if they agree as far as both of them go. -/
lemma comparable_map_range (f g : ℕ → Bool) (m n : ℕ) :
    Comparable ((range m).map f) ((range n).map g) ↔
      ∀ depth, depth < m → depth < n → f depth = g depth := by
  have hmap : ∀ (f g : ℕ → Bool) (m n : ℕ), (range m).map f <+: (range n).map g ↔
      m ≤ n ∧ ∀ depth < m, f depth = g depth := by
    intro f g m n
    rw [prefix_iff_eq_take, length_map, length_range, ← map_take, take_range]
    constructor
    · intro heq
      have hlength : m = min m n := by simpa using congrArg length heq
      rw [← hlength] at heq
      exact ⟨by omega, fun depth hdepth => map_inj_left.mp heq depth (mem_range.mpr hdepth)⟩
    · rintro ⟨hle, hagree⟩
      rw [min_eq_left hle]
      exact map_inj_left.mpr fun depth hdepth => hagree depth (mem_range.mp hdepth)
  unfold Comparable
  rw [hmap, hmap]
  constructor
  · rintro (⟨-, hagree⟩ | ⟨-, hagree⟩) depth hm hn
    · exact (hagree depth hn).symm
    · exact hagree depth hm
  · intro hagree
    rcases Nat.le_total n m with hle | hle
    · exact .inl ⟨hle, fun depth hdepth => (hagree depth (hdepth.trans_le hle) hdepth).symm⟩
    · exact .inr ⟨hle, fun depth hdepth => hagree depth hdepth (hdepth.trans_le hle)⟩

/-- Of the keys below a child only those of the child on the path are comparable. -/
lemma countP_comparable_map (bit other : Bool) (keys : Multiset (List Bool)) :
    (keys.map (cons other)).countP (Comparable (bit :: key)) =
      if other = bit then keys.countP (Comparable key) else 0 := by
  rw [Multiset.countP_map]
  split_ifs with hbit
  · rw [Multiset.countP_eq_card_filter]
    congr 1
    refine Multiset.filter_congr ?_
    intro rest _
    rw [comparable_cons, and_iff_right hbit]
  · rw [Multiset.card_eq_zero, Multiset.filter_eq_nil]
    intro rest _ hcomparable
    exact hbit (comparable_cons.mp hcomparable).1

lemma countP_comparable_cons (key : List Bool) (t : PrefixTrie) :
    t.keys.countP (Comparable (bit :: key)) =
      t.exact + (t.child bit).keys.countP (Comparable key) := by
  rw [keys_eq bit t, Multiset.countP_add, Multiset.countP_add, countP_comparable_map,
    countP_comparable_map]
  have hroot : (Multiset.replicate t.exact ([] : List Bool)).countP (Comparable (bit :: key)) =
      t.exact := by
    rw [Multiset.countP_eq_card.mpr, Multiset.card_replicate]
    intro other hother
    rw [Multiset.eq_of_mem_replicate hother]
    exact .inl nil_prefix
  rw [hroot, if_pos rfl, if_neg (Bool.not_ne_self bit), Nat.add_zero]

lemma overlapLoop_eq : ∀ (key : List Bool) {t : PrefixTrie} (count : ℕ), t.Counted →
    count + t.keys.card ≤ u64Max →
    overlapLoop key t (count + t.exact) = count + t.keys.countP (Comparable key)
  | [], t, count, h, hroom => by
    have hcard := card_keys false t
    rw [overlapLoop, Multiset.countP_eq_card.mpr fun _ _ => .inr nil_prefix, h.subtree_eq,
      saturatingAdd]
    omega
  | bit :: key, t, count, h, hroom => by
    rw [countP_comparable_cons, overlapLoop]
    have hcard := card_keys bit t
    have hchild := h.child bit
    cases hcase : t.child bit with
    | empty => simp [keys]
    | node exact subtree zero one =>
      rw [hcase] at hchild hcard
      have hexact : (node exact subtree zero one).keys.card = exact + _ := card_keys false _
      have hsum : saturatingAdd (count + t.exact) exact = count + t.exact + exact :=
        min_eq_left (by omega)
      dsimp only
      rw [hsum, ← Nat.add_assoc]
      exact overlapLoop_eq key (count + t.exact) hchild (by omega)

/-- **An overlap query counts the comparable keys.** -/
theorem overlapCount_eq (h : t.Counted) (hroom : t.keys.card ≤ u64Max) (key : List Bool) :
    t.overlapCount key = t.keys.countP (Comparable key) := by
  have hloop := overlapLoop_eq key 0 h (by omega)
  rwa [Nat.zero_add, Nat.zero_add] at hloop

end PrefixTrie

end Mantissa
