import Mantissa.Core.Machine
import Mantissa.Core.OrderedMap

/-!
# Vector clocks

`mvreg.rs::VectorClock` keeps a `BTreeMap` from actors to counters, and every way of building one
goes through `apply`, which only ever stores a counter larger than the one it replaces. So no
stored counter is zero, and the field `pos` records it. That is what makes a clock determined by
its counters (`ext_get`): an absent actor and a zero counter are the same thing, and only the first
can occur.

`partialCmp` is translated from the source and decides the pointwise order; `merge` is the join.
The rest of the development uses the order and the join, never the map underneath.
-/

namespace Mantissa

open BTreeMap List

/-- `VectorClock`: a positive counter for each actor that has one. -/
@[ext] structure VectorClock (A : Type*) [LinearOrder A] where
  dots : BTreeMap A ℕ
  pos : ∀ (a : A) (n : ℕ), dots[a]? = some n → 0 < n

namespace VectorClock

variable {A : Type*} [LinearOrder A]

instance : DecidableEq (VectorClock A) := fun c d =>
  decidable_of_iff (c.dots = d.dots) VectorClock.ext_iff.symm

/-- `VectorClock::new`. -/
def new : VectorClock A := ⟨∅, by simp⟩

variable (c : VectorClock A)

/-- `VectorClock::is_empty`. -/
def isEmpty : Bool := c.dots.isEmpty

/-- `VectorClock::get`: missing actors count as zero. -/
def get (actor : A) : ℕ := c.dots[actor]?.getD 0

/-- `VectorClock::iter`, in canonical actor order. -/
def iter : List (A × ℕ) := c.dots.toList

/-- `VectorClock::apply`: keep the maximum observed counter of one actor. -/
def apply (actor : A) (counter : ℕ) : VectorClock A :=
  if h : c.get actor < counter then
    ⟨c.dots.insert actor counter, by
      intro a n
      rw [BTreeMap.getElem?_insert_eq]
      split_ifs
      · rintro ⟨⟩
        exact lt_of_le_of_lt (Nat.zero_le _) h
      · exact c.pos a n⟩
  else c

/-- `VectorClock::increment`. -/
def increment (actor : A) : VectorClock A :=
  c.apply actor (saturatingAdd (c.get actor) 1)

/-- `VectorClock::merge`. -/
def merge (c other : VectorClock A) : VectorClock A :=
  other.iter.foldl (fun acc d => acc.apply d.1 d.2) c

/-- `VectorClock::partial_cmp`. -/
def partialCmp (c other : VectorClock A) : Option Ordering :=
  if c = other then some .eq
  else if other.iter.all fun d => decide (d.2 ≤ c.get d.1) then some .gt
  else if c.iter.all fun d => decide (d.2 ≤ other.get d.1) then some .lt
  else none

/-! ## A clock is its counters -/

@[simp] lemma get_new (a : A) : (new : VectorClock A).get a = 0 := by simp [get, new]

lemma mem_iter {c : VectorClock A} {a : A} {n : ℕ} : (a, n) ∈ c.iter ↔ 0 < n ∧ c.get a = n := by
  rw [iter, mem_toList]
  constructor
  · intro h
    exact ⟨c.pos a n h, by simp [get, h]⟩
  · rintro ⟨hpos, hget⟩
    cases h : c.dots[a]? with
    | none => simp [get, h] at hget; omega
    | some m => simpa [get, h] using hget

theorem ext_get {c d : VectorClock A} (h : ∀ a, c.get a = d.get a) : c = d := by
  refine VectorClock.ext (ext_lookup fun a => ?_)
  ext n
  rw [← mem_toList, ← mem_toList]
  change (a, n) ∈ c.iter ↔ (a, n) ∈ d.iter
  rw [mem_iter, mem_iter, h a]

lemma get_apply (a b : A) (n : ℕ) :
    (c.apply a n).get b = if a = b then max (c.get a) n else c.get b := by
  unfold apply
  split_ifs with h hab hab
  · subst hab
    simp only [get, getElem?_insert_same, Option.getD_some] at h ⊢
    omega
  · simp [get, getElem?_insert_ne _ _ hab]
  · subst hab
    omega
  · rfl

lemma get_increment (a b : A) :
    (c.increment a).get b = if a = b then max (c.get a) (saturatingAdd (c.get a) 1) else c.get b :=
  get_apply c a b _

lemma get_increment_of_lt {c : VectorClock A} {a : A} (h : c.get a < u64Max) (b : A) :
    (c.increment a).get b = if a = b then c.get a + 1 else c.get b := by
  rw [get_increment, saturatingAdd_of_lt h]
  split_ifs <;> omega

/-- Folding `apply` over counters takes, at each actor, the maximum of what was there and what
the list offers. -/
lemma get_foldl_apply (b : A) : ∀ (l : List (A × ℕ)) (c : VectorClock A),
    (l.foldl (fun acc d => acc.apply d.1 d.2) c).get b
      = (l.filter (fun d => d.1 = b)).foldl (fun m d => max m d.2) (c.get b)
  | [], _ => rfl
  | (a, n) :: l, c => by
    rw [foldl_cons, get_foldl_apply b l, get_apply]
    by_cases h : a = b
    · subst h
      simp
    · simp [h]

/-- The counters of one actor in iteration order: one if it has a counter, none otherwise. -/
lemma filter_iter (b : A) :
    c.iter.filter (fun d => d.1 = b) = if c.get b = 0 then [] else [(b, c.get b)] := by
  have hnd : (c.iter.filter fun d => d.1 = b).Pairwise fun p q => p.1 < q.1 :=
    (pairwise_toList c.dots).filter _
  have hmem : ∀ d, d ∈ c.iter.filter (fun d => d.1 = b) ↔ c.get b ≠ 0 ∧ d = (b, c.get b) := by
    rintro ⟨a, n⟩
    simp only [mem_filter, mem_iter, decide_eq_true_eq, Prod.mk.injEq]
    constructor
    · rintro ⟨⟨hpos, hget⟩, rfl⟩
      exact ⟨by omega, rfl, hget.symm⟩
    · rintro ⟨hne, rfl, rfl⟩
      exact ⟨⟨by omega, rfl⟩, rfl⟩
  split_ifs with h
  · exact eq_nil_iff_forall_not_mem.mpr fun d hd => ((hmem d).mp hd).1 h
  · cases hl : c.iter.filter (fun d => d.1 = b) with
    | nil => exact absurd ((hmem (b, c.get b)).mpr ⟨h, rfl⟩) (by rw [hl]; simp)
    | cons p l =>
      have hp : p = (b, c.get b) := ((hmem p).mp (by rw [hl]; simp)).2
      cases l with
      | nil => rw [hp]
      | cons q l =>
        -- two counters of one actor would be out of order
        have hq : q = (b, c.get b) := ((hmem q).mp (by rw [hl]; simp)).2
        rw [hl, hp, hq] at hnd
        simp at hnd

variable (c d : VectorClock A)

@[simp] lemma get_merge (a : A) : (c.merge d).get a = max (c.get a) (d.get a) := by
  rw [merge, get_foldl_apply, filter_iter]
  split_ifs with h
  · simp [h]
  · simp

lemma isEmpty_iff {c : VectorClock A} : c.isEmpty = true ↔ ∀ a, c.get a = 0 := by
  constructor
  · intro h a
    have hnil : c.iter = [] := by
      simpa [iter, Std.ExtTreeMap.isEmpty_toList, isEmpty] using h
    cases hn : c.get a with
    | zero => rfl
    | succ n =>
      have : (a, n + 1) ∈ c.iter := mem_iter.mpr ⟨Nat.succ_pos n, hn⟩
      simp [hnil] at this
  · intro h
    have hnew : c = new := ext_get fun a => by rw [h a, get_new]
    subst hnew
    simp [isEmpty, new]

/-! ## The causal order -/

instance : LE (VectorClock A) := ⟨fun c d => ∀ a, c.get a ≤ d.get a⟩

instance : SemilatticeSup (VectorClock A) where
  le_refl c a := le_refl _
  le_trans c d e h h' a := (h a).trans (h' a)
  le_antisymm c d h h' := ext_get fun a => le_antisymm (h a) (h' a)
  sup := merge
  le_sup_left c d a := by rw [get_merge]; exact le_max_left _ _
  le_sup_right c d a := by rw [get_merge]; exact le_max_right _ _
  sup_le c d e h h' a := by rw [get_merge]; exact max_le (h a) (h' a)

instance : OrderBot (VectorClock A) where
  bot := new
  bot_le c a := by exact Nat.zero_le _

lemma merge_eq_sup : c.merge d = c ⊔ d := rfl

lemma isEmpty_iff_eq_bot {c : VectorClock A} : c.isEmpty = true ↔ c = ⊥ := by
  rw [isEmpty_iff]
  exact ⟨fun h => ext_get fun a => by rw [h a]; exact (get_new a).symm, fun h a => h ▸ get_new a⟩

lemma all_iter_iff {c d : VectorClock A} :
    (c.iter.all fun p => decide (p.2 ≤ d.get p.1)) = true ↔ c ≤ d := by
  simp only [all_eq_true, decide_eq_true_eq, Prod.forall, mem_iter]
  constructor
  · intro h a
    cases hn : c.get a with
    | zero => exact Nat.zero_le _
    | succ n => exact h a (n + 1) ⟨Nat.succ_pos n, hn⟩
  · rintro h a n ⟨-, rfl⟩
    exact h a

instance : DecidableLE (VectorClock A) := fun _ _ => decidable_of_iff _ all_iter_iff

instance : DecidableLT (VectorClock A) := fun _ _ => decidable_of_iff _ lt_iff_le_not_ge.symm

/-- `partial_cmp` decides the pointwise order. -/
theorem partialCmp_eq :
    c.partialCmp d = if c = d then some .eq else if d ≤ c then some .gt
      else if c ≤ d then some .lt else none := by
  unfold partialCmp
  simp only [all_iter_iff]

lemma partialCmp_eq_lt {c d : VectorClock A} : c.partialCmp d = some .lt ↔ c < d := by
  rw [partialCmp_eq]
  split_ifs with h h' h''
  · simp [h]
  · simp only [Option.some.injEq, reduceCtorEq, false_iff]
    exact fun hlt => absurd h' (not_le_of_gt hlt)
  · simp only [true_iff]
    exact lt_of_le_of_ne h'' h
  · simp only [false_iff]
    exact fun hlt => h'' hlt.le

lemma partialCmp_eq_gt {c d : VectorClock A} : c.partialCmp d = some .gt ↔ d < c := by
  rw [partialCmp_eq]
  split_ifs with h h' h''
  · simp [h]
  · simp only [true_iff]
    exact lt_of_le_of_ne h' (Ne.symm h)
  · simp only [Option.some.injEq, reduceCtorEq, false_iff]
    exact fun hlt => h' hlt.le
  · simp only [false_iff]
    exact fun hlt => h' hlt.le

/-- What `apply_put` retains: entries neither equal to nor below the incoming clock. -/
lemma partialCmp_none_or_gt {c d : VectorClock A} :
    (c.partialCmp d = none ∨ c.partialCmp d = some .gt) ↔ ¬ c ≤ d := by
  rw [partialCmp_eq]
  split_ifs with h h' h''
  · simp [h]
  · simp only [or_true, true_iff]
    exact fun hle => h (le_antisymm hle h')
  · simp [h'']
  · simp [h'']

lemma le_increment (a : A) : c ≤ c.increment a := by
  intro b
  rw [get_increment]
  split_ifs with h
  · subst h
    exact le_max_left _ _
  · exact le_rfl

lemma increment_ne_bot (a : A) : c.increment a ≠ ⊥ := by
  intro h
  have hget : (c.increment a).get a = 0 := by rw [h]; exact get_new a
  rw [get_increment, if_pos rfl] at hget
  simp only [saturatingAdd, u64Max] at hget
  omega

end VectorClock

end Mantissa
