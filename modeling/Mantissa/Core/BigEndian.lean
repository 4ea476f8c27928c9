import Mantissa.Core.Machine

/-!
# Fixed-width big-endian numbers

The most significant byte comes first, so byte strings of one width compare like the numbers they
encode. That is what lets an ordered byte table be scanned in numeric order:
`toBigEndian_append_lt` says that a big-endian prefix followed by more bytes sorts by the number
first and by the remaining bytes second.
-/

namespace Mantissa

open Nat

/-- The `width` low bytes of `n`, most significant first. -/
def toBigEndian : ℕ → ℕ → Bytes
  | 0, _ => []
  | width + 1, n => ⟨n / 256 ^ width % 256, Nat.mod_lt _ (by omega)⟩ :: toBigEndian width
      (n % 256 ^ width)

/-- The number a byte string encodes. -/
def ofBigEndian (bytes : Bytes) : ℕ := bytes.foldl (fun acc b => acc * 256 + b.val) 0

@[simp] lemma length_toBigEndian (width n : ℕ) : (toBigEndian width n).length = width := by
  induction width generalizing n with
  | zero => rfl
  | succ width ih => simp [toBigEndian, ih]

lemma div_lt_of_lt_pow {width n : ℕ} (h : n < 256 ^ (width + 1)) : n / 256 ^ width < 256 :=
  Nat.div_lt_of_lt_mul (by rwa [← pow_succ])

lemma foldl_toBigEndian : ∀ (width n acc : ℕ), n < 256 ^ width →
    (toBigEndian width n).foldl (fun acc b => acc * 256 + b.val) acc = acc * 256 ^ width + n
  | 0, n, acc, h => by
    obtain rfl : n = 0 := by simpa using h
    simp [toBigEndian]
  | width + 1, n, acc, h => by
    have hrest : n % 256 ^ width < 256 ^ width := mod_lt _ (by positivity)
    rw [toBigEndian, List.foldl_cons, foldl_toBigEndian width _ _ hrest]
    simp only [mod_eq_of_lt (div_lt_of_lt_pow h), pow_succ]
    calc (acc * 256 + n / 256 ^ width) * 256 ^ width + n % 256 ^ width
        = acc * (256 ^ width * 256) + (256 ^ width * (n / 256 ^ width) + n % 256 ^ width) := by
          ring
      _ = acc * (256 ^ width * 256) + n := by rw [div_add_mod]

/-- A number that fits its width is read back. -/
theorem ofBigEndian_toBigEndian {width n : ℕ} (h : n < 256 ^ width) :
    ofBigEndian (toBigEndian width n) = n := by
  rw [ofBigEndian, foldl_toBigEndian width n 0 h, zero_mul, zero_add]

/-- Numbers compare by their leading part, then by the rest. -/
lemma lt_iff_div_mod {m n p : ℕ} : m < n ↔ m / p < n / p ∨ (m / p = n / p ∧ m % p < n % p) := by
  have hm := div_add_mod m p
  have hn := div_add_mod n p
  rcases lt_trichotomy (m / p) (n / p) with h | h | h
  · exact iff_of_true (lt_of_div_lt_div h) (.inl h)
  · rw [h] at hm ⊢
    omega
  · exact iff_of_false (lt_asymm (lt_of_div_lt_div h)) (by simp [h.not_gt, h.ne'])

/-- Big-endian numbers of one width compare like numbers, and what follows them breaks ties. -/
theorem toBigEndian_append_lt {x y : Bytes} : ∀ {width m n : ℕ}, m < 256 ^ width →
    n < 256 ^ width → (toBigEndian width m ++ x < toBigEndian width n ++ y ↔ m < n ∨
      (m = n ∧ x < y))
  | 0, m, n, hm, hn => by
    obtain rfl : m = 0 := by simpa using hm
    obtain rfl : n = 0 := by simpa using hn
    simp [toBigEndian]
  | width + 1, m, n, hm, hn => by
    have hrest : ∀ k : ℕ, k % 256 ^ width < 256 ^ width := fun k =>
      mod_lt _ (by positivity)
    simp only [toBigEndian, List.cons_append, List.cons_lt_cons_iff, Fin.mk_lt_mk, Fin.mk.injEq,
      mod_eq_of_lt (div_lt_of_lt_pow hm), mod_eq_of_lt (div_lt_of_lt_pow hn),
      toBigEndian_append_lt (hrest m) (hrest n)]
    rw [ext_div_mod_iff (256 ^ width) m n, lt_iff_div_mod (m := m) (n := n) (p := 256 ^ width)]
    tauto

end Mantissa
