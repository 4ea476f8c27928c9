import Mathlib

/-!
# Machine integers and bytes

`u64` values are natural numbers with the bound made explicit where an operation reaches it:
`saturatingAdd` stops at `u64Max`, `checkedAdd` fails past it. A byte is a `Fin 256`, so byte
strings are compared lexicographically by the order Mathlib puts on lists.
-/

namespace Mantissa

/-- `u64::MAX`. -/
def u64Max : ℕ := 2 ^ 64 - 1

/-- `u64::saturating_add`. -/
def saturatingAdd (a b : ℕ) : ℕ := min (a + b) u64Max

/-- `u64::checked_add`. -/
def checkedAdd (a b : ℕ) : Option ℕ := if a + b ≤ u64Max then some (a + b) else none

abbrev Byte := Fin 256

instance byteNeZero : NeZero 256 := ⟨Nat.succ_ne_zero 255⟩

/-- `Vec<u8>` and `&[u8]`, ordered lexicographically. -/
abbrev Bytes := List Byte

instance bytesTransCmp : Std.TransCmp (@compare Bytes LinearOrder.toOrd) := inferInstance

lemma one_le_u64Max : 1 ≤ u64Max := by decide

lemma saturatingAdd_of_lt {a : ℕ} (h : a < u64Max) : saturatingAdd a 1 = a + 1 := by
  simp only [saturatingAdd]
  omega

lemma checkedAdd_eq_some {a b c : ℕ} : checkedAdd a b = some c ↔ a + b ≤ u64Max ∧ c = a + b := by
  simp only [checkedAdd]
  split_ifs with h
  · simp [h, eq_comm]
  · simp [h]

end Mantissa
