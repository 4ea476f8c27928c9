import Mathlib

/-!
# Passes until nothing changes

A worklist loop goes over its items again and again: an item that can be applied to the state is
applied, the others wait for the next pass, and the loop ends after a pass without an application.
`step s item` is the state after the application, or `none` if the item has to wait.

`loop_spec` is the rule for such a loop. An invariant of the single applications holds in the end,
and when every application lowers a measure, a number of passes above the measure is enough: then no
item can be applied any more.
-/

namespace Mantissa.Worklist

open List

variable {S I : Type*} (step : S → I → Option S)

/-- One item's turn; the flag says that an item was applied. -/
def visit (r : S × Bool) (item : I) : S × Bool :=
  match step r.1 item with
  | some t => (t, true)
  | none => r

/-- One pass. -/
def pass (items : List I) (s : S) : S × Bool := items.foldl (visit step) (s, false)

/-- Passes until nothing is applied, at most `fuel` of them. -/
def loop (items : List I) : ℕ → S → S
  | 0, s => s
  | fuel + 1, s => if (pass step items s).2 then loop items fuel (pass step items s).1
      else (pass step items s).1

variable {step} {items : List I} {P : S → Prop} {measure : S → ℕ}

variable (hstep : ∀ s item t, item ∈ items → P s → step s item = some t → P t ∧
  measure t < measure s)

include hstep

/-- What a pass does when it starts in the middle of one. -/
lemma fold_spec (r : S × Bool) (hr : P r.1) :
    P (items.foldl (visit step) r).1 ∧ measure (items.foldl (visit step) r).1 ≤ measure r.1 ∧
      ((items.foldl (visit step) r).2 = true →
        r.2 = true ∨ measure (items.foldl (visit step) r).1 < measure r.1) ∧
      ((items.foldl (visit step) r).2 = false →
        items.foldl (visit step) r = r ∧ ∀ item ∈ items, step r.1 item = none) := by
  induction items generalizing r with
  | nil => simpa using hr
  | cons item items ih =>
    have hrest : ∀ s other t, other ∈ items → P s → step s other = some t →
        P t ∧ measure t < measure s := fun s other t hmem =>
      hstep s other t (mem_cons_of_mem item hmem)
    rw [foldl_cons]
    cases hitem : step r.1 item with
    | none =>
      rw [show visit step r item = r by simp [visit, hitem]]
      obtain ⟨hP, hle, htrue, hfalse⟩ := ih hrest r hr
      refine ⟨hP, hle, htrue, ?_⟩
      intro hstuck
      obtain ⟨heq, hnone⟩ := hfalse hstuck
      simp only [mem_cons, forall_eq_or_imp]
      exact ⟨heq, hitem, hnone⟩
    | some t =>
      rw [show visit step r item = (t, true) by simp [visit, hitem]]
      obtain ⟨ht, hlt⟩ := hstep r.1 item t mem_cons_self hr hitem
      obtain ⟨hP, hle, -, hfalse⟩ := ih hrest (t, true) ht
      simp only at hle
      refine ⟨hP, by omega, fun _ => .inr (by omega), ?_⟩
      intro hstuck
      rw [(hfalse hstuck).1] at hstuck
      cases hstuck

/-- **The rule for the loop.** -/
theorem loop_spec {fuel : ℕ} {s : S} (hs : P s) (hfuel : measure s < fuel) :
    P (loop step items fuel s) ∧ ∀ item ∈ items, step (loop step items fuel s) item = none := by
  induction fuel generalizing s with
  | zero => omega
  | succ fuel ih =>
    obtain ⟨hP, -, htrue, hfalse⟩ := fold_spec hstep (s, false) hs
    rw [loop, pass]
    split_ifs with hadvanced
    · refine ih hP ?_
      have hlt := (htrue hadvanced).resolve_left Bool.false_ne_true
      exact hlt.trans_le (Nat.le_of_lt_succ hfuel)
    · obtain ⟨heq, hnone⟩ := hfalse (by simpa using hadvanced)
      rw [heq]
      exact ⟨hs, hnone⟩

omit hstep

/-- A loop at its end makes no further pass. -/
lemma pass_of_stuck {s : S} (h : ∀ item ∈ items, step s item = none) :
    pass step items s = (s, false) := by
  unfold pass
  induction items with
  | nil => rfl
  | cons item items ih =>
    rw [foldl_cons, visit, h item mem_cons_self]
    exact ih fun other hother => h other (mem_cons_of_mem item hother)

end Mantissa.Worklist
