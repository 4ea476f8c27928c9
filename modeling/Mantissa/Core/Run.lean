import Mathlib

/-!
# Runs of a transition system

A system is a step function `step : S → Act → Option S`; `none` means the action is not available
there. `Reaches step ok s t` says that some run leads from `s` to `t` with every step taken in a
state and under an action that `ok` admits, so one relation serves both for all runs (`anyStep`)
and for the runs that keep to a condition.

Safety goes through `Reaches.invariant`. A concrete run is a list of actions: `runActions` executes
it, and `exists_reaches_of_runActions` turns a computation into a reachable state.
-/

namespace Mantissa

variable {S Act : Type*}

/-- `t` is reached from `s` by steps that all meet `ok`. -/
inductive Reaches (step : S → Act → Option S) (ok : S → Act → Prop) (s : S) : S → Prop
  | refl : Reaches step ok s s
  | tail {t u : S} {act : Act} :
      Reaches step ok s t → ok t act → step t act = some u → Reaches step ok s u

/-- No condition on the steps. -/
def anyStep : S → Act → Prop := fun _ _ => True

variable {step : S → Act → Option S} {ok : S → Act → Prop} {s t u : S}

/-- What holds at the start and is kept by every admitted step holds in every state reached. -/
theorem Reaches.invariant {P : S → Prop} (h : Reaches step ok s t) (init : P s)
    (keep : ∀ {x y : S} {act : Act}, P x → ok x act → step x act = some y → P y) : P t := by
  induction h with
  | refl => exact init
  | tail _ hok hstep ih => exact keep ih hok hstep

lemma Reaches.trans (h : Reaches step ok s t) (h' : Reaches step ok t u) : Reaches step ok s u := by
  induction h' with
  | refl => exact h
  | tail _ hok hstep ih => exact ih.tail hok hstep

/-! ## Concrete runs -/

/-- Execute a list of actions, checking the condition at each. -/
def runActions (step : S → Act → Option S) (ok : S → Act → Prop) [∀ s act, Decidable (ok s act)] :
    S → List Act → Option S
  | s, [] => some s
  | s, act :: acts =>
    if ok s act then (step s act).bind fun t => runActions step ok t acts else none

instance (s : S) (act : Act) : Decidable (anyStep s act) := inferInstanceAs (Decidable True)

lemma reaches_of_runActions [∀ s act, Decidable (ok s act)] : ∀ (acts : List Act) {s t : S},
    runActions step ok s acts = some t → Reaches step ok s t
  | [], s, t, h => by
    cases h
    exact .refl
  | act :: acts, s, t, h => by
    rw [runActions] at h
    split_ifs at h with hok
    obtain ⟨u, hu, hrest⟩ := Option.bind_eq_some_iff.mp h
    exact (Reaches.refl.tail hok hu).trans (reaches_of_runActions acts hrest)

/-- The end of a computed run. -/
lemma reaches_getD_runActions [∀ s act, Decidable (ok s act)] (acts : List Act) (default : S)
    (h : (runActions step ok s acts).isSome = true) :
    Reaches step ok s ((runActions step ok s acts).getD default) := by
  obtain ⟨t, ht⟩ := Option.isSome_iff_exists.mp h
  rw [ht, Option.getD_some]
  exact reaches_of_runActions acts ht

/-- A computed run that ends in a state with a property witnesses a reachable one. -/
lemma exists_reaches_of_runActions [∀ s act, Decidable (ok s act)] {P : S → Prop}
    [DecidablePred P] (acts : List Act)
    (h : (runActions step ok s acts).any (fun t => decide (P t)) = true) :
    ∃ t, Reaches step ok s t ∧ P t := by
  cases hrun : runActions step ok s acts with
  | none =>
    rw [hrun] at h
    cases h
  | some t =>
    rw [hrun] at h
    exact ⟨t, reaches_of_runActions acts hrun, of_decide_eq_true h⟩

end Mantissa
