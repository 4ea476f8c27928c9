import Mathlib

/-!
# Programs under injected faults

A program over files and a database is a function on its state that also reads a script of faults,
one line for each access to the outside. An empty line lets the access through; a fault makes it
return an error, or stops the program, and the access may have taken place all the same. Where the
script ends there are no more faults, so quantifying over scripts is quantifying over every way to
fail, and the empty script is the undisturbed run.

`wp m s Q E` is what is proved of a program: from `s` it returns a value with `Q` or stops with `E`,
whatever the script. It also says that a program stops without being rejected only under a script
that is not empty, which is what turns such a fact into a statement of success (`wp.run_ok`).
-/

namespace Mantissa

open List

/-- A fault at one access, which may have taken place before it. -/
inductive Fault
  | error (applied : Bool)
  | crash (applied : Bool)
  deriving DecidableEq

/-- Why a program stopped: a crash, an error that was injected, or a check of its own. -/
inductive Stop (ε : Type*)
  | crashed
  | failed (error : ε)
  | rejected (error : ε)
  deriving DecidableEq

/-- A stop that takes a fault. -/
def Stop.Injected {ε : Type*} : Stop ε → Prop
  | .rejected _ => False
  | _ => True

/-- The same stop with its error put into another type. -/
def Stop.map {ε ε' : Type*} (f : ε → ε') : Stop ε → Stop ε'
  | .crashed => .crashed
  | .failed error => .failed (f error)
  | .rejected error => .rejected (f error)

@[simp] lemma Stop.injected_map {ε ε' : Type*} {f : ε → ε'} {stop : Stop ε} :
    (stop.map f).Injected ↔ stop.Injected := by
  cases stop <;> rfl

/-- A program over `σ` that fails with `ε`. -/
def Prog (σ ε α : Type*) :=
  σ → List (Option Fault) → Except (Stop ε) α × σ × List (Option Fault)

namespace Prog

variable {σ ε α β : Type*}

instance : Monad (Prog σ ε) where
  pure a := fun s faults => (.ok a, s, faults)
  bind m k := fun s faults =>
    match m s faults with
    | (.ok a, s', faults') => k a s' faults'
    | (.error stop, s', faults') => (.error stop, s', faults')

variable (error : ε)

/-- An access that changes the state by `effect`. If it fails it may leave `broken`. -/
def call (effect broken : σ → σ) : Prog σ ε Unit := fun s faults =>
  match faults with
  | [] => (.ok (), effect s, [])
  | none :: rest => (.ok (), effect s, rest)
  | some (.error applied) :: rest => (.error (.failed error), if applied then broken s else s, rest)
  | some (.crash applied) :: rest => (.error .crashed, if applied then broken s else s, rest)

/-- An access that is done or not done. -/
def perform (effect : σ → σ) : Prog σ ε Unit := call error effect effect

/-- An access that reads. -/
def query (read : σ → α) : Prog σ ε α := fun s faults =>
  match faults with
  | [] => (.ok (read s), s, [])
  | none :: rest => (.ok (read s), s, rest)
  | some (.error _) :: rest => (.error (.failed error), s, rest)
  | some (.crash _) :: rest => (.error .crashed, s, rest)

/-- The program's own memory, without an access. -/
def memory (read : σ → α) : Prog σ ε α := fun s faults => (.ok (read s), s, faults)

/-- A change to the program's own memory. -/
def remember (update : σ → σ) : Prog σ ε Unit := fun s faults => (.ok (), update s, faults)

/-- A check fails. -/
def reject : Prog σ ε α := fun s faults => (.error (.rejected error), s, faults)

/-- Run a handler after an error and return the error; a crash leaves no time for it. -/
def rescue (m : Prog σ ε α) (handler : Prog σ ε Unit) : Prog σ ε α := fun s faults =>
  match m s faults with
  | (.error (.failed error), s', faults') =>
    match handler s' faults' with
    | (.ok (), s'', faults'') => (.error (.failed error), s'', faults'')
    | (.error stop, s'', faults'') => (.error stop, s'', faults'')
  | (.error (.rejected error), s', faults') =>
    match handler s' faults' with
    | (.ok (), s'', faults'') => (.error (.rejected error), s'', faults'')
    | (.error stop, s'', faults'') => (.error stop, s'', faults'')
  | result => result

/-- A program over a part of the state. -/
def zoom {τ ε' : Type*} (part : τ → σ) (put : σ → τ → τ) (error : ε → ε') (m : Prog σ ε α) :
    Prog τ ε' α := fun t faults =>
  match m (part t) faults with
  | (.ok a, s, faults') => (.ok a, put s t, faults')
  | (.error stop, s, faults') => (.error (stop.map error), put s t, faults')

end Prog

/-! ## Rules -/

/-- From `s`, a value with `Q` or a stop with `E`, whatever the script; the script is only
shortened, and an injected stop needs a script. -/
def wp {σ ε α : Type*} (m : Prog σ ε α) (s : σ) (Q : α → σ → Prop) (E : Stop ε → σ → Prop) : Prop :=
  ∀ faults, ∃ result s' faults', m s faults = (result, s', faults') ∧ faults' <:+ faults ∧
    match result with
    | .ok a => Q a s'
    | .error stop => E stop s' ∧ (stop.Injected → faults ≠ [])

/-- A stop that was injected, in a state with `P`. -/
def onFault {σ ε : Type*} (P : σ → Prop) (stop : Stop ε) (s : σ) : Prop := stop.Injected ∧ P s

/-- From `s` the program comes to a state with `P`, and only faults stop it. -/
abbrev Keeps {σ ε α : Type*} (P : σ → Prop) (m : Prog σ ε α) (s : σ) : Prop :=
  wp m s (fun _ => P) (onFault P)

namespace wp

universe u

variable {σ ε : Type*} {α β : Type u} {m : Prog σ ε α} {s : σ} {Q Q' : α → σ → Prop}
variable {E E' : Stop ε → σ → Prop}

lemma pure {a : α} (h : Q a s) : wp (Pure.pure a) s Q E := fun _ => ⟨_, _, _, rfl, suffix_rfl, h⟩

variable {k : α → Prog σ ε β} {R : β → σ → Prop}

lemma bind (h : wp m s (fun a t => wp (k a) t R E) E) : wp (m >>= k) s R E := by
  intro faults
  obtain ⟨result, s', faults', hrun, hsuffix, hpost⟩ := h faults
  cases result with
  | ok a =>
    obtain ⟨result, s'', faults'', hrun', hsuffix', hpost'⟩ := hpost faults'
    refine ⟨result, s'', faults'', ?_, hsuffix'.trans hsuffix, ?_⟩
    · simp [Bind.bind, hrun, hrun']
    · cases result with
      | ok b => exact hpost'
      | error stop =>
        refine ⟨hpost'.1, fun hinjected hnil => hpost'.2 hinjected ?_⟩
        rw [hnil] at hsuffix
        exact suffix_nil.mp hsuffix
  | error stop =>
    refine ⟨.error stop, s', faults', ?_, hsuffix, hpost⟩
    simp [Bind.bind, hrun]

/-- Consequence. -/
lemma mono (h : wp m s Q E) (hQ : ∀ a t, Q a t → Q' a t) (hE : ∀ stop t, E stop t → E' stop t) :
    wp m s Q' E' := by
  intro faults
  obtain ⟨result, s', faults', hrun, hsuffix, hpost⟩ := h faults
  refine ⟨result, s', faults', hrun, hsuffix, ?_⟩
  cases result with
  | ok a => exact hQ a s' hpost
  | error stop => exact ⟨hE stop s' hpost.1, hpost.2⟩

/-- One program after another, by what is known of the first. -/
lemma seq (h : wp m s Q E) (hE : ∀ stop t, E stop t → E' stop t)
    (hk : ∀ a t, Q a t → wp (k a) t R E') : wp (m >>= k) s R E' :=
  (h.mono hk hE).bind

/-- The same where both stop alike. -/
lemma next (h : wp m s Q E) (hk : ∀ a t, Q a t → wp (k a) t R E) : wp (m >>= k) s R E :=
  h.seq (fun _ _ hstop => hstop) hk

variable {error : ε}

lemma call {effect broken : σ → σ} {Q : Unit → σ → Prop} (hdone : Q () (effect s))
    (hkept : ∀ stop : Stop ε, stop.Injected → E stop s)
    (hbroken : ∀ stop : Stop ε, stop.Injected → E stop (broken s)) :
    wp (Prog.call error effect broken) s Q E := by
  intro faults
  match faults with
  | [] => exact ⟨_, _, _, rfl, suffix_rfl, hdone⟩
  | none :: rest => exact ⟨_, _, _, rfl, suffix_cons _ _, hdone⟩
  | some (.error applied) :: rest =>
    refine ⟨_, _, _, rfl, suffix_cons _ _, ?_, fun _ => cons_ne_nil _ _⟩
    cases applied with
    | false => exact hkept _ trivial
    | true => exact hbroken _ trivial
  | some (.crash applied) :: rest =>
    refine ⟨_, _, _, rfl, suffix_cons _ _, ?_, fun _ => cons_ne_nil _ _⟩
    cases applied with
    | false => exact hkept _ trivial
    | true => exact hbroken _ trivial

lemma perform {effect : σ → σ} {Q : Unit → σ → Prop} (hdone : Q () (effect s))
    (hkept : ∀ stop : Stop ε, stop.Injected → E stop s)
    (happlied : ∀ stop : Stop ε, stop.Injected → E stop (effect s)) :
    wp (Prog.perform error effect) s Q E :=
  call hdone hkept happlied

/-- An access that keeps an invariant when it is done. -/
lemma perform_eq {effect : σ → σ} {P : σ → Prop} (hkept : P s) (hdone : P (effect s)) :
    wp (Prog.perform error effect) s (fun _ t => t = effect s) (onFault P) :=
  perform rfl (fun _ hstop => ⟨hstop, hkept⟩) fun _ hstop => ⟨hstop, hdone⟩

lemma query {read : σ → α} (hread : Q (read s) s)
    (hkept : ∀ stop : Stop ε, stop.Injected → E stop s) : wp (Prog.query error read) s Q E := by
  intro faults
  match faults with
  | [] => exact ⟨_, _, _, rfl, suffix_rfl, hread⟩
  | none :: rest => exact ⟨_, _, _, rfl, suffix_cons _ _, hread⟩
  | some (.error applied) :: rest =>
    exact ⟨_, _, _, rfl, suffix_cons _ _, hkept _ trivial, fun _ => cons_ne_nil _ _⟩
  | some (.crash applied) :: rest =>
    exact ⟨_, _, _, rfl, suffix_cons _ _, hkept _ trivial, fun _ => cons_ne_nil _ _⟩

lemma memory {read : σ → α} (hread : Q (read s) s) : wp (Prog.memory read) s Q E :=
  fun _ => ⟨_, _, _, rfl, suffix_rfl, hread⟩

lemma remember {update : σ → σ} {Q : Unit → σ → Prop} (h : Q () (update s)) :
    wp (Prog.remember update) s Q E :=
  fun _ => ⟨_, _, _, rfl, suffix_rfl, h⟩

lemma reject (h : E (.rejected error) s) : wp (Prog.reject error) s Q E :=
  fun _ => ⟨_, _, _, rfl, suffix_rfl, h, False.elim⟩

/-- The handler starts where the program stopped with an error, and ends where the error is
returned. -/
lemma rescue {handler : Prog σ ε Unit} {E₀ : Stop ε → σ → Prop} (h : wp m s Q E₀)
    (hcrash : ∀ t, E₀ .crashed t → E .crashed t)
    (hhandler : ∀ stop t, stop ≠ .crashed → E₀ stop t → wp handler t (fun _ => E stop) E) :
    wp (Prog.rescue m handler) s Q E := by
  intro faults
  obtain ⟨result, s', faults', hrun, hsuffix, hpost⟩ := h faults
  have hnil : faults = [] → faults' = [] := fun hnil => by
    rw [hnil] at hsuffix
    exact suffix_nil.mp hsuffix
  cases result with
  | ok a => exact ⟨.ok a, s', faults', by simp [Prog.rescue, hrun], hsuffix, hpost⟩
  | error stop =>
    by_cases hstop : stop = .crashed
    · subst hstop
      exact ⟨.error .crashed, s', faults', by simp [Prog.rescue, hrun], hsuffix,
        hcrash s' hpost.1, hpost.2⟩
    · obtain ⟨result, s'', faults'', hrun', hsuffix', hpost'⟩ :=
        hhandler stop s' hstop hpost.1 faults'
      cases result with
      | ok u =>
        refine ⟨.error stop, s'', faults'', ?_, hsuffix'.trans hsuffix, hpost', hpost.2⟩
        cases stop <;> simp_all [Prog.rescue]
      | error stop' =>
        refine ⟨.error stop', s'', faults'', ?_, hsuffix'.trans hsuffix, hpost'.1,
          fun hinjected h => hpost'.2 hinjected (hnil h)⟩
        cases stop <;> simp_all [Prog.rescue]

/-- A program over a part leaves the rest alone. -/
lemma zoom {τ ε' : Type*} {part : τ → σ} {put : σ → τ → τ} {error : ε → ε'} {t : τ}
    {R : α → τ → Prop} {F : Stop ε' → τ → Prop} (h : wp m (part t) Q E)
    (hQ : ∀ a s, Q a s → R a (put s t)) (hE : ∀ stop s, E stop s → F (stop.map error) (put s t)) :
    wp (Prog.zoom part put error m) t R F := by
  intro faults
  obtain ⟨result, s', faults', hrun, hsuffix, hpost⟩ := h faults
  cases result with
  | ok a => exact ⟨.ok a, put s' t, faults', by simp [Prog.zoom, hrun], hsuffix, hQ a s' hpost⟩
  | error stop =>
    refine ⟨.error (stop.map error), put s' t, faults', by simp [Prog.zoom, hrun], hsuffix,
      hE stop s' hpost.1, ?_⟩
    rw [Stop.injected_map]
    exact hpost.2

/-- What is known of a run that returned. -/
lemma of_run {faults faults' : List (Option Fault)} {a : α} {t : σ} (h : wp m s Q E)
    (hrun : m s faults = (.ok a, t, faults')) : Q a t := by
  obtain ⟨result, s', faults'', hrun', -, hpost⟩ := h faults
  obtain ⟨rfl, rfl, rfl⟩ : result = .ok a ∧ s' = t ∧ faults'' = faults' := by
    simpa only [Prod.mk.injEq] using hrun'.symm.trans hrun
  exact hpost

/-- A program that is never rejected returns when nothing is injected. -/
theorem run_ok (h : wp m s Q E) (hE : ∀ error t, ¬ E (.rejected error) t) :
    ∃ a t, m s [] = (.ok a, t, []) ∧ Q a t := by
  obtain ⟨result, s', faults', hrun, hsuffix, hpost⟩ := h []
  obtain rfl := suffix_nil.mp hsuffix
  cases result with
  | ok a => exact ⟨a, s', hrun, hpost⟩
  | error stop =>
    cases stop with
    | rejected error => exact absurd hpost.1 (hE error s')
    | crashed => exact absurd rfl (hpost.2 trivial)
    | failed error => exact absurd rfl (hpost.2 trivial)

end wp

end Mantissa
