import Mantissa.Core.Run

/-!
# Infinite runs

An infinite run of a transition system is a sequence of states and the actions between them. What
must happen on a fair run is shown with a rank: helpful actions lower it, the others do not raise
it, and as long as the goal is not reached a helpful action can be taken (`InfiniteRun.eventually`).
-/

namespace Mantissa

variable {S Act : Type*}

/-- An infinite run whose steps all meet `ok`. -/
structure InfiniteRun (step : S → Act → Option S) (ok : S → Act → Prop) where
  state : ℕ → S
  act : ℕ → Act
  ok : ∀ n, ok (state n) (act n)
  step : ∀ n, step (state n) (act n) = some (state (n + 1))

namespace InfiniteRun

/-- The states when the actions `acts` are taken from `s`. -/
def stateAt (step : S → Act → Option S) (s : S) (acts : ℕ → Act) : ℕ → S
  | 0 => s
  | n + 1 => (step (stateAt step s acts n) (acts n)).getD (stateAt step s acts n)

variable {step : S → Act → Option S} {ok : S → Act → Prop} (run : InfiniteRun step ok)

/-- The run that takes the actions `acts`. -/
def ofActs (s : S) (acts : ℕ → Act) (h : ∀ n, ok (stateAt step s acts n) (acts n) ∧
    (step (stateAt step s acts n) (acts n)).isSome) : InfiniteRun step ok where
  state := stateAt step s acts
  act := acts
  ok n := (h n).1
  step n := by
    obtain ⟨next, hnext⟩ := Option.isSome_iff_exists.mp (h n).2
    rw [stateAt, hnext, Option.getD_some]

lemma reaches {m n : ℕ} (h : m ≤ n) : Reaches step ok (run.state m) (run.state n) := by
  induction n, h using Nat.le_induction with
  | base => exact .refl
  | succ n _ ih => exact ih.tail (run.ok n) (run.step n)

/-- Some action of this kind can be taken. -/
def Enabled (step : S → Act → Option S) (ok : S → Act → Prop) (helpful : Act → Prop) (s : S) :
    Prop :=
  ∃ act, helpful act ∧ ok s act ∧ (step s act).isSome

/-- Actions of this kind are taken if they can be taken from some time on. -/
def Fair (helpful : Act → Prop) : Prop :=
  ∀ start, (∀ n, start ≤ n → Enabled step ok helpful (run.state n)) →
    ∃ n, start ≤ n ∧ helpful (run.act n)

/-- **What helpful actions bring closer is reached.** -/
theorem eventually {helpful : Act → Prop} (hfair : run.Fair helpful) {P Q : S → Prop}
    (rank : S → ℕ) {start : ℕ} (hstart : P (run.state start))
    (henabled : ∀ s, P s → Enabled step ok helpful s)
    (hstep : ∀ n, start ≤ n → P (run.state n) → Q (run.state (n + 1)) ∨
      P (run.state (n + 1)) ∧ rank (run.state (n + 1)) ≤ rank (run.state n) ∧
        (helpful (run.act n) → rank (run.state (n + 1)) < rank (run.state n))) :
    ∃ n, start ≤ n ∧ Q (run.state n) := by
  by_contra hnever
  push Not at hnever
  have hkeep : ∀ n, start ≤ n → P (run.state n) := by
    intro n hn
    induction n, hn using Nat.le_induction with
    | base => exact hstart
    | succ n hn ih =>
      rcases hstep n hn ih with hQ | ⟨hP, -⟩
      · exact absurd hQ (hnever (n + 1) (Nat.le_succ_of_le hn))
      · exact hP
  have hnext : ∀ n, start ≤ n → rank (run.state (n + 1)) ≤ rank (run.state n) ∧
      (helpful (run.act n) → rank (run.state (n + 1)) < rank (run.state n)) := by
    intro n hn
    exact ((hstep n hn (hkeep n hn)).resolve_left (hnever (n + 1) (Nat.le_succ_of_le hn))).2
  have hanti : ∀ m n, start ≤ m → m ≤ n → rank (run.state n) ≤ rank (run.state m) := by
    intro m n hm hmn
    induction n, hmn using Nat.le_induction with
    | base => exact le_rfl
    | succ n hmn ih => exact (hnext n (hm.trans hmn)).1.trans ih
  have hrecurs : ∀ n, start ≤ n → ∃ m, n ≤ m ∧ helpful (run.act m) := fun n hn =>
    hfair n fun m hm => henabled _ (hkeep m (hn.trans hm))
  -- The rank falls below every bound, by induction on the bound.
  have hfall : ∀ bound n, start ≤ n → rank (run.state n) ≤ bound → False := by
    intro bound
    induction bound with
    | zero =>
      intro n hn hbound
      obtain ⟨m, hm, hhelpful⟩ := hrecurs n hn
      have hlt := (hnext m (hn.trans hm)).2 hhelpful
      have hle := hanti n m hn hm
      omega
    | succ bound ih =>
      intro n hn hbound
      obtain ⟨m, hm, hhelpful⟩ := hrecurs n hn
      have hlt := (hnext m (hn.trans hm)).2 hhelpful
      have hle := hanti n m hn hm
      exact ih (m + 1) (Nat.le_succ_of_le (hn.trans hm)) (by omega)
  exact hfall _ start le_rfl le_rfl

end InfiniteRun

end Mantissa
