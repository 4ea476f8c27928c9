import Mantissa.Core.Run

/-!
# A shared cell with optimistic writers

A cell holds a pointer to an immutable value. A call loads the pointer, builds a new value from
what it points to, and swaps the pointer if nobody has moved it; otherwise it starts over. After
the swap it stores the new value, and if that fails it tries to swap the old pointer back.

Pointers are places in the list of all values that were ever published, so an old pointer that is
put back is recognized as the same one. Every published value remembers which rounds built it
(`Published.applied`); no step looks at that.

Two orders of failure are treated apart.

* If a write fails only while its value is the one in the cell (`failsOnTop`), the values in use
  form a stack: whoever is still writing is below the current value, and a failed call takes its own
  value off the top. So no failed call is among those that built the current value.
* If a write fails only when its value is not in the cell any more (`failsCovered`), the pointer
  never goes back, and a rank that every round raises tells all published values apart.

When no write fails and the stored values arrive in order (`storesNewer`), whatever is newer than
the row is still being written.
-/

namespace Mantissa

open List

/-- How a round of a call ends: with a result, or with a value to publish. -/
inductive Round (S E A : Type)
  | finish (result : Except E A)
  | publish (next : S) (answer : A)

/-- What calls on a cell do. `attempt` is one round, at some time and with a number that no other
round has; `store` puts a value into the durable row. -/
structure CellProgram (S Op T E A R : Type) where
  attempt : Op → T → ℕ → S → Round S E A
  storeError : E
  store : S → R → R

/-- A round that published a value. -/
structure Applied (Op T : Type) where
  call : ℕ
  op : Op
  time : T
  round : ℕ

/-- A value that was published, and the rounds that built it. -/
structure Published (S Op T : Type) where
  value : S
  applied : List (Applied Op T)

/-- Where a call stands. -/
inductive CallPhase (E A : Type)
  | ready
  | loaded (base : ℕ)
  | writing (base mine : ℕ) (answer : A)
  | returned (result : Except E A)
  deriving DecidableEq

structure SharedCell (S Op T E A R : Type) where
  calls : List (Op × CallPhase E A)
  published : List (Published S Op T)
  current : ℕ
  rounds : ℕ
  row : R

inductive CellAction (Op T : Type)
  | start (op : Op)
  | load (call : ℕ)
  | attempt (call : ℕ) (time : T)
  | stored (call : ℕ)
  | failed (call : ℕ)

variable {S Op T E A R : Type} (program : CellProgram S Op T E A R)

/-- The value that some rounds build, one after the other. -/
def CellProgram.replay (start : S) (applied : List (Applied Op T)) : Option S :=
  applied.foldlM (fun value round =>
    match program.attempt round.op round.time round.round value with
    | .publish next _ => some next
    | .finish _ => none) start

/-- Every round raises the rank. -/
def CellProgram.Raises (rank : S → ℕ) : Prop :=
  ∀ op time round value next answer, program.attempt op time round value = .publish next answer →
    rank value < rank next

namespace SharedCell

/-- A cell with one value in it and no calls. -/
def initial (start : S) (row : R) : SharedCell S Op T E A R := ⟨[], [⟨start, []⟩], 0, 0, row⟩

variable (cell : SharedCell S Op T E A R)

/-- A call moves on. -/
def setPhase (call : ℕ) (op : Op) (phase : CallPhase E A) : SharedCell S Op T E A R :=
  { cell with calls := cell.calls.set call (op, phase) }

/-- The pointer still is what a round started from, so its value goes in. -/
def publish (base : ℕ) (value : S)
    (applied : List (Applied Op T)) (call : ℕ) (op : Op) (answer : A) : SharedCell S Op T E A R :=
  { cell.setPhase call op (.writing base cell.published.length answer) with
    published := cell.published ++ [⟨value, applied⟩]
    current := cell.published.length
    rounds := cell.rounds + 1 }

/-- One step of a call, or a new call. -/
def step (program : CellProgram S Op T E A R) (cell : SharedCell S Op T E A R) :
    CellAction Op T → Option (SharedCell S Op T E A R)
  | .start op => some { cell with calls := cell.calls ++ [(op, .ready)] }
  | .load call =>
    match cell.calls[call]? with
    | some (op, .ready) => some (cell.setPhase call op (.loaded cell.current))
    | _ => none
  | .attempt call time =>
    match cell.calls[call]? with
    | some (op, .loaded base) =>
      match cell.published[base]? with
      | none => none
      | some loaded =>
        match program.attempt op time cell.rounds loaded.value with
        | .finish result =>
          some { cell.setPhase call op (.returned result) with rounds := cell.rounds + 1 }
        | .publish next answer =>
          if cell.current = base then
            some (cell.publish base next (loaded.applied ++ [⟨call, op, time, cell.rounds⟩])
              call op answer)
          else some { cell.setPhase call op .ready with rounds := cell.rounds + 1 }
    | _ => none
  | .stored call =>
    match cell.calls[call]? with
    | some (op, .writing _ mine answer) =>
      match cell.published[mine]? with
      | none => none
      | some written => some { cell.setPhase call op (.returned (.ok answer)) with
          row := program.store written.value cell.row }
    | _ => none
  | .failed call =>
    match cell.calls[call]? with
    | some (op, .writing base mine _) =>
      some { cell.setPhase call op (.returned (.error program.storeError)) with
        current := if cell.current = mine then base else cell.current }
    | _ => none

/-- A write fails only while its value is in the cell. -/
def failsOnTop : CellAction Op T → Bool
  | .failed call =>
    match cell.calls[call]? with
    | some (_, .writing _ mine _) => decide (cell.current = mine)
    | _ => true
  | _ => true

/-- A write fails only when its value is not in the cell any more. -/
def failsCovered : CellAction Op T → Bool
  | .failed call =>
    match cell.calls[call]? with
    | some (_, .writing _ mine _) => decide (cell.current ≠ mine)
    | _ => true
  | _ => true

/-- No write fails, and each stores a value of higher rank than the row has. -/
def storesNewer (rank : S → ℕ) (load : R → Option S) (cell : SharedCell S Op T E A R) :
    CellAction Op T → Bool
  | .failed _ => false
  | .stored call =>
    match cell.calls[call]? with
    | some (_, .writing _ mine _) =>
      (cell.published[mine]?).all fun written =>
        (load cell.row).all fun value => decide (rank value < rank written.value)
    | _ => true
  | _ => true

end SharedCell

/-! ## What a step does -/

/-- **What one step does**, with everything it has looked at. -/
inductive CellStep (program : CellProgram S Op T E A R) (cell : SharedCell S Op T E A R) :
    CellAction Op T → SharedCell S Op T E A R → Prop
  | started (op : Op) :
      CellStep program cell (.start op) { cell with calls := cell.calls ++ [(op, .ready)] }
  | loaded (call : ℕ) (op : Op) (hcall : cell.calls[call]? = some (op, .ready)) :
      CellStep program cell (.load call) (cell.setPhase call op (.loaded cell.current))
  | finished (call : ℕ) (time : T) (op : Op) (base : ℕ) (result : Except E A)
      (hcall : cell.calls[call]? = some (op, .loaded base)) :
      CellStep program cell (.attempt call time)
        { cell.setPhase call op (.returned result) with rounds := cell.rounds + 1 }
  | retried (call : ℕ) (time : T) (op : Op) (base : ℕ)
      (hcall : cell.calls[call]? = some (op, .loaded base)) :
      CellStep program cell (.attempt call time)
        { cell.setPhase call op .ready with rounds := cell.rounds + 1 }
  | published (call : ℕ) (time : T) (op : Op) (loaded : Published S Op T) (next : S) (answer : A)
      (hcall : cell.calls[call]? = some (op, .loaded cell.current))
      (hbase : cell.published[cell.current]? = some loaded)
      (hattempt : program.attempt op time cell.rounds loaded.value = .publish next answer) :
      CellStep program cell (.attempt call time)
        (cell.publish cell.current next (loaded.applied ++ [⟨call, op, time, cell.rounds⟩]) call op
          answer)
  | stored (call : ℕ) (op : Op) (base mine : ℕ) (answer : A) (written : Published S Op T)
      (hcall : cell.calls[call]? = some (op, .writing base mine answer))
      (hmine : cell.published[mine]? = some written) :
      CellStep program cell (.stored call)
        { cell.setPhase call op (.returned (.ok answer)) with
          row := program.store written.value cell.row }
  | rolledBack (call : ℕ) (op : Op) (base : ℕ) (answer : A)
      (hcall : cell.calls[call]? = some (op, .writing base cell.current answer)) :
      CellStep program cell (.failed call)
        { cell.setPhase call op (.returned (.error program.storeError)) with current := base }
  | covered (call : ℕ) (op : Op) (base mine : ℕ) (answer : A)
      (hcall : cell.calls[call]? = some (op, .writing base mine answer))
      (hcurrent : cell.current ≠ mine) :
      CellStep program cell (.failed call)
        (cell.setPhase call op (.returned (.error program.storeError)))

namespace SharedCell

variable {program : CellProgram S Op T E A R} {cell cell' : SharedCell S Op T E A R}
variable {act : CellAction Op T}

lemma step_cases (h : cell.step program act = some cell') : CellStep program cell act cell' := by
  cases act with
  | start op =>
    cases h
    exact .started op
  | load call =>
    simp only [step] at h
    split at h
    · next op hcall =>
        cases h
        exact .loaded call op hcall
    · cases h
  | attempt call time =>
    simp only [step] at h
    split at h
    · next op base hcall =>
        split at h
        · cases h
        · next loaded hbase =>
            split at h
            · next result _ =>
                cases h
                exact .finished call time op base result hcall
            · next next answer hattempt =>
                split_ifs at h with hcurrent
                · cases h
                  subst hcurrent
                  exact .published call time op loaded next answer hcall hbase hattempt
                · cases h
                  exact .retried call time op base hcall
    · cases h
  | stored call =>
    simp only [step] at h
    split at h
    · next op base mine answer hcall =>
        split at h
        · cases h
        · next written hmine =>
            cases h
            exact .stored call op base mine answer written hcall hmine
    · cases h
  | failed call =>
    simp only [step] at h
    split at h
    · next op base mine answer hcall =>
        cases h
        by_cases hcurrent : cell.current = mine
        · subst hcurrent
          rw [if_pos rfl]
          exact .rolledBack call op base answer hcall
        · rw [if_neg hcurrent]
          exact .covered call op base mine answer hcall hcurrent
    · cases h

variable {call : ℕ} {op : Op} {phase : CallPhase E A}

/-- Another call stands where it stood. -/
lemma getElem?_setPhase_of_ne {k : ℕ} (hne : k ≠ call) :
    (cell.setPhase call op phase).calls[k]? = cell.calls[k]? := by
  rw [setPhase, getElem?_set_ne (Ne.symm hne)]

lemma getElem?_setPhase_self {phase' : CallPhase E A}
    (hcall : cell.calls[call]? = some (op, phase')) :
    (cell.setPhase call op phase).calls[call]? = some (op, phase) := by
  obtain ⟨hlt, -⟩ := List.getElem?_eq_some_iff.mp hcall
  rw [setPhase, getElem?_set_self hlt]

/-- A call that is found after a step is the one that moved or was there before. -/
lemma cases_setPhase {k : ℕ} {op' : Op} {phase' old : CallPhase E A}
    (hcall : cell.calls[call]? = some (op, old))
    (h : (cell.setPhase call op phase).calls[k]? = some (op', phase')) :
    k = call ∧ op' = op ∧ phase' = phase ∨ k ≠ call ∧ cell.calls[k]? = some (op', phase') := by
  by_cases hk : k = call
  · subst hk
    rw [getElem?_setPhase_self hcall] at h
    cases h
    exact .inl ⟨rfl, rfl, rfl⟩
  · rw [getElem?_setPhase_of_ne hk] at h
    exact .inr ⟨hk, h⟩

lemma getElem?_concat {α : Type} {l : List α} {i : ℕ} {a b : α} (h : l[i]? = some a) :
    (l ++ [b])[i]? = some a := by
  obtain ⟨hlt, -⟩ := List.getElem?_eq_some_iff.mp h
  rw [getElem?_append_left hlt, h]

lemma cases_concat {α : Type} {l : List α} {i : ℕ} {a b : α} (h : (l ++ [b])[i]? = some a) :
    l[i]? = some a ∨ i = l.length ∧ a = b := by
  rcases lt_or_ge i l.length with hlt | hge
  · rw [getElem?_append_left hlt] at h
    exact .inl h
  · rw [getElem?_append_right hge] at h
    obtain ⟨hlt, hget⟩ := List.getElem?_eq_some_iff.mp h
    rw [length_singleton] at hlt
    exact .inr ⟨by omega, by simpa using hget.symm⟩

/-! ## Values and the rounds that built them -/

variable {start : S} {applied : List (Applied Op T)} {answer : A}

/-- Every published value is what its rounds build. -/
def Explained (program : CellProgram S Op T E A R) (start : S) (cell : SharedCell S Op T E A R) :
    Prop :=
  ∀ written ∈ cell.published, program.replay start written.applied = some written.value

lemma Explained.step (hinv : Explained program start cell)
    (h : cell.step program act = some cell') : Explained program start cell' := by
  cases step_cases h with
  | published call time op loaded next answer _ hbase hattempt =>
    intro written hmem
    rcases mem_append.mp hmem with hmem | hmem
    · exact hinv written hmem
    · obtain rfl := mem_singleton.mp hmem
      have hreplay := hinv loaded (mem_of_getElem? hbase)
      rw [CellProgram.replay] at hreplay ⊢
      rw [foldlM_append, hreplay]
      simp [hattempt]
  | started | loaded | finished | retried | stored | rolledBack | covered => exact hinv

variable {row : R}

/-! ## Failures on top: the values in use form a stack -/

/-- The call of a round has stored its value, or is about to. -/
def Kept (cell : SharedCell S Op T E A R) (round : Applied Op T) : Prop :=
  ∃ phase, cell.calls[round.call]? = some (round.op, phase) ∧
    ((∃ answer, phase = .returned (.ok answer)) ∨ ∃ base mine answer, phase =
      .writing base mine answer)

lemma Kept.setPhase {round : Applied Op T} (h : cell.Kept round) (hne : round.call ≠ call) :
    (cell.setPhase call op phase).Kept round := by
  obtain ⟨phase', hphase', hcases⟩ := h
  exact ⟨phase', (getElem?_setPhase_of_ne hne).trans hphase', hcases⟩

/-- The current value was built by rounds of different calls, none of which has failed, and every
value that is still being written is a stage of it. -/
structure Stacked (cell : SharedCell S Op T E A R) : Prop where
  current : ∃ top : Published S Op T, cell.published[cell.current]? = some top ∧
    (top.applied.map Applied.call).Nodup ∧ (∀ round ∈ top.applied, cell.Kept round) ∧
    ∀ (call : ℕ) (op : Op) (base mine : ℕ) (answer : A),
      cell.calls[call]? = some (op, CallPhase.writing base mine answer) →
      ∃ (below written : Published S Op T) (round : Applied Op T),
        cell.published[base]? = some below ∧
        cell.published[mine]? = some written ∧ round.call = call ∧
        written.applied = below.applied ++ [round] ∧ written.applied <+: top.applied

lemma stacked_initial : Stacked (initial start row : SharedCell S Op T E A R) :=
  ⟨⟨⟨start, []⟩, rfl, nodup_nil, nofun, fun _ _ _ _ _ => nofun⟩⟩

/-- A call that has not published may do what it wants except write. -/
lemma Stacked.setPhase (hinv : Stacked cell) (phase : CallPhase E A) {old : CallPhase E A}
    (hcall : cell.calls[call]? = some (op, old))
    (hold : ∀ round, round.call = call → ¬ cell.Kept round)
    (hphase : ∀ base mine answer, phase ≠ .writing base mine answer) :
    Stacked (cell.setPhase call op phase) := by
  obtain ⟨top, htop, hnodup, hkept, hwriting⟩ := hinv.current
  refine ⟨⟨top, htop, hnodup, ?_, ?_⟩⟩
  · intro round hmem
    exact (hkept round hmem).setPhase fun heq => hold round heq (hkept round hmem)
  · intro call' op' base mine answer hcall'
    rcases cases_setPhase hcall hcall' with ⟨-, -, hwrite⟩ | ⟨-, hcall'⟩
    · exact absurd hwrite.symm (hphase base mine answer)
    · exact hwriting call' op' base mine answer hcall'

lemma not_kept_of_phase
    (hcall : cell.calls[call]? = some (op, phase)) (hreturned : ∀ answer, phase ≠
      .returned (.ok answer))
    (hwriting : ∀ base mine answer, phase ≠ .writing base mine answer) (round : Applied Op T)
    (hround : round.call = call) : ¬ cell.Kept round := by
  rintro ⟨phase', hphase', hcases⟩
  rw [hround, hcall] at hphase'
  cases hphase'
  rcases hcases with ⟨answer, h⟩ | ⟨base, mine, answer, h⟩
  · exact hreturned answer h
  · exact hwriting base mine answer h

variable (hinv : Stacked cell)

include hinv

lemma Stacked.started (op : Op) : Stacked { cell with calls := cell.calls ++ [(op, .ready)] } := by
  obtain ⟨top, htop, hnodup, hkept, hwriting⟩ := hinv.current
  refine ⟨⟨top, htop, hnodup, ?_, ?_⟩⟩
  · intro round hmem
    obtain ⟨phase, hphase, hcases⟩ := hkept round hmem
    exact ⟨phase, getElem?_concat hphase, hcases⟩
  · intro call op' base mine answer hcall
    rcases cases_concat hcall with hcall | ⟨-, hready⟩
    · exact hwriting call op' base mine answer hcall
    · cases hready

lemma Stacked.published {time : T} {loaded : Published S Op T} {next : S}
    (hcall : cell.calls[call]? = some (op, .loaded cell.current))
    (hbase : cell.published[cell.current]? = some loaded) : Stacked (cell.publish cell.current next
      (loaded.applied ++ [⟨call, op, time, cell.rounds⟩]) call op answer) := by
  obtain ⟨top, htop, hnodup, hkept, hwriting⟩ := hinv.current
  obtain rfl := Option.some.inj (hbase.symm.trans htop)
  have hnew : ∀ round ∈ loaded.applied, round.call ≠ call := by
    intro round hmem heq
    exact not_kept_of_phase hcall nofun (fun _ _ _ => nofun) round heq (hkept round hmem)
  refine ⟨⟨⟨next, loaded.applied ++ [⟨call, op, time, cell.rounds⟩]⟩, ?_, ?_, ?_, ?_⟩⟩
  · simp [publish]
  · rw [map_append, map_singleton, nodup_append]
    refine ⟨hnodup, nodup_singleton _, ?_⟩
    intro a ha b hb
    obtain ⟨round, hmem, rfl⟩ := mem_map.mp ha
    obtain rfl := mem_singleton.mp hb
    exact hnew round hmem
  · intro round hmem
    rcases mem_append.mp hmem with hmem | hmem
    · exact (hkept round hmem).setPhase (hnew round hmem)
    · obtain rfl := mem_singleton.mp hmem
      exact ⟨_, getElem?_setPhase_self hcall, .inr ⟨_, _, _, rfl⟩⟩
  · intro call' op' base mine answer' hcall'
    rcases cases_setPhase hcall hcall' with ⟨rfl, rfl, hwrite⟩ | ⟨-, hcall'⟩
    · cases hwrite
      exact ⟨loaded, _, _, getElem?_concat hbase, getElem?_concat_length, rfl, rfl, prefix_rfl⟩
    · obtain ⟨below, written, round, hbelow, hwritten, hround, happlied, hprefix⟩ :=
        hwriting call' op' base mine answer' hcall'
      exact ⟨below, written, round, getElem?_concat hbelow, getElem?_concat hwritten, hround,
        happlied, hprefix.trans (prefix_append _ _)⟩

lemma Stacked.stored {base mine : ℕ}
    (hcall : cell.calls[call]? = some (op, .writing base mine answer)) :
    Stacked (cell.setPhase call op (.returned (.ok answer))) := by
  obtain ⟨top, htop, hnodup, hkept, hwriting⟩ := hinv.current
  refine ⟨⟨top, htop, hnodup, ?_, ?_⟩⟩
  · intro round hmem
    by_cases hround : round.call = call
    · obtain ⟨phase, hphase, -⟩ := hkept round hmem
      rw [hround, hcall] at hphase
      cases hphase
      refine ⟨_, ?_, .inl ⟨answer, rfl⟩⟩
      rw [hround]
      exact getElem?_setPhase_self hcall
    · exact (hkept round hmem).setPhase hround
  · intro call' op' base' mine' answer' hcall'
    rcases cases_setPhase hcall hcall' with ⟨-, -, hwrite⟩ | ⟨-, hcall'⟩
    · cases hwrite
    · exact hwriting call' op' base' mine' answer' hcall'

/-- A call takes its own value off the top. -/
lemma Stacked.rolledBack {base : ℕ} {error : E}
    (hcall : cell.calls[call]? = some (op, .writing base cell.current answer)) :
    Stacked { cell.setPhase call op (.returned (.error error)) with current := base } := by
  obtain ⟨top, htop, hnodup, hkept, hwriting⟩ := hinv.current
  obtain ⟨below, written, own, hbelow, hwritten, hown, happlied, -⟩ :=
    hwriting call op base cell.current answer hcall
  obtain rfl := Option.some.inj (hwritten.symm.trans htop)
  rw [happlied] at hnodup hkept
  rw [map_append, map_singleton, nodup_append] at hnodup
  refine ⟨⟨below, hbelow, hnodup.1, ?_, ?_⟩⟩
  · intro round hmem
    have hne : round.call ≠ call := by
      rw [← hown]
      exact hnodup.2.2 _ (mem_map_of_mem hmem) _ mem_cons_self
    exact (hkept round (mem_append_left _ hmem)).setPhase hne
  · intro call' op' base' mine' answer' hcall'
    rcases cases_setPhase hcall hcall' with ⟨-, -, hwrite⟩ | ⟨hne, hcall'⟩
    · cases hwrite
    · obtain ⟨below', written', round', hbelow', hwritten', hround', happlied', hprefix⟩ :=
        hwriting call' op' base' mine' answer' hcall'
      refine ⟨below', written', round', hbelow', hwritten', hround', happlied', ?_⟩
      -- The other value cannot be the top one: another call published that.
      rw [happlied, prefix_concat_iff] at hprefix
      rcases hprefix with heq | hprefix
      · rw [happlied'] at heq
        obtain ⟨-, hsame⟩ := append_inj' heq rfl
        rw [singleton_inj] at hsame
        rw [hsame, hown] at hround'
        exact absurd hround'.symm hne
      · exact hprefix

lemma Stacked.step (hok : cell.failsOnTop act = true)
    (h : cell.step program act = some cell') : Stacked cell' := by
  cases step_cases h with
  | started op => exact hinv.started op
  | loaded call op hcall =>
    exact hinv.setPhase _ hcall (not_kept_of_phase hcall nofun fun _ _ _ => nofun) fun _ _ _ =>
      nofun
  | finished call time op base result hcall =>
    exact ⟨(hinv.setPhase (.returned result) hcall (not_kept_of_phase hcall nofun
      fun _ _ _ => nofun) fun _ _ _ => nofun).current⟩
  | retried call time op base hcall =>
    exact ⟨(hinv.setPhase .ready hcall (not_kept_of_phase hcall nofun
      fun _ _ _ => nofun) fun _ _ _ => nofun).current⟩
  | published call time op loaded next answer hcall hbase _ => exact hinv.published hcall hbase
  | stored call op base mine answer written hcall hmine => exact ⟨(hinv.stored hcall).current⟩
  | rolledBack call op base answer hcall => exact hinv.rolledBack hcall
  | covered call op base mine answer hcall hcurrent =>
    simp only [failsOnTop, hcall, decide_eq_true_eq] at hok
    exact absurd hok hcurrent

omit hinv

/-- **No failed call built the current value**, when writes only fail on top. -/
lemma current_kept_of_reaches
    (h : Reaches (step program) (fun cell act => cell.failsOnTop act = true)
      (initial start row) cell) :
    ∃ top, cell.published[cell.current]? = some top ∧
      program.replay start top.applied = some top.value ∧
        ∀ round ∈ top.applied, cell.Kept round := by
  obtain ⟨top, htop, -, hkept, -⟩ :=
    (h.invariant (P := Stacked) stacked_initial fun hinv hok hstep => hinv.step hok hstep).current
  have hexplained := h.invariant (P := Explained program start)
    (fun written hmem => by obtain rfl := mem_singleton.mp hmem; rfl) fun hinv _ hstep =>
      hinv.step hstep
  exact ⟨top, htop, hexplained top (mem_of_getElem? htop), hkept⟩

/-! ## Failures below: the pointer never goes back -/

/-- The last published value is in the cell, and ranks rise. -/
structure Linear (rank : S → ℕ) (cell : SharedCell S Op T E A R) : Prop where
  current : cell.current + 1 = cell.published.length
  rising : ∀ (i j : ℕ) (earlier later : Published S Op T),
    cell.published[i]? = some earlier → cell.published[j]? = some later →
    i < j → rank earlier.value < rank later.value

lemma linear_initial {rank : S → ℕ} :
    Linear rank (initial start row : SharedCell S Op T E A R) := by
  refine ⟨rfl, ?_⟩
  intro i j earlier later _ hlater hlt
  obtain ⟨hj, -⟩ := List.getElem?_eq_some_iff.mp hlater
  simp only [initial, length_singleton] at hj
  omega

variable {rank : S → ℕ}

variable {earlier later : Published S Op T}

lemma Linear.le_of_rank {i j : ℕ} (hinv : Linear rank cell)
    (hearlier : cell.published[i]? = some earlier) (hlater : cell.published[j]? = some later)
    (hrank : rank earlier.value ≤ rank later.value) : i ≤ j := by
  by_contra hlt
  have := hinv.rising j i later earlier hlater hearlier (by omega)
  omega

lemma Linear.published (hraises : program.Raises rank) (hinv : Linear rank cell) {time : T}
    {loaded : Published S Op T} {next : S} (hbase : cell.published[cell.current]? = some loaded)
    (hattempt : program.attempt op time cell.rounds loaded.value = .publish next answer) :
    Linear rank (cell.publish cell.current next applied call op answer) := by
  refine ⟨by simp [publish], ?_⟩
  intro i j earlier later hearlier hlater hlt
  rcases cases_concat hlater with hlater | ⟨rfl, rfl⟩
  · rcases cases_concat hearlier with hearlier | ⟨rfl, rfl⟩
    · exact hinv.rising i j earlier later hearlier hlater hlt
    · obtain ⟨hj, -⟩ := List.getElem?_eq_some_iff.mp hlater
      omega
  · rcases cases_concat hearlier with hearlier | ⟨rfl, -⟩
    · have hnext := hraises op time cell.rounds loaded.value next answer hattempt
      have hcurrent := hinv.current
      rcases Nat.lt_or_eq_of_le (show i ≤ cell.current by omega) with hi | rfl
      · exact (hinv.rising i cell.current earlier loaded hearlier hbase hi).trans hnext
      · obtain rfl := Option.some.inj (hbase.symm.trans hearlier)
        exact hnext
    · omega

lemma Linear.step (hraises : program.Raises rank) (hinv : Linear rank cell)
    (hok : cell.failsCovered act = true) (h : cell.step program act = some cell') :
    Linear rank cell' := by
  cases step_cases h with
  | published call time op loaded next answer _ hbase hattempt =>
    exact hinv.published hraises hbase hattempt
  | rolledBack call op base answer hcall =>
    simp [failsCovered, hcall] at hok
  | started | loaded | finished | retried | stored | covered => exact ⟨hinv.current, hinv.rising⟩

/-- **Ranks tell published values apart**, when writes only fail below. -/
lemma linear_of_reaches (hraises : program.Raises rank)
    (h : Reaches (step program) (fun cell act => cell.failsCovered act = true)
      (initial start row) cell) : Linear rank cell :=
  h.invariant (P := Linear rank) linear_initial fun hinv hok hstep => hinv.step hraises hok hstep

lemma Linear.eq_of_rank_eq (hinv : Linear rank cell)
    (hearlier : earlier ∈ cell.published) (hlater : later ∈ cell.published)
    (hrank : rank earlier.value = rank later.value) : earlier = later := by
  obtain ⟨i, hi⟩ := mem_iff_getElem?.mp hearlier
  obtain ⟨j, hj⟩ := mem_iff_getElem?.mp hlater
  have hij : i = j := le_antisymm (hinv.le_of_rank hi hj hrank.le) (hinv.le_of_rank hj hi hrank.ge)
  subst hij
  exact Option.some.inj (hi.symm.trans hj)

/-! ## Stored in order -/

/-- Whatever was published after the value in the row is still being written. -/
structure Behind (load : R → Option S) (cell : SharedCell S Op T E A R) : Prop where
  row : ∃ (place : ℕ) (written : Published S Op T), cell.published[place]? = some written ∧
    load cell.row = some written.value ∧
    ∀ i, place < i → i < cell.published.length →
      ∃ (call : ℕ) (op : Op) (base : ℕ) (answer : A),
        cell.calls[call]? = some (op, CallPhase.writing base i answer)

variable {load : R → Option S}

/-- Writing goes on when another call moves. -/
lemma Behind.setPhase (hinv : Behind load cell) {old : CallPhase E A}
    (hcall : cell.calls[call]? = some (op, old))
    (hold : ∀ base mine answer, old ≠ .writing base mine answer) :
    Behind load (cell.setPhase call op phase) := by
  obtain ⟨place, written, hplace, hload, hwriting⟩ := hinv.row
  refine ⟨⟨place, written, hplace, hload, ?_⟩⟩
  intro i hlt hlength
  obtain ⟨call', op', base, answer, hcall'⟩ := hwriting i hlt hlength
  have hne : call' ≠ call := by
    rintro rfl
    rw [hcall] at hcall'
    cases hcall'
    exact hold _ _ _ rfl
  exact ⟨call', op', base, answer, (getElem?_setPhase_of_ne hne).trans hcall'⟩

lemma Behind.started (hinv : Behind load cell) (op : Op) :
    Behind load { cell with calls := cell.calls ++ [(op, .ready)] } := by
  obtain ⟨place, written, hplace, hload, hwriting⟩ := hinv.row
  refine ⟨⟨place, written, hplace, hload, ?_⟩⟩
  intro i hlt hlength
  obtain ⟨call, op', base, answer, hcall⟩ := hwriting i hlt hlength
  exact ⟨call, op', base, answer, getElem?_concat hcall⟩

lemma Behind.published (hinv : Behind load cell) {next : S} {base : ℕ}
    (hcall : cell.calls[call]? = some (op, .loaded base)) :
    Behind load (cell.publish cell.current next applied call op answer) := by
  obtain ⟨place, written, hplace, hload, hwriting⟩ := hinv.row
  refine ⟨⟨place, written, getElem?_concat hplace, hload, ?_⟩⟩
  intro i hlt hlength
  simp only [publish, setPhase, length_append, length_singleton] at hlength
  rcases Nat.lt_or_eq_of_le (show i ≤ cell.published.length by omega) with hold | rfl
  · obtain ⟨call', op', base', answer', hcall'⟩ := hwriting i hlt hold
    have hne : call' ≠ call := by
      rintro rfl
      rw [hcall] at hcall'
      cases hcall'
    exact ⟨call', op', base', answer', (getElem?_setPhase_of_ne hne).trans hcall'⟩
  · exact ⟨call, op, _, answer, getElem?_setPhase_self hcall⟩

lemma Behind.stored (hstore : ∀ value row, load (program.store value row) = some value)
    (hlinear : Linear rank cell) (hinv : Behind load cell) {base mine : ℕ}
    {written : Published S Op T} (hcall : cell.calls[call]? = some (op, .writing base mine answer))
    (hmine : cell.published[mine]? = some written)
    (hnewer : ∀ value, load cell.row = some value → rank value < rank written.value) :
    Behind load { cell.setPhase call op (.returned (.ok answer)) with
      row := program.store written.value cell.row } := by
  obtain ⟨place, stored, hplace, hload, hwriting⟩ := hinv.row
  have hle : place ≤ mine := hlinear.le_of_rank hplace hmine (hnewer _ hload).le
  refine ⟨⟨mine, written, hmine, hstore _ _, ?_⟩⟩
  intro i hlt hlength
  obtain ⟨call', op', base', answer', hcall'⟩ := hwriting i (by omega) hlength
  have hne : call' ≠ call := by
    rintro rfl
    rw [hcall] at hcall'
    cases hcall'
    omega
  exact ⟨call', op', base', answer', (getElem?_setPhase_of_ne hne).trans hcall'⟩

/-- Failures are ruled out altogether. -/
lemma failsCovered_of_storesNewer (h : cell.storesNewer rank load act = true) :
    cell.failsCovered act = true := by
  cases act with
  | failed call => simp [storesNewer] at h
  | _ => rfl

lemma Behind.step (hstore : ∀ value row, load (program.store value row) = some value)
    (hlinear : Linear rank cell) (hinv : Behind load cell)
    (hok : cell.storesNewer rank load act = true) (h : cell.step program act = some cell') :
    Behind load cell' := by
  cases step_cases h with
  | started op => exact hinv.started op
  | loaded call op hcall => exact hinv.setPhase hcall fun _ _ _ => nofun
  | finished _ _ _ _ _ hcall | retried _ _ _ _ hcall =>
    exact ⟨(hinv.setPhase hcall fun _ _ _ => nofun).row⟩
  | published call time op loaded next answer hcall _ _ => exact hinv.published hcall
  | stored call op base mine answer written hcall hmine =>
    refine hinv.stored hstore hlinear hcall hmine ?_
    intro value hvalue
    simpa [storesNewer, hcall, hmine, hvalue] using hok
  | rolledBack | covered => simp [storesNewer] at hok

/-- **When every call has returned, the row has the current value**, if writes arrived in order. -/
lemma row_current_of_reaches (hraises : program.Raises rank)
    (hstore : ∀ value row, load (program.store value row) = some value)
    (hrow : load row = some start)
    (h : Reaches (step program) (fun cell act => cell.storesNewer rank load act = true)
      (initial start row) cell)
    (hreturned : ∀ entry ∈ cell.calls, ∃ result, entry.2 = .returned result) :
    ∃ top, cell.published[cell.current]? = some top ∧ load cell.row = some top.value := by
  obtain ⟨hlinear, hbehind⟩ : Linear rank cell ∧ Behind load cell := by
    refine h.invariant (P := fun cell => Linear rank cell ∧ Behind load cell)
      ⟨linear_initial, ⟨⟨0, ⟨start, []⟩, rfl, hrow, fun i hpos hlt =>
        absurd hlt (by simp only [initial, length_singleton]; omega)⟩⟩⟩ ?_
    rintro cell cell' act ⟨hlinear, hbehind⟩ hok hstep
    exact ⟨hlinear.step hraises (failsCovered_of_storesNewer hok) hstep,
      hbehind.step hstore hlinear hok hstep⟩
  obtain ⟨place, written, hplace, hload, hwriting⟩ := hbehind.row
  have hlast : place = cell.current := by
    by_contra hne
    obtain ⟨hlt, -⟩ := List.getElem?_eq_some_iff.mp hplace
    have hcurrent := hlinear.current
    obtain ⟨call, op, base, answer, hcall⟩ := hwriting cell.current (by omega) (by omega)
    obtain ⟨result, hresult⟩ := hreturned _ (mem_of_getElem? hcall)
    cases hresult
  subst hlast
  exact ⟨written, hplace, hload⟩

end SharedCell

end Mantissa
