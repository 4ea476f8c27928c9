import Mantissa.Core.Run
import Mantissa.Workload.Selection

/-!
# A row, its history and a node that hears of it

Controllers change a row one step after the other, and every change is published as an event that
carries the whole row. `RowNode` is one node: its register for the row, and the history of the rows
written so far, newest first. An event is handled by writing its row into the register. Such a
write is a new local write, so it replaces whatever the node has stored, older or newer.

`InOrder` is the condition that is missing in the code: an event is only handled if its row is not
older than the one the node selects, a local change starts from the newest row, and a change gives a
greater row. Under it a node never goes back (`rowsKept`): its row only grows, a final row stays,
and once every event was delivered it is the newest row, in whichever order the events came.
-/

namespace Mantissa

open List

open Workload (selectBest)

/-- How the rows of one kind are compared and changed. Controllers leave a final row alone, and a
change that `raises` says so of gives a row with a greater key. -/
structure RowRules (Row Op K : Type) [LinearOrder K] where
  compareRows : Row → Row → Ordering
  apply : Op → Row → Row
  isFinal : Row → Bool
  raises : Op → Row → Bool
  key : Row → K
  compareRows_eq : ∀ left right, compareRows left right = compare (key left) (key right)
  key_lt_apply : ∀ op row, raises op row = true → key row < key (apply op row)

/-- A node that stores the row. `seen` lists the rows that were written on it. -/
structure RowNode (Row A : Type) [LinearOrder A] where
  register : MvReg Row A
  history : List Row
  seen : List Row

inductive RowAction (Op : Type)
  /-- Another node changes the newest row. -/
  | publish (op : Op)
  /-- This node changes the row it selects. -/
  | transition (op : Op)
  /-- An event reaches this node. -/
  | handle (index : ℕ)
  deriving DecidableEq

namespace RowNode

variable {Row Op K A : Type} [LinearOrder Row] [LinearOrder K] [LinearOrder A]

/-- A row was created somewhere, and the node has not heard of it. -/
def start (first : Row) : RowNode Row A := ⟨.new, [first], []⟩

variable (rules : RowRules Row Op K)

/-- The selector of a registry. -/
def selected (node : RowNode Row A) : Option Row :=
  selectBest (fun current value => rules.compareRows value current = .gt)
    node.register.snapshot.vals

/-- `upsert`: a local write of the node. -/
def upsert (actor : A) (node : RowNode Row A) (row : Row) : RowNode Row A :=
  { node with register := node.register.write actor row, seen := row :: node.seen }

/-- One step. Controllers leave final rows alone. -/
def step (actor : A) (node : RowNode Row A) : RowAction Op → Option (RowNode Row A)
  | .publish op =>
    match node.history with
    | [] => none
    | newest :: _ =>
      if rules.isFinal newest then none
      else some { node with history := rules.apply op newest :: node.history }
  | .transition op =>
    match node.selected rules with
    | none => none
    | some row =>
      if rules.isFinal row then none
      else
        some { node.upsert actor (rules.apply op row) with
          history := rules.apply op row :: node.history }
  | .handle index =>
    match node.history[index]? with
    | none => none
    | some event => some (node.upsert actor event)

/-- No event is handled late, local changes start from the newest row, and changes raise the row. -/
def InOrder (node : RowNode Row A) : RowAction Op → Prop
  | .publish op => ∀ newest ∈ node.history.head?, rules.raises op newest = true
  | .transition op => ∀ row ∈ node.selected rules,
      node.history.head? = some row ∧ rules.raises op row = true
  | .handle index => ∀ event ∈ node.history[index]?, ∀ row ∈ node.selected rules,
      rules.compareRows event row ≠ .lt

instance [DecidableEq Row] (node : RowNode Row A) (act : RowAction Op) :
    Decidable (node.InOrder rules act) :=
  match act with
  | .publish _ | .transition _ | .handle _ => Option.decidableForallMem _

variable {rules : RowRules Row Op K} {actor : A} {node next : RowNode Row A} {row : Row}

@[simp] lemma selected_upsert (node : RowNode Row A) (row : Row) :
    (node.upsert actor row).selected rules = some row := by
  simp only [selected, upsert, MvReg.vals_snapshot_write]
  rfl

lemma selected_start (first : Row) : (start first : RowNode Row A).selected rules = none := rfl

omit [LinearOrder Row] in
lemma compareRows_ne_lt {left right : Row} :
    rules.compareRows left right ≠ .lt ↔ rules.key right ≤ rules.key left := by
  rw [rules.compareRows_eq, ne_eq, compare_lt_iff_lt, not_lt]

/-- What a step does. -/
lemma step_cases {act : RowAction Op} (h : node.step rules actor act = some next) :
    (∃ op newest rest, act = .publish op ∧ node.history = newest :: rest ∧
      rules.isFinal newest = false ∧
      next = { node with history := rules.apply op newest :: node.history }) ∨
    (∃ op row, act = .transition op ∧ node.selected rules = some row ∧
      rules.isFinal row = false ∧ next = { node.upsert actor (rules.apply op row) with
        history := rules.apply op row :: node.history }) ∨
    ∃ index event, act = .handle index ∧ node.history[index]? = some event ∧
      next = node.upsert actor event := by
  cases act with
  | publish op =>
    simp only [step] at h
    split at h
    · cases h
    · rename_i newest rest hhistory
      split_ifs at h with hfinal
      exact .inl ⟨op, newest, rest, rfl, hhistory, by simpa using hfinal, (Option.some.inj h).symm⟩
  | transition op =>
    simp only [step] at h
    split at h
    · cases h
    · rename_i row hrow
      split_ifs at h with hfinal
      exact .inr (.inl ⟨op, row, rfl, hrow, by simpa using hfinal, (Option.some.inj h).symm⟩)
  | handle index =>
    simp only [step] at h
    split at h
    · cases h
    · rename_i event hevent
      exact .inr (.inr ⟨index, event, rfl, hevent, (Option.some.inj h).symm⟩)

/-! ## What holds along a run -/

/-- The history is one chain with at most its end final, and the node holds the newest row it has
seen. -/
structure Ordered (rules : RowRules Row Op K) (node : RowNode Row A) : Prop where
  chain : node.history.Pairwise fun newer older => rules.key older < rules.key newer
  active : ∀ row ∈ node.history.tail, rules.isFinal row = false
  held : ∀ row, node.selected rules = some row → row ∈ node.history
  newest : ∀ row, node.selected rules = some row → ∀ other ∈ node.seen,
    rules.key other ≤ rules.key row
  unseen : node.selected rules = none → node.seen = []

lemma ordered_start (first : Row) : (start first : RowNode Row A).Ordered rules where
  chain := pairwise_singleton _ _
  active := by simp [start]
  held := by simp [selected_start]
  newest := by simp [selected_start]
  unseen _ := rfl

variable (h : node.Ordered rules)

include h

/-- A row of the history is the newest one or not final. -/
lemma Ordered.eq_head_of_final (hrow : row ∈ node.history)
    (hfinal : rules.isFinal row = true) : node.history.head? = some row := by
  have hactive := h.active
  cases hhistory : node.history with
  | nil =>
    rw [hhistory] at hrow
    cases hrow
  | cons newest rest =>
    rw [hhistory] at hrow hactive
    rcases mem_cons.mp hrow with rfl | hold
    · rfl
    · rw [hactive row hold] at hfinal
      cases hfinal

variable {newest : Row}

lemma Ordered.key_le_head (hnewest : node.history.head? = some newest) (hrow : row ∈ node.history) :
    rules.key row ≤ rules.key newest ∧ (rules.key row = rules.key newest → row = newest) := by
  have hchain := h.chain
  cases hhistory : node.history with
  | nil =>
    rw [hhistory] at hrow
    cases hrow
  | cons first rest =>
    rw [hhistory] at hchain hnewest hrow
    obtain rfl : first = newest := Option.some.inj hnewest
    rcases mem_cons.mp hrow with rfl | hold
    · exact ⟨le_rfl, fun _ => rfl⟩
    · have hlt := (pairwise_cons.mp hchain).1 row hold
      exact ⟨hlt.le, fun heq => absurd heq hlt.ne⟩

/-- The history grows by a change of its newest row. -/
lemma Ordered.chain_cons {rest : List Row} (op : Op)
    (hhistory : node.history = newest :: rest) (hraises : rules.raises op newest = true) :
    (rules.apply op newest :: node.history).Pairwise
      fun newer older => rules.key older < rules.key newer := by
  refine pairwise_cons.mpr ⟨?_, h.chain⟩
  intro row hrow
  have hhead : node.history.head? = some newest := by rw [hhistory, head?_cons]
  exact (h.key_le_head hhead hrow).1.trans_lt (rules.key_lt_apply op newest hraises)

/-- The rows before a new one are not final if the last of them is not. -/
lemma Ordered.active_cons {rest : List Row}
    (hhistory : node.history = newest :: rest) (hfinal : rules.isFinal newest = false) :
    ∀ row ∈ node.history, rules.isFinal row = false := by
  intro row hrow
  rw [hhistory] at hrow
  rcases mem_cons.mp hrow with rfl | hold
  · exact hfinal
  · exact h.active row (by rwa [hhistory])

theorem Ordered.step {act : RowAction Op} (hok : node.InOrder rules act)
    (hstep : node.step rules actor act = some next) : next.Ordered rules := by
  rcases step_cases hstep with ⟨op, newest, rest, rfl, hhistory, hfinal, rfl⟩ |
    ⟨op, row, rfl, hrow, hfinal, rfl⟩ | ⟨index, event, rfl, hevent, rfl⟩
  · have hhead : node.history.head? = some newest := by rw [hhistory, head?_cons]
    refine ⟨h.chain_cons op hhistory (hok newest hhead), h.active_cons hhistory hfinal, ?_,
      h.newest, h.unseen⟩
    intro row hrow
    exact mem_cons_of_mem _ (h.held row hrow)
  · obtain ⟨hhead, hraises⟩ := hok row hrow
    obtain ⟨rest, hhistory⟩ : ∃ rest, node.history = row :: rest := by
      cases hcase : node.history with
      | nil =>
        rw [hcase] at hhead
        cases hhead
      | cons first rest =>
        rw [hcase] at hhead
        exact ⟨rest, by rw [Option.some.inj hhead]⟩
    have hselected : RowNode.selected rules { node.upsert actor (rules.apply op row) with
        history := rules.apply op row :: node.history } = some (rules.apply op row) :=
      selected_upsert node _
    refine ⟨h.chain_cons op hhistory hraises, h.active_cons hhistory hfinal, ?_, ?_, ?_⟩
    · intro other hother
      rw [hselected] at hother
      rw [← Option.some.inj hother]
      exact mem_cons_self
    · intro other hother seen hseen
      rw [hselected] at hother
      rw [← Option.some.inj hother]
      rcases mem_cons.mp hseen with rfl | hold
      · exact le_rfl
      · exact (h.newest row hrow seen hold).trans (rules.key_lt_apply op row hraises).le
    · intro hnone
      rw [hselected] at hnone
      cases hnone
  · refine ⟨h.chain, h.active, ?_, ?_, ?_⟩
    · intro row hrow
      rw [selected_upsert] at hrow
      rw [← Option.some.inj hrow]
      exact mem_of_getElem? hevent
    · intro row hrow seen hseen
      rw [selected_upsert] at hrow
      rw [← Option.some.inj hrow]
      rcases mem_cons.mp hseen with rfl | hold
      · exact le_rfl
      · cases hselected : node.selected rules with
        | none =>
          rw [h.unseen hselected] at hold
          cases hold
        | some current =>
          have hle := compareRows_ne_lt.mp (hok event hevent current hselected)
          exact (h.newest current hselected seen hold).trans hle
    · intro hnone
      rw [selected_upsert] at hnone
      cases hnone

omit h

lemma ordered_of_reaches {first : Row} (h : Reaches (step rules actor) (InOrder rules)
    (start first) node) : node.Ordered rules :=
  h.invariant (P := Ordered rules) (ordered_start first) fun hordered hok hstep =>
    hordered.step hok hstep

/-- What a node selected is in the history, and what it selects later is not older. -/
lemma selected_le {t : RowNode Row A} (hs : node.Ordered rules)
    (h : Reaches (step rules actor) (InOrder rules) node t)
    (hrow : node.selected rules = some row) :
    row ∈ t.history ∧ ∃ later, t.selected rules = some later ∧ rules.key row ≤ rules.key later := by
  have hall : t.Ordered rules ∧ row ∈ t.history ∧
      ∃ later, t.selected rules = some later ∧ rules.key row ≤ rules.key later := by
    refine h.invariant (P := fun t => t.Ordered rules ∧ row ∈ t.history ∧
      ∃ later, t.selected rules = some later ∧ rules.key row ≤ rules.key later)
      ⟨hs, hs.held row hrow, row, hrow, le_rfl⟩ ?_
    intro x y act hx hok hstep
    obtain ⟨hordered, hmem, later, hlater, hle⟩ := hx
    refine ⟨hordered.step hok hstep, ?_⟩
    rcases step_cases hstep with ⟨op, newest, rest, rfl, -, -, rfl⟩ |
      ⟨op, current, rfl, hcurrent, -, rfl⟩ | ⟨index, event, rfl, hevent, rfl⟩
    · exact ⟨mem_cons_of_mem _ hmem, later, hlater, hle⟩
    · obtain rfl : current = later := Option.some.inj (hcurrent.symm.trans hlater)
      refine ⟨mem_cons_of_mem _ hmem, rules.apply op current, selected_upsert x _, ?_⟩
      exact hle.trans (rules.key_lt_apply op current (hok current hcurrent).2).le
    · refine ⟨hmem, event, selected_upsert x event, ?_⟩
      exact hle.trans (compareRows_ne_lt.mp (hok event hevent later hlater))
  exact hall.2

/-- A node never goes back: its row does not get smaller, a final row stays, and once everything
published was delivered it is the newest row. -/
structure Kept (rules : RowRules Row Op K) (node later : RowNode Row A) : Prop where
  grows : ∀ row, node.selected rules = some row → ∃ row', later.selected rules = some row' ∧
    rules.compareRows row' row ≠ .lt ∧ rules.key row ≤ rules.key row' ∧
    (rules.isFinal row = true → row' = row)
  delivered : (∀ row ∈ later.history, row ∈ later.seen) →
    later.selected rules = later.history.head?

/-- **Events that are not late never bring back an older row.** -/
theorem rowsKept {first : Row} {later : RowNode Row A}
    (h : Reaches (step rules actor) (InOrder rules) (start first) node)
    (h' : Reaches (step rules actor) (InOrder rules) node later) : Kept rules node later := by
  have hnode := ordered_of_reaches h
  have hlater := ordered_of_reaches (h.trans h')
  refine ⟨?_, ?_⟩
  · intro row hrow
    obtain ⟨hmem, row', hrow', hle⟩ := selected_le hnode h' hrow
    refine ⟨row', hrow', compareRows_ne_lt.mpr hle, hle, ?_⟩
    intro hfinal
    have hhead := hlater.eq_head_of_final hmem hfinal
    obtain ⟨hge, heq⟩ := hlater.key_le_head hhead (hlater.held row' hrow')
    exact heq (le_antisymm hge hle)
  · intro hall
    cases hhistory : later.history with
    | nil =>
      cases hselected : later.selected rules with
      | none => rfl
      | some row =>
        have hmem := hlater.held row hselected
        rw [hhistory] at hmem
        cases hmem
    | cons newest rest =>
      have hseen := hall newest (by rw [hhistory]; exact mem_cons_self)
      have hhead : later.history.head? = some newest := by rw [hhistory, head?_cons]
      cases hselected : later.selected rules with
      | none =>
        rw [hlater.unseen hselected] at hseen
        cases hseen
      | some row =>
        obtain ⟨hle, heq⟩ := hlater.key_le_head hhead (hlater.held row hselected)
        rw [head?_cons, heq (le_antisymm hle (hlater.newest row hselected newest hseen))]

end RowNode

end Mantissa
