import Mantissa.Replicated.Ranked
import Mantissa.Store.RegisterLevels

/-!
# Guarded registers

Two adapters check a value before they write it: it must have precedence over the value the replica
selects. The check looks at the writer's own register only. That it protects every replica is the
argument of `Store/RegisterLevels`: an entry has at least the precedence of every write its clock
counts, and compaction, which ranks by precedence, absorbs clocks into an entry above all it drops.

`GuardedAdapter.selected_mono` is the result, for any precedence: as long as no write is made at the
end of its counter, what a replica selects never goes down.
-/

namespace Mantissa

variable {V A : Type*} [LinearOrder V] [LinearOrder A]

/-- A register adapter with a check before writes: how values take precedence, when `upsert_reg`
writes, and when `compact_reg` compacts. -/
structure GuardedAdapter (V A : Type*) [LinearOrder V] [LinearOrder A] where
  precedence : V → V → Ordering
  accepts : MvReg V A → V → Bool
  compacts : MvReg V A → Bool
  trans : Std.TransCmp precedence
  lawful : Std.LawfulEqCmp precedence
  /-- What is written has precedence over all it replaces. -/
  le_of_accepts : ∀ {r v}, accepts r v = true → ∀ e ∈ r.entries, precedence e.value v ≠ .gt

namespace GuardedAdapter

attribute [instance] trans lawful

/-- The rank of an entry: its value, ordered by precedence. -/
@[ext] structure Rank (adapter : GuardedAdapter V A) where
  value : V

variable (adapter : GuardedAdapter V A)

instance instLinearOrderRank : LinearOrder adapter.Rank where
  le a b := adapter.precedence a.value b.value ≠ .gt
  lt a b := adapter.precedence a.value b.value = .lt
  le_refl a := by
    have hself : adapter.precedence a.value a.value = .eq := Std.ReflCmp.compare_self
    rw [hself]
    decide
  le_trans a b c hab hbc := by
    rw [ne_eq, Ordering.ne_gt_iff_isLE] at hab hbc ⊢
    exact Std.TransCmp.isLE_trans hab hbc
  lt_iff_le_not_ge a b := by
    have hswap : adapter.precedence b.value a.value = (adapter.precedence a.value b.value).swap :=
      Std.OrientedCmp.eq_swap
    rw [hswap]
    cases adapter.precedence a.value b.value <;> decide
  le_antisymm a b hab hba := by
    rw [ne_eq, Ordering.ne_gt_iff_isLE] at hab hba
    exact Rank.ext (Std.LawfulEqCmp.eq_of_compare (Std.OrientedCmp.isLE_antisymm hab hba))
  le_total a b := by
    have hswap : adapter.precedence b.value a.value = (adapter.precedence a.value b.value).swap :=
      Std.OrientedCmp.eq_swap
    rw [hswap]
    cases adapter.precedence a.value b.value <;> decide
  toDecidableLE a b := inferInstanceAs (Decidable (adapter.precedence a.value b.value ≠ .gt))

/-- The value a register selects: the one that takes precedence. -/
def selected (r : MvReg V A) : Option V := maxBy adapter.precedence r.snapshot.vals

lemma selected_eq_some_iff {r : MvReg V A} {best : V} : adapter.selected r = some best ↔
    best ∈ r.readValues ∧ ∀ v ∈ r.readValues, adapter.precedence v best ≠ .gt := by
  rw [selected, picksGreatest_maxBy _ r.pairwise_vals_snapshot]
  simp

/-! ## Runs -/

open RegisterCluster

/-- One step of the replicas. -/
def step (c : RegisterCluster V A) : RegisterAction V A → Option (RegisterCluster V A)
  | .write actor value =>
    some (if adapter.accepts (c.replica actor).reg value then c.writeAt actor value else c)
  | .merge actor source => c.history[source]?.map (c.mergeAt actor)
  | .compact actor maxValues =>
    some (if adapter.compacts (c.replica actor).reg then
      c.compactAt (fun e => (⟨e.value⟩ : adapter.Rank)) actor maxValues else c)

/-- No value is written at the end of its counter. -/
def CounterLeft (c : RegisterCluster V A) : RegisterAction V A → Prop
  | .write actor value => adapter.accepts (c.replica actor).reg value = true →
      (c.replica actor).reg.clock.get actor < u64Max
  | _ => True

variable {adapter} {c c' : RegisterCluster V A} {act : RegisterAction V A}

/-- The invariant of one step. -/
lemma rising_step (h : c.Rising fun v => (⟨v⟩ : adapter.Rank)) (hok : adapter.CounterLeft c act)
    (hstep : adapter.step c act = some c') : c'.Rising fun v => (⟨v⟩ : adapter.Rank) := by
  cases act with
  | write actor value =>
    cases hstep
    split_ifs with haccepts
    · exact h.writeAt ⟨hok haccepts, fun e he => adapter.le_of_accepts haccepts e he⟩
    · exact h
  | merge actor source =>
    obtain ⟨t, ht, rfl⟩ := Option.map_eq_some_iff.mp hstep
    exact h.mergeAt (List.mem_of_getElem? ht) actor
  | compact actor maxValues =>
    cases hstep
    split_ifs
    · exact h.compactAt (fun e f hle => hle) actor maxValues
    · exact h

lemma extends_step (hstep : adapter.step c act = some c') : c.Extends c' := by
  cases act with
  | write actor value =>
    cases hstep
    split_ifs
    · exact c.extends_writeAt actor value
    · exact .refl c
  | merge actor source =>
    obtain ⟨t, -, rfl⟩ := Option.map_eq_some_iff.mp hstep
    exact c.extends_mergeAt actor t
  | compact actor maxValues =>
    cases hstep
    split_ifs
    · exact c.extends_compactAt _ actor maxValues
    · exact .refl c

lemma rising_of_reaches (h : Reaches adapter.step adapter.CounterLeft c c')
    (hrising : c.Rising fun v => (⟨v⟩ : adapter.Rank)) : c'.Rising fun v => (⟨v⟩ : adapter.Rank) :=
  h.invariant hrising rising_step

/-- **What a replica selects never goes down.** -/
theorem selected_mono (h : Reaches adapter.step adapter.CounterLeft init c)
    (h' : Reaches adapter.step adapter.CounterLeft c c') {a : A} {v : V}
    (hv : adapter.selected (c.replica a).reg = some v) :
    ∃ v', adapter.selected (c'.replica a).reg = some v' ∧ adapter.precedence v v' ≠ .gt := by
  have hrising := rising_of_reaches h rising_init
  obtain ⟨e, he, rfl⟩ := MvReg.mem_readValues.mp (adapter.selected_eq_some_iff.mp hv).1
  obtain ⟨f, hf, hle⟩ := hrising.exists_ge_later (rising_of_reaches h' hrising)
    (h'.invariant (.refl c) fun h _ hstep => h.trans (extends_step hstep)) he
  have hmem : f.value ∈ (c'.replica a).reg.readValues := MvReg.mem_readValues.mpr ⟨f, hf, rfl⟩
  cases hselected : adapter.selected (c'.replica a).reg with
  | none =>
    have hnil := Workload.selectBest_eq_none.mp hselected
    exact absurd (MvReg.mem_vals_snapshot.mpr hmem) (hnil ▸ List.not_mem_nil)
  | some v' =>
    have hbest := (adapter.selected_eq_some_iff.mp hselected).2 f.value hmem
    exact ⟨v', rfl, le_trans (α := adapter.Rank) hle hbest⟩

/-- A value above what a register selects is above all it shows. -/
lemma ne_gt_of_above_selected {precedence : V → V → Ordering} [Std.TransCmp precedence]
    [Std.LawfulEqCmp precedence] {r : MvReg V A} {v : V}
    (h : ∀ current, maxBy precedence r.snapshot.vals = some current →
      precedence v current = .gt) : ∀ e ∈ r.entries, precedence e.value v ≠ .gt := by
  intro e he
  have hmem : e.value ∈ r.snapshot.vals :=
    MvReg.mem_vals_snapshot.mpr (MvReg.mem_readValues.mpr ⟨e, he, rfl⟩)
  cases hselected : maxBy precedence r.snapshot.vals with
  | none => exact absurd hmem (Workload.selectBest_eq_none.mp hselected ▸ List.not_mem_nil)
  | some current =>
    have hbest := (picksGreatest_maxBy _ r.pairwise_vals_snapshot current).mp hselected
    have hle := hbest.2 e.value hmem
    have hgt := h current hselected
    intro hcontra
    exact hle (Std.TransCmp.gt_trans hcontra hgt)

end GuardedAdapter

end Mantissa
