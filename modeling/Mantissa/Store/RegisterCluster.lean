import Mantissa.Core.Run
import Mantissa.Store.Compaction

/-!
# Replicas of one register

Any number of replicas, one per actor, hold a copy of one register each. A replica writes under its
own actor, merges any state any replica is or ever was in — which is delivery in any order, late and
repeated included — and compacts in the background.

Two things are recorded for the statements and read by no step: every write, with the writes its
author had received when it made it, and for every state the writes it has received directly or
through others. Causality is then stated without clocks: a write is before another when the
author of the second had received it.

`Causal` collects what every run keeps, compaction included, about clocks and writes: no state is
ahead of an actor's own replica at that actor's counter, and a clock that counts a write's own
counter lies above the whole write.
-/

namespace Mantissa

open MvReg VectorClock List

/-- A write that was made: by whom, what it put, and which writes its author had received. -/
structure WriteRecord (V A : Type*) [LinearOrder A] where
  actor : A
  entry : MvRegEntry V A
  past : Finset ℕ

/-- A replica's register, with the writes it has received. -/
structure ReplicaState (V A : Type*) [LinearOrder A] where
  reg : MvReg V A
  received : Finset ℕ

/-- All writes in the order they were made, the replicas, and every state any of them was in. -/
structure RegisterCluster (V A : Type*) [LinearOrder A] where
  writes : List (WriteRecord V A)
  replica : A → ReplicaState V A
  history : List (ReplicaState V A)

/-- What replicas do; `merge` names the state it receives by its position in the history. -/
inductive RegisterAction (V A : Type*)
  | write (actor : A) (value : V)
  | merge (actor : A) (source : ℕ)
  | compact (actor : A) (maxValues : ℕ)

namespace RegisterCluster

variable {V A R : Type*} [LinearOrder V] [LinearOrder A] [LinearOrder R]

section Model

/-- Empty registers everywhere. -/
def init : RegisterCluster V A := ⟨[], fun _ => ⟨.new, ∅⟩, [⟨.new, ∅⟩]⟩

variable (c : RegisterCluster V A) (actor : A)

/-- One replica moves to a new state. -/
def setReplica (s : ReplicaState V A) : RegisterCluster V A :=
  { c with replica := Function.update c.replica actor s, history := c.history ++ [s] }

/-- The write `actor` makes next. -/
def nextWrite (value : V) : WriteRecord V A :=
  ⟨actor, ⟨(c.replica actor).reg.clock.increment actor, value⟩, (c.replica actor).received⟩

/-- A replica writes under its own actor. -/
def writeAt (value : V) : RegisterCluster V A :=
  { c.setReplica actor ⟨(c.replica actor).reg.write actor value,
      insert c.writes.length (c.replica actor).received⟩ with
    writes := c.writes ++ [c.nextWrite actor value] }

/-- A replica merges a state it was sent. -/
def mergeAt (t : ReplicaState V A) : RegisterCluster V A :=
  c.setReplica actor ⟨(c.replica actor).reg.merge t.reg, (c.replica actor).received ∪ t.received⟩

/-- A replica compacts its register. -/
def compactAt (rank : MvRegEntry V A → R) (actor : A) (maxValues : ℕ) : RegisterCluster V A :=
  c.setReplica actor ⟨((c.replica actor).reg.compactWith maxValues rank).1,
    (c.replica actor).received⟩

/-- One step of the cluster. -/
def step (rank : MvRegEntry V A → R) (c : RegisterCluster V A) :
    RegisterAction V A → Option (RegisterCluster V A)
  | .write actor value => some (c.writeAt actor value)
  | .merge actor source => c.history[source]?.map (c.mergeAt actor)
  | .compact actor maxValues => some (c.compactAt rank actor maxValues)

end Model

section Frames

omit [LinearOrder V]

@[simp] lemma mem_history_setReplica {c : RegisterCluster V A} {a : A} {s t : ReplicaState V A} :
    t ∈ (c.setReplica a s).history ↔ t ∈ c.history ∨ t = s := by
  simp [setReplica]

variable (c : RegisterCluster V A)

@[simp] lemma replica_setReplica (a b : A) (s : ReplicaState V A) :
    (c.setReplica a s).replica b = if b = a then s else c.replica b := by
  simp [setReplica, Function.update_apply]

@[simp] lemma mem_history_writeAt {c : RegisterCluster V A} {a : A} {v : V} {t : ReplicaState V A} :
    t ∈ (c.writeAt a v).history ↔ t ∈ c.history ∨ t = ⟨(c.replica a).reg.write a v,
      insert c.writes.length (c.replica a).received⟩ :=
  mem_history_setReplica (a := a)

@[simp] lemma replica_writeAt (a b : A) (v : V) :
    (c.writeAt a v).replica b = if b = a then ⟨(c.replica a).reg.write a v,
      insert c.writes.length (c.replica a).received⟩ else c.replica b :=
  replica_setReplica c a b _

@[simp] lemma writes_writeAt (a : A) (v : V) :
    (c.writeAt a v).writes = c.writes ++ [c.nextWrite a v] := rfl

/-! ## What every run keeps -/

/-- The clock counts the write, by its author's counter. -/
def Covers (clock : VectorClock A) (w : WriteRecord V A) : Prop :=
  w.entry.clock.get w.actor ≤ clock.get w.actor

lemma Covers.of_le {clock : VectorClock A} {w : WriteRecord V A} (h : w.entry.clock ≤ clock) :
    Covers clock w := h w.actor

/-- A clock that counts a write lies above it. -/
def Closed (clock : VectorClock A) : Prop :=
  ∀ w ∈ c.writes, Covers clock w → w.entry.clock ≤ clock

/-- The causal bookkeeping of a run. -/
structure Causal (c : RegisterCluster V A) : Prop where
  /-- Present states are among the states there were. -/
  replica_mem : ∀ a, c.replica a ∈ c.history
  /-- Nobody is ahead of an actor's own replica at that actor's counter. -/
  fresh : ∀ s ∈ c.history, ∀ a, s.reg.clock.get a ≤ (c.replica a).reg.clock.get a
  /-- Authors keep what they wrote. -/
  authored : ∀ w ∈ c.writes, 0 < w.entry.clock.get w.actor ∧
    w.entry.clock ≤ (c.replica w.actor).reg.clock
  /-- Every visible clock is closed. -/
  closed : ∀ s ∈ c.history, ∀ e ∈ s.reg.entries, c.Closed e.clock
  /-- A later write is never below an earlier one. -/
  ordered : c.writes.Pairwise fun w w' => ¬ w'.entry.clock ≤ w.entry.clock

variable {c : RegisterCluster V A}

lemma causal_init : (init : RegisterCluster V A).Causal where
  replica_mem a := mem_singleton_self _
  fresh s hs a := by
    obtain rfl := mem_singleton.mp hs
    exact le_rfl
  authored w hw := by cases hw
  closed s hs e he := by
    obtain rfl := mem_singleton.mp hs
    cases he
  ordered := List.Pairwise.nil

/-- The merged clock of closed entries is closed: it takes each counter from one of them. -/
lemma closed_joinClocks (h : c.Causal) {entries : List (MvRegEntry V A)}
    (hclosed : ∀ e ∈ entries, c.Closed e.clock) : c.Closed (joinClocks entries) := by
  intro w hw hcov
  obtain ⟨e, he, heq⟩ := exists_get_joinClocks ((h.authored w hw).1.trans_le hcov)
  exact (hclosed e he w hw (hcov.trans_eq heq.symm)).trans (le_joinClocks he)

lemma Causal.closed_clock (h : c.Causal) {s : ReplicaState V A} (hs : s ∈ c.history) :
    c.Closed s.reg.clock :=
  closed_joinClocks h (h.closed s hs)

/-- A replica may move to any state that forgets no clock, is ahead of nobody and is closed. -/
lemma Causal.setReplica (h : c.Causal) {a : A} {s : ReplicaState V A}
    (hmono : (c.replica a).reg.clock ≤ s.reg.clock)
    (hfresh : ∀ b, s.reg.clock.get b ≤ (c.replica b).reg.clock.get b)
    (hclosed : ∀ e ∈ s.reg.entries, c.Closed e.clock) : (c.setReplica a s).Causal where
  replica_mem b := by
    rw [replica_setReplica, mem_history_setReplica]
    split_ifs
    · exact .inr rfl
    · exact .inl (h.replica_mem b)
  fresh t ht b := by
    rw [replica_setReplica]
    have hb : t.reg.clock.get b ≤ (c.replica b).reg.clock.get b := by
      rcases mem_history_setReplica.mp ht with ht | rfl
      · exact h.fresh t ht b
      · exact hfresh b
    split_ifs with hba
    · exact hb.trans (hba ▸ hmono b)
    · exact hb
  authored w hw := by
    obtain ⟨hpos, hle⟩ := h.authored w hw
    refine ⟨hpos, ?_⟩
    rw [replica_setReplica]
    split_ifs with hwa
    · exact hle.trans (hwa ▸ hmono)
    · exact hle
  closed t ht e he := by
    rcases mem_history_setReplica.mp ht with ht | rfl
    · exact h.closed t ht e he
    · exact hclosed e he
  ordered := h.ordered

lemma Causal.mergeAt (h : c.Causal) {t : ReplicaState V A} (ht : t ∈ c.history) (a : A) :
    (c.mergeAt a t).Causal := by
  refine h.setReplica ?_ ?_ ?_
  · rw [clock_merge]
    exact le_sup_left
  · intro b
    rw [clock_merge, ← merge_eq_sup, get_merge]
    exact max_le (h.fresh _ (h.replica_mem a) b) (h.fresh t ht b)
  · intro e he
    rcases entrySet_merge_subset _ _ he with he | he
    · exact h.closed _ (h.replica_mem a) e he
    · exact h.closed t ht e he

end Frames

variable {c : RegisterCluster V A}

lemma Causal.compactAt (h : c.Causal) (rank : MvRegEntry V A → R) (a : A) (maxValues : ℕ) :
    (c.compactAt rank a maxValues).Causal := by
  refine h.setReplica ?_ ?_ ?_
  · rw [clock_compactWith]
  · intro b
    rw [clock_compactWith]
    exact h.fresh _ (h.replica_mem a) b
  · intro e he
    have hclosed := h.closed _ (h.replica_mem a)
    rcases mem_compactWith he with he | ⟨top, -, absorbed, habs, -, -, rfl⟩
    · exact hclosed e he
    · exact closed_joinClocks h fun f hf => hclosed f (habs f hf)

/-! ## One more write -/

section Write

variable {a : A} {v : V}

omit [LinearOrder V]

lemma clock_nextWrite (c : RegisterCluster V A) (a : A) (v : V) :
    (c.nextWrite a v).entry.clock = (c.replica a).reg.clock.increment a := rfl

/-- A clock not ahead of the author has not seen the counter of the author's next write. -/
lemma not_covers_nextWrite (hlt : (c.replica a).reg.clock.get a < u64Max)
    {clock : VectorClock A} (hclock : clock.get a ≤ (c.replica a).reg.clock.get a) :
    ¬ Covers clock (c.nextWrite a v) := by
  intro hcov
  have hget : (c.nextWrite a v).entry.clock.get a = (c.replica a).reg.clock.get a + 1 := by
    rw [clock_nextWrite, get_increment_of_lt hlt, if_pos rfl]
  have : (c.nextWrite a v).entry.clock.get a ≤ clock.get a := hcov
  omega

/-- What the next write lies above is what its author's register lies above. -/
lemma Causal.covers_nextWrite_iff (h : c.Causal) {w : WriteRecord V A} (hw : w ∈ c.writes) :
    Covers (c.nextWrite a v).entry.clock w ↔ w.entry.clock ≤ (c.replica a).reg.clock := by
  constructor
  · intro hcov
    by_cases hwa : w.actor = a
    · exact hwa ▸ (h.authored w hw).2
    · refine h.closed_clock (h.replica_mem a) w hw ?_
      have hget : (c.nextWrite a v).entry.clock.get w.actor =
          (c.replica a).reg.clock.get w.actor := by
        rw [clock_nextWrite, get_increment, if_neg (Ne.symm hwa)]
      exact hcov.trans_eq hget
  · exact fun hle => Covers.of_le (hle.trans (le_increment _ _))

lemma Causal.writeAt (h : c.Causal) (hlt : (c.replica a).reg.clock.get a < u64Max) :
    (c.writeAt a v).Causal where
  replica_mem b := by
    rw [replica_writeAt, mem_history_writeAt]
    split_ifs
    · exact .inr rfl
    · exact .inl (h.replica_mem b)
  fresh t ht b := by
    rw [replica_writeAt]
    rcases mem_history_writeAt.mp ht with ht | rfl
    · have hb := h.fresh t ht b
      split_ifs with hba
      · subst hba
        rw [clock_write]
        exact hb.trans (le_increment _ _ b)
      · exact hb
    · split_ifs with hba
      · exact le_rfl
      · rw [clock_write, get_increment, if_neg (Ne.symm hba)]
        exact h.fresh _ (h.replica_mem a) b
  authored w hw := by
    rw [replica_writeAt]
    rcases mem_append.mp hw with hw | hw
    · obtain ⟨hpos, hle⟩ := h.authored w hw
      refine ⟨hpos, ?_⟩
      split_ifs with hwa
      · rw [clock_write]
        exact (hwa ▸ hle).trans (le_increment _ _)
      · exact hle
    · obtain rfl := mem_singleton.mp hw
      constructor
      · change 0 < (c.nextWrite a v).entry.clock.get a
        rw [clock_nextWrite, get_increment_of_lt hlt, if_pos rfl]
        exact Nat.succ_pos _
      · rw [if_pos (show (c.nextWrite a v).actor = a from rfl), clock_write]
        exact le_rfl
  closed t ht e he w hw hcov := by
    rcases mem_append.mp hw with hw | hw
    · rcases mem_history_writeAt.mp ht with ht | rfl
      · exact h.closed t ht e he w hw hcov
      · rw [entries_write, mem_singleton] at he
        subst he
        exact ((h.covers_nextWrite_iff (v := v) hw).mp hcov).trans (le_increment _ _)
    · obtain rfl := mem_singleton.mp hw
      rcases mem_history_writeAt.mp ht with ht | rfl
      · -- the counter of the new write is ahead of every state there was
        exact absurd hcov (not_covers_nextWrite hlt ((le_clock he a).trans (h.fresh t ht a)))
      · rw [entries_write, mem_singleton] at he
        subst he
        exact le_rfl
  ordered := by
    refine pairwise_append.mpr ⟨h.ordered, pairwise_singleton _ _, ?_⟩
    intro w hw w' hw'
    obtain rfl := mem_singleton.mp hw'
    refine fun hle => not_covers_nextWrite hlt ?_ (Covers.of_le hle)
    exact ((h.authored w hw).2 a).trans (h.fresh _ (h.replica_mem w.actor) a)

end Write

/-! ## Every run -/

/-- What a step does, action by action. -/
lemma step_cases {rank : MvRegEntry V A → R} {c c' : RegisterCluster V A}
    {act : RegisterAction V A} (h : c.step rank act = some c') :
    (∃ a v, act = .write a v ∧ c' = c.writeAt a v) ∨
    (∃ a i t, act = .merge a i ∧ t ∈ c.history ∧ c' = c.mergeAt a t) ∨
    (∃ a n, act = .compact a n ∧ c' = c.compactAt rank a n) := by
  cases act with
  | write a v => exact .inl ⟨a, v, rfl, (Option.some.inj h).symm⟩
  | merge a i =>
    obtain ⟨t, ht, rfl⟩ := Option.map_eq_some_iff.mp h
    exact .inr (.inl ⟨a, i, t, rfl, mem_of_getElem? ht, rfl⟩)
  | compact a n => exact .inr (.inr ⟨a, n, rfl, (Option.some.inj h).symm⟩)

end RegisterCluster

end Mantissa
