import Mantissa.Core.Run
import Mantissa.Store.Export

/-!
# Stores that replicate each other

Any number of stores, one per actor, none of which preserves its local tombstones. A store writes
and deletes locally and exports deltas, plain or filtered; an exported delta stays around, and any
store can be handed any part of it at any time, so deliveries are reordered, delayed and repeated
at will.

The stores as they were before each change are kept in `past`, newest first. No step reads them:
they are there to say what a row has held earlier in the run.

`Replica` is what every store of a run has at every moment: its own actor, the delta mode it was
built with, tables in order and a tree in step with them.
-/

namespace Mantissa

open List

/-- The part of a chunk with the selected keys. -/
def DeltaChunk.restrict {K R : Type*} (chunk : DeltaChunk K R) (keep : K → Bool) : DeltaChunk K R :=
  ⟨chunk.regs.filter fun row => keep row.1, chunk.tombs.filter fun row => keep row.1⟩

/-- The stores, what they were before, and every delta that was exported. -/
structure StoreCluster (K A R S : Type*) [LinearOrder K] where
  store : A → CrdtMstStore K A R S
  past : List (A → CrdtMstStore K A R S)
  sent : List (DeltaChunk K R)

/-- What happens in a cluster of stores. -/
inductive StoreAction (K A V : Type*)
  | upsert (actor : A) (k : K) (v : V)
  | remove (actor : A) (k : K) (now : ℕ)
  | send (actor : A) (want : List PageDigestRange)
  | sendFiltered (actor : A) (want : List PageDigestRange) (haveRows : List RowDigest)
      (version : ℕ)
  | deliver (actor : A) (source : ℕ) (keep : K → Bool) (now : ℕ)

namespace StoreCluster

open CrdtMstStore

variable {K A R V S : Type*} [LinearOrder K]

/-- Empty stores. -/
def init : StoreCluster K A R S := ⟨fun actor => build Disk.empty actor false, [], []⟩

/-- The stores now and before, newest first. -/
def stores (c : StoreCluster K A R S) : List (A → CrdtMstStore K A R S) := c.store :: c.past

/-- A delta is exported. -/
def emit (c : StoreCluster K A R S) (chunk : DeltaChunk K R) : StoreCluster K A R S :=
  { c with sent := c.sent ++ [chunk] }

/-- No store deletes. -/
def neverRemoves (_ : StoreCluster K A R S) : StoreAction K A V → Prop
  | .remove _ _ _ => False
  | _ => True

instance (c : StoreCluster K A R S) (act : StoreAction K A V) : Decidable (neverRemoves c act) :=
  match act with
  | .upsert _ _ _ => inferInstanceAs (Decidable True)
  | .remove _ _ _ => inferInstanceAs (Decidable False)
  | .send _ _ => inferInstanceAs (Decidable True)
  | .sendFiltered _ _ _ _ => inferInstanceAs (Decidable True)
  | .deliver _ _ _ _ => inferInstanceAs (Decidable True)

section Model

variable [LinearOrder A] [DecidableEq R]

/-- One store changes. -/
def setStore (c : StoreCluster K A R S) (actor : A) (s : CrdtMstStore K A R S) :
    StoreCluster K A R S :=
  { c with store := Function.update c.store actor s, past := c.stores }

/-- One step of the cluster. -/
def step (digest : Entry S → Bytes) (ad : RegAdapter K A R V S) (c : StoreCluster K A R S) :
    StoreAction K A V → Option (StoreCluster K A R S)
  | .upsert actor k v => some (c.setStore actor ((c.store actor).upsert ad k v))
  | .remove actor k now => some (c.setStore actor ((c.store actor).remove ad k now).1)
  | .send actor want => some (c.emit (exportPageRangesDelta ad (c.store actor).disk want))
  | .sendFiltered actor want haveRows version =>
    some (c.emit (exportPageRangesDeltaFiltered digest ad (c.store actor) want haveRows version))
  | .deliver actor source keep now => c.sent[source]?.map fun chunk =>
    c.setStore actor ((c.store actor).applyDeltaChunkUpdateMst ad (chunk.restrict keep) now)

end Model

/-! ## What a step does -/

/-- The change an action makes to the store it is about. -/
inductive StoreChange [DecidableEq R] (ad : RegAdapter K A R V S) (sent : List (DeltaChunk K R))
    (s : CrdtMstStore K A R S) : StoreAction K A V → CrdtMstStore K A R S → Prop
  | upsert (a : A) (k : K) (v : V) : StoreChange ad sent s (.upsert a k v) (s.upsert ad k v)
  | remove (a : A) (k : K) (now : ℕ) :
      StoreChange ad sent s (.remove a k now) (s.remove ad k now).1
  | deliver {chunk : DeltaChunk K R} (hsent : chunk ∈ sent) (a : A) (source : ℕ) (keep : K → Bool)
      (now : ℕ) : StoreChange ad sent s (.deliver a source keep now)
        (s.applyDeltaChunkUpdateMst ad (chunk.restrict keep) now)

/-- The rows of an export are rows of the tables. -/
def RowsFrom (d : Disk K R) (chunk : DeltaChunk K R) : Prop :=
  (∀ k reg, (k, reg) ∈ chunk.regs → d.values[k]? = some reg) ∧
    ∀ k record, (k, record) ∈ chunk.tombs → d.tombs[k]? = some record

variable [LinearOrder A] [DecidableEq R] {digest : Entry S → Bytes} {ad : RegAdapter K A R V S}
variable {c c' : StoreCluster K A R S}

/-- A step exports rows of one store, or changes one store. -/
lemma step_cases {act : StoreAction K A V} (h : c.step digest ad act = some c') :
    (∃ a chunk, RowsFrom (c.store a).disk chunk ∧ c' = c.emit chunk) ∨
      ∃ a s, StoreChange ad c.sent (c.store a) act s ∧ c' = c.setStore a s := by
  cases act with
  | upsert a k v => exact .inr ⟨a, _, .upsert a k v, (Option.some.inj h).symm⟩
  | remove a k now => exact .inr ⟨a, _, .remove a k now, (Option.some.inj h).symm⟩
  | send a want | sendFiltered a want =>
    exact .inl ⟨a, _, ⟨fun _ _ h => ((mem_exportRows ad _ _ want []).mp h).1,
      fun _ _ h => ((mem_exportRows ad _ _ want []).mp h).1⟩, (Option.some.inj h).symm⟩
  | deliver a source keep now =>
    obtain ⟨chunk, hchunk, rfl⟩ := Option.map_eq_some_iff.mp h
    exact .inr ⟨a, _, .deliver (mem_of_getElem? hchunk) a source keep now, rfl⟩

omit [DecidableEq R] in
lemma mem_stores_setStore {a : A} {s : CrdtMstStore K A R S} {stores : A → CrdtMstStore K A R S} :
    stores ∈ (c.setStore a s).stores ↔ stores = Function.update c.store a s ∨ stores ∈ c.stores :=
  mem_cons

/-! ## What every store keeps -/

/-- A store of a run. -/
structure Replica (ad : RegAdapter K A R V S) (a : A) (s : CrdtMstStore K A R S) : Prop where
  actor : s.actor = a
  mode : s.preserveLocalTombs = false
  version : s.rootSchemaVersion = defaultRootSchemaVersion
  inv : RepInv ad s

omit [LinearOrder A] in
lemma Replica.change {a : A} {sent : List (DeltaChunk K R)} {act : StoreAction K A V}
    {s s' : CrdtMstStore K A R S} (h : Replica ad a s) (hchange : StoreChange ad sent s act s') :
    Replica ad a s' := by
  cases hchange with
  | upsert b k v => exact ⟨h.actor, h.mode, h.version, h.inv.updateValue k _⟩
  | remove b k now =>
    have hkept : (s.remove ad k now).1.actor = s.actor ∧
        (s.remove ad k now).1.preserveLocalTombs = s.preserveLocalTombs ∧
        (s.remove ad k now).1.rootSchemaVersion = s.rootSchemaVersion := by
      simp only [remove]
      cases s.disk.tombs[k]? <;> exact ⟨rfl, rfl, rfl⟩
    exact ⟨hkept.1.trans h.actor, hkept.2.1.trans h.mode, hkept.2.2.trans h.version,
      h.inv.remove k now⟩
  | deliver hsent b source keep now =>
    obtain ⟨hmode, hversion⟩ := mode_applyDeltaChunkUpdateMst ad s (DeltaChunk.restrict _ keep) now
    refine ⟨?_, hmode.trans h.mode, hversion.trans h.version, h.inv.applyDeltaChunkUpdateMst _ now⟩
    rw [← h.actor]
    simp only [applyDeltaChunkUpdateMst]
    split_ifs <;> rfl

/-- **Every store of a run, now or before, is a replica in order.** -/
theorem replica_of_reaches {ok : StoreCluster K A R S → StoreAction K A V → Prop}
    (h : Reaches (step digest ad) ok init c) :
    ∀ stores ∈ c.stores, ∀ a, Replica ad a (stores a) := by
  refine h.invariant (P := fun c => ∀ stores ∈ c.stores, ∀ a, Replica ad a (stores a)) ?_ ?_
  · intro stores hmem a
    obtain rfl := mem_singleton.mp hmem
    exact ⟨rfl, rfl, rfl, repInv_build_empty a false⟩
  · intro x y act hx _ hstep
    rcases step_cases hstep with ⟨a, chunk, -, rfl⟩ | ⟨a, s, hchange, rfl⟩
    · exact hx
    · intro stores hmem b
      rcases mem_stores_setStore.mp hmem with rfl | hmem
      · by_cases hba : b = a
        · subst hba
          rw [Function.update_self]
          exact (hx x.store mem_cons_self b).change hchange
        · rw [Function.update_of_ne hba]
          exact hx x.store mem_cons_self b
      · exact hx stores hmem b

/-! ## What a row has held -/

/-- The registers a row has held, newest first. -/
def heldEver (a : A) (k : K) (stores : List (A → CrdtMstStore K A R S)) : List R :=
  stores.filterMap fun store => (store a).disk.values[k]?

/-- The registers a row has held since it was last absent, newest first. -/
def heldSince (a : A) (k : K) : List (A → CrdtMstStore K A R S) → List R
  | [] => []
  | store :: older =>
    match (store a).disk.values[k]? with
    | none => []
    | some reg => reg :: heldSince a k older

end StoreCluster

end Mantissa
