import Mantissa.Store.OrderIndependence
import Mantissa.Store.StoreCluster

/-!
# Delete, recreate, redeliver

A write dominates what its register has seen, because its clock is the register's clock with one
count more. `remove` drops the register and the clock with it, so the first write after a delete
counts from nothing again: the register a peer got before the delete is then *ahead* of the new
write, and when it comes back it replaces the new value (`recreated_value_lost`).

How far the dominance reaches is `recreated_value_survives`. The value stays visible just when no
redelivered entry is above the new clock, unless the redelivered register shows the same value
itself. As long as the row is not dropped its clock only grows (`clock_le_of_change`), so against
anything the row has held since it was last absent the new value is safe.
-/

namespace Mantissa

open List

variable {V A : Type*} [LinearOrder V] [LinearOrder A]

/-! ## One register merged into a fresh write -/

namespace MvReg

omit [LinearOrder V] in
/-- What a merge leaves of a write: it is dropped by a later entry only, and then shown only if the
other register shows the same value. -/
lemma mem_readValues_write_merge (reg incoming : MvReg V A) (actor : A) (v : V) :
    v ∈ ((reg.write actor v).merge incoming).readValues ↔
      (∀ e ∈ incoming.entries, ¬ reg.clock.increment actor < e.clock) ∨
        v ∈ incoming.readValues := by
  simp only [mem_readValues, mem_merge_iff, entries_write, mem_singleton, forall_eq]
  constructor
  · rintro ⟨e, ⟨rfl, hkept⟩ | ⟨he, -⟩, hv⟩
    · exact .inl hkept
    · exact .inr ⟨e, he, hv⟩
  · rintro (hkept | ⟨e, he, rfl⟩)
    · exact ⟨_, .inl ⟨rfl, hkept⟩, rfl⟩
    · by_cases hkept : ∀ f ∈ incoming.entries, ¬ reg.clock.increment actor < f.clock
      · exact ⟨_, .inl ⟨rfl, hkept⟩, rfl⟩
      · -- the entry that drops the write rules out that the write covers `e`
        push Not at hkept
        obtain ⟨f, hf, hlt⟩ := hkept
        have hnot : ¬ e.clock ≤ reg.clock.increment actor :=
          fun hle => incoming.normalized.not_lt he hf (hle.trans_lt hlt)
        exact ⟨e, .inr ⟨he, hnot⟩, rfl⟩

end MvReg

namespace StoreCluster

open CrdtMstStore

variable {encodeStoreActor : A → Bytes}
variable {compact : MvReg V A → ℕ → Except String (Option (MvReg V A))}
variable {digest : Entry (MvRegSnapshot V) → Bytes}

/-! ## The clock of a row -/

lemma values_remove {K A R V S : Type*} [LinearOrder K] (ad : RegAdapter K A R V S)
    (s : CrdtMstStore K A R S) (k a : K) (now : ℕ) :
    (s.remove ad k now).1.disk.values[a]? = if k = a then none else s.disk.values[a]? := by
  have herased := BTreeMap.getElem?_erase_eq s.disk.values k a
  simp only [remove]
  cases s.disk.tombs[k]? with
  | none => exact herased
  | some record =>
    by_cases hvalue : s.disk.values[k]?.isSome = true
    · rw [if_pos hvalue]
      exact herased
    · -- there was no value row to begin with
      split_ifs with hka
      · subst hka
        exact Option.not_isSome_iff_eq_none.mp hvalue
      · rfl

/-- Merging rows into a row does not lower its clock. -/
lemma clock_le_foldl_mergeReg (kept : Bool) {reg' : MvReg V A} :
    ∀ (rows : List (MvReg V A)) (slot : Slot (MvReg V A)) (reg : MvReg V A), slot.value = some reg →
      (rows.foldl (Slot.mergeReg (mergingAdapter encodeStoreActor compact) kept) slot).value =
        some reg' → reg.clock ≤ reg'.clock := by
  intro rows
  induction rows with
  | nil =>
    intro slot reg h h'
    exact (congrArg MvReg.clock (Option.some.inj (h.symm.trans h'))).le
  | cons row rows ih =>
    intro slot reg h h'
    rw [foldl_cons, Slot.mergeReg] at h'
    split_ifs at h'
    · exact ih slot reg h h'
    · have hmerged : reg.clock ≤ (reg.merge row).clock := by
        rw [MvReg.clock_merge]
        exact le_sup_left
      rw [h] at h'
      exact hmerged.trans (ih _ (reg.merge row) rfl h')

/-- Tombstone rows leave a value alone or drop it. -/
lemma value_foldl_mergeTomb {R : Type*} (frontier : Bytes → ℕ) (now : ℕ) :
    ∀ (rows : List TombstoneRecord) (slot : Slot R),
      (rows.foldl (Slot.mergeTomb frontier now) slot).value = slot.value ∨
        (rows.foldl (Slot.mergeTomb frontier now) slot).value = none := by
  intro rows
  induction rows with
  | nil => exact fun slot => .inl rfl
  | cons row rows ih =>
    intro slot
    rw [foldl_cons]
    rcases ih (slot.mergeTomb frontier now row) with h | h
    · rw [h, Slot.mergeTomb]
      split_ifs
      · exact .inl rfl
      · exact .inr rfl
    · exact .inr h

/-- **A row that is not dropped only grows.** -/
theorem clock_le_of_change {sent : List (DeltaChunk UuidKey (MvReg V A))}
    {act : StoreAction UuidKey A V} {s s' : CrdtMstStore UuidKey A (MvReg V A) (MvRegSnapshot V)}
    (hchange : StoreChange (mergingAdapter encodeStoreActor compact) sent s act s') {k : UuidKey}
    {reg reg' : MvReg V A} (h : s.disk.values[k]? = some reg)
    (h' : s'.disk.values[k]? = some reg') : reg.clock ≤ reg'.clock := by
  cases hchange with
  | upsert a k' v =>
    have hwrite := (Disk.values_writeValue s.disk k' k
      ((s.disk.values[k']?.getD .new).write s.actor v)).symm.trans h'
    split_ifs at hwrite with hk
    · subst hk
      rw [h] at hwrite
      cases hwrite
      exact (VectorClock.le_increment _ _).trans_eq (MvReg.clock_write _ _).symm
    · rw [h] at hwrite
      exact (congrArg MvReg.clock (Option.some.inj hwrite)).le
  | remove a k' now =>
    rw [values_remove] at h'
    split_ifs at h' with hk
    rw [h] at h'
    exact (congrArg MvReg.clock (Option.some.inj h')).le
  | @deliver chunk hsent a source keep now =>
    have hslot := slot_applyDeltaChunkUpdateMst (mergingAdapter encodeStoreActor compact) s
      (chunk.restrict keep, now) k
    have hvalue := (congrArg Slot.value hslot).symm.trans h'
    rw [mergeChunk] at hvalue
    rcases value_foldl_mergeTomb _ now (rowsAt k (chunk.restrict keep).tombs) _ with
      hkept | hdropped
    · rw [hkept] at hvalue
      exact clock_le_foldl_mergeReg _ _ _ reg h hvalue
    · rw [hdropped] at hvalue
      cases hvalue

/-! ## Every run -/

variable {c : StoreCluster UuidKey A (MvReg V A) (MvRegSnapshot V)}

/-- What a row has held since it was last absent lies below what it holds. -/
lemma clock_le_of_heldSince
    {ok : StoreCluster UuidKey A (MvReg V A) (MvRegSnapshot V) → StoreAction UuidKey A V → Prop}
    (h : Reaches (step digest (mergingAdapter encodeStoreActor compact)) ok init c) :
    ∀ (a : A) (k : UuidKey), ∀ held ∈ heldSince a k c.stores,
      ∃ reg, (c.store a).disk.values[k]? = some reg ∧ held.clock ≤ reg.clock := by
  refine h.invariant (P := fun c => ∀ (a : A) (k : UuidKey), ∀ held ∈ heldSince a k c.stores,
      ∃ reg, (c.store a).disk.values[k]? = some reg ∧ held.clock ≤ reg.clock) ?_ ?_
  · intro a k held hheld
    simp [stores, heldSince, init, build, Disk.empty] at hheld
  · intro x y act hx _ hstep b k held hheld
    rcases step_cases hstep with ⟨a, chunk, -, rfl⟩ | ⟨a, s, hchange, rfl⟩
    · exact hx b k held hheld
    · change held ∈ heldSince b k (Function.update x.store a s :: x.stores) at hheld
      change ∃ reg, (Function.update x.store a s b).disk.values[k]? = some reg ∧ _
      cases hrow : (Function.update x.store a s b).disk.values[k]? with
      | none => simp [heldSince, hrow] at hheld
      | some reg' =>
        simp only [heldSince, hrow, mem_cons] at hheld
        refine ⟨reg', rfl, ?_⟩
        rcases hheld with rfl | hheld
        · exact le_rfl
        · obtain ⟨reg, hreg, hle⟩ := hx b k held hheld
          refine hle.trans ?_
          by_cases hba : b = a
          · subst hba
            rw [Function.update_self] at hrow
            exact clock_le_of_change hchange hreg hrow
          · rw [Function.update_of_ne hba, hreg] at hrow
            exact (congrArg MvReg.clock (Option.some.inj hrow)).le

/-- The row clock a write starts from. -/
def rowClock (s : CrdtMstStore UuidKey A (MvReg V A) (MvRegSnapshot V)) (k : UuidKey) :
    VectorClock A :=
  (s.disk.values[k]?.getD .new).clock

/-- A chunk with one register of the key, applied right after a write of the key. -/
lemma mem_getSnapshot_after_upsert {a : A}
    {s : CrdtMstStore UuidKey A (MvReg V A) (MvRegSnapshot V)}
    (hs : Replica (mergingAdapter encodeStoreActor compact) a s) (k : UuidKey) (v : V)
    {chunk : DeltaChunk UuidKey (MvReg V A)} {incoming : MvReg V A}
    (hregs : rowsAt k chunk.regs = [incoming]) (htombs : rowsAt k chunk.tombs = []) (now : ℕ) :
    let ad := mergingAdapter encodeStoreActor compact
    ((s.upsert ad k v).applyDeltaChunkUpdateMst ad chunk now).getSnapshot ad k =
      some (((s.disk.values[k]?.getD .new).write a v).merge incoming).snapshot := by
  intro ad
  have hmode : (s.upsert ad k v).preserveLocalTombs = false := hs.mode
  have hslot : (s.upsert ad k v).disk.slot k =
      ⟨some ((s.disk.values[k]?.getD .new).write a v), none⟩ := by
    refine (Disk.slot_writeValue _ k k _).trans ?_
    rw [if_pos rfl, ← hs.actor]
    rfl
  have hafter := slot_applyDeltaChunkUpdateMst ad (s.upsert ad k v) (chunk, now) k
  simp only [mergeChunk, hregs, htombs, hslot, hmode, foldl_cons, foldl_nil] at hafter
  have hvalue := congrArg Slot.value hafter
  simp only [Disk.slot, Slot.mergeReg, Bool.false_eq_true, false_and, decide_false,
    if_false] at hvalue
  rw [getSnapshot, hvalue]
  rfl

/-- **Which recreated values survive a redelivery.** In every run, after a store writes `v` to a
key and then applies a chunk whose row for the key is the register `held`, the value is visible just
when the clock of the write is not below an entry of `held`, or `held` shows `v` itself. It is
visible against every register the row has held since it was last absent. -/
theorem recreated_value_survives (encodeStoreActor : A → Bytes)
    (compact : MvReg V A → ℕ → Except String (Option (MvReg V A)))
    (digest : Entry (MvRegSnapshot V) → Bytes) :
    let ad := mergingAdapter encodeStoreActor compact
    ∀ c, Reaches (step digest ad) anyStep init c →
    ∀ (a : A) (k : UuidKey) (v : V) (held : MvReg V A), held ∈ heldEver a k c.stores →
    ∀ chunk : DeltaChunk UuidKey (MvReg V A), rowsAt k chunk.regs = [held] →
    rowsAt k chunk.tombs = [] → ∀ now : ℕ,
    let after := ((c.store a).upsert ad k v).applyDeltaChunkUpdateMst ad chunk now
    ((∃ snapshot, after.getSnapshot ad k = some snapshot ∧ v ∈ snapshot.vals) ↔
        (∀ e ∈ held.entries, ¬ (rowClock (c.store a) k).increment a < e.clock) ∨
          v ∈ held.readValues) ∧
      (held ∈ heldSince a k c.stores →
        ∃ snapshot, after.getSnapshot ad k = some snapshot ∧ v ∈ snapshot.vals) := by
  intro ad c hreach a k v held _ chunk hregs htombs now after
  have hreplica := replica_of_reaches hreach c.store mem_cons_self a
  have hsnapshot := mem_getSnapshot_after_upsert hreplica k v hregs htombs now
  have hiff : (∃ snapshot, after.getSnapshot ad k = some snapshot ∧ v ∈ snapshot.vals) ↔
      (∀ e ∈ held.entries, ¬ (rowClock (c.store a) k).increment a < e.clock) ∨
        v ∈ held.readValues := by
    have hread : after.getSnapshot ad k = _ := hsnapshot
    rw [hread]
    simp only [Option.some.injEq, exists_eq_left', MvReg.mem_vals_snapshot]
    exact MvReg.mem_readValues_write_merge _ held a v
  refine ⟨hiff, fun hsince => hiff.mpr (.inl fun e he hlt => ?_)⟩
  -- what the row has held lies below its clock, and the write is above that
  obtain ⟨reg, hreg, hle⟩ := clock_le_of_heldSince hreach a k held hsince
  have hrow : rowClock (c.store a) k = reg.clock := by
    rw [rowClock, hreg]
    rfl
  rw [hrow] at hlt
  exact absurd ((MvReg.le_clock he).trans (hle.trans (VectorClock.le_increment _ _)))
    (not_le_of_gt hlt)

/-- A redelivery while the row is still there. -/
theorem recreated_value_survives_kept :
    let ad := sampleAdapter
    let a := sampleUuid 1
    let k := sampleUuid 2
    ∃ c, Reaches (step (fun _ => []) ad) anyStep init c ∧ ∃ held ∈ heldEver a k c.stores,
      let after := ((c.store a).upsert ad k 9).applyDeltaChunkUpdateMst ad ⟨[(k, held)], []⟩ 30
      ∃ snapshot, after.getSnapshot ad k = some snapshot ∧ 9 ∈ snapshot.vals := by
  intro ad a k
  have hreach : Reaches (step (fun _ => []) ad) anyStep init _ :=
    reaches_of_runActions [.upsert a k 7, .upsert a k 8] rfl
  exact ⟨_, hreach, MvReg.new.write a 7, by decide +kernel,
    (recreated_value_survives _ _ _ _ hreach a k 9
    _ (by decide +kernel) ⟨[(k, _)], []⟩ rfl rfl 30).2 (by decide +kernel)⟩

/-- A store writes a key twice and exports it, deletes the key and writes it again: the old export,
handed back, takes the new value away. -/
theorem recreated_value_lost :
    let ad := sampleAdapter
    let a := sampleUuid 1
    let k := sampleUuid 2
    ∃ c, Reaches (step (fun _ => []) ad) anyStep init c ∧
      ∃ chunk ∈ c.sent, ∃ held ∈ heldEver a k c.stores,
        rowsAt k chunk.regs = [held] ∧ rowsAt k chunk.tombs = [] ∧
        ((c.store a).upsert ad k 9).getSnapshot ad k = some ⟨[9]⟩ ∧
        (((c.store a).upsert ad k 9).applyDeltaChunkUpdateMst ad chunk 30).getSnapshot ad k =
          some ⟨[8]⟩ := by
  intro ad a k
  exact exists_reaches_of_runActions [.upsert a k 7, .upsert a k 8,
    .send a [everyKey], .remove a k 20] (by decide +kernel)

end StoreCluster

end Mantissa
