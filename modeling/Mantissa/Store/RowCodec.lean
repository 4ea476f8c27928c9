import Mantissa.Store.Adapter

/-!
# Register rows

`codec.rs` stores a register as one Cap'n Proto row: its entries in order, each with the counters of
its clock and the encoded value. Reading a row back replays the entries through `from_entries`,
which drops what is dominated. So a row keeps a register only if no entry of the register is
dropped by a later one.

A register is normalized by its type, whatever writes, merges, puts and compactions it comes from,
and replaying a normalized list drops nothing (`fromEntries_entries`). A row from a peer may have
actors twice, entries in any order and entries below others; what it is read as is a register all
the same.

Cap'n Proto, the value codec and the actor codec are a `RowCodec`, which carries their round trips.
-/

namespace Mantissa

open List

/-- `ClockEntry` of the schema. -/
structure ClockEntryRow where
  actor : Bytes
  counter : ℕ
  deriving DecidableEq

/-- `MvRegEntry` of the schema. -/
structure MvRegEntryRow where
  clock : List ClockEntryRow
  value : Bytes
  deriving DecidableEq

/-- `MvRegRow` of the schema. -/
structure MvRegRow where
  entries : List MvRegEntryRow
  deriving DecidableEq

/-- `StoreValueCodec`, `StoreActorCodec`, and a Cap'n Proto message of bytes `M`. -/
structure RowCodec (V A M : Type) where
  encodeStoreValue : V → Except String Bytes
  decodeStoreValue : Bytes → Except String V
  encodeStoreActor : A → Bytes
  decodeStoreActor : Bytes → Except String A
  writeMessage : MvRegRow → M
  readMessage : M → Except String MvRegRow
  value_roundTrip : ∀ v, ∃ bytes, encodeStoreValue v = .ok bytes ∧ decodeStoreValue bytes = .ok v
  actor_roundTrip : ∀ a, decodeStoreActor (encodeStoreActor a) = .ok a
  message_roundTrip : ∀ row, readMessage (writeMessage row) = .ok row

namespace RowCodec

variable {V A M : Type} [LinearOrder A] (codec : RowCodec V A M)

/-- One turn of the loop of `encode_mvreg_row`. -/
def encodeEntry (entry : MvRegEntry V A) : Except String MvRegEntryRow := do
  let value ← codec.encodeStoreValue entry.value
  pure ⟨entry.clock.iter.map fun d => ⟨codec.encodeStoreActor d.1, d.2⟩, value⟩

/-- `encode_mvreg_row`. -/
def encodeMvregRow (reg : MvReg V A) : Except String M := do
  let entries ← reg.entries.mapM codec.encodeEntry
  pure (codec.writeMessage ⟨entries⟩)

/-- The counters of an entry are applied one after the other. -/
def decodeClock (clock : List ClockEntryRow) : Except String (VectorClock A) :=
  clock.foldlM (fun clock entry => do
    let actor ← codec.decodeStoreActor entry.actor
    pure (clock.apply actor entry.counter)) VectorClock.new

/-- One turn of the loop of `decode_mvreg_row`. -/
def decodeEntry (entry : MvRegEntryRow) : Except String (MvRegEntry V A) := do
  let clock ← codec.decodeClock entry.clock
  let value ← codec.decodeStoreValue entry.value
  pure ⟨clock, value⟩

/-- `decode_mvreg_row`. -/
def decodeMvregRow (bytes : M) : Except String (MvReg V A) := do
  let row ← codec.readMessage bytes
  let entries ← row.entries.mapM codec.decodeEntry
  pure (MvReg.fromEntries entries)

/-- The actors and values of a row can be decoded. -/
def WellFormed (row : MvRegRow) : Prop :=
  ∀ entry ∈ row.entries, (∀ d ∈ entry.clock, ∃ actor, codec.decodeStoreActor d.actor = .ok actor) ∧
    ∃ value, codec.decodeStoreValue entry.value = .ok value

end RowCodec

/-! ## Replaying entries -/

/-- Entries that are concurrent with all earlier ones are appended. -/
lemma entries_foldl_applyPut {V A : Type*} [LinearOrder A] (l : List (MvRegEntry V A))
    (r : MvReg V A) (h : Normalized (r.entries ++ l)) :
    (l.foldl (fun reg entry => reg.applyPut entry.clock entry.value) r).entries =
      r.entries ++ l := by
  induction l generalizing r with
  | nil => simp
  | cons e l ih =>
    have hconcurrent : ∀ f ∈ r.entries, Concurrent f e := fun f hf =>
      (pairwise_append.mp h.1).2.2 f hf e mem_cons_self
    have hput : (r.applyPut e.clock e.value).entries = r.entries ++ [e] := by
      change putEntries r.entries e.clock e.value = _
      rw [putEntries_eq (h.2 e (by simp)),
        if_pos fun f hf hlt => (hconcurrent f hf).2 hlt.le,
        filter_eq_self.mpr fun f hf => decide_eq_true (hconcurrent f hf).1]
    rw [foldl_cons, ih _ (by simpa [hput] using h), hput]
    simp

/-- **Replaying a register gives it back.** -/
lemma MvReg.fromEntries_entries {V A : Type*} [LinearOrder A] (r : MvReg V A) :
    fromEntries r.entries = r :=
  MvReg.ext (entries_foldl_applyPut r.entries new r.normalized)

namespace RowCodec

variable {V A M : Type} [LinearOrder A] (codec : RowCodec V A M)

/-! ## What is written can be read -/

lemma entry_roundTrip (entry : MvRegEntry V A) :
    ∃ row, codec.encodeEntry entry = .ok row ∧ codec.decodeEntry row = .ok entry := by
  obtain ⟨bytes, hencode, hdecode⟩ := codec.value_roundTrip entry.value
  refine ⟨⟨_, bytes⟩, by rw [encodeEntry, hencode]; rfl, ?_⟩
  have hclock : codec.decodeClock
      (entry.clock.iter.map fun d => ⟨codec.encodeStoreActor d.1, d.2⟩) = .ok entry.clock := by
    rw [decodeClock, foldlM_map]
    simp only [codec.actor_roundTrip]
    exact (foldlM_pure ..).trans (congrArg Except.ok (bot_sup_eq entry.clock))
  rw [decodeEntry, hclock, hdecode]
  rfl

lemma entries_roundTrip (entries : List (MvRegEntry V A)) :
    ∃ rows, entries.mapM codec.encodeEntry = .ok rows ∧ rows.mapM codec.decodeEntry =
      .ok entries := by
  induction entries with
  | nil => exact ⟨[], rfl, rfl⟩
  | cons entry entries ih =>
    obtain ⟨row, hencode, hdecode⟩ := codec.entry_roundTrip entry
    obtain ⟨rows, hencodes, hdecodes⟩ := ih
    exact ⟨row :: rows, by rw [mapM_cons, hencode, hencodes]; rfl,
      by rw [mapM_cons, hdecode, hdecodes]; rfl⟩

lemma register_roundTrip (r : MvReg V A) :
    ∃ bytes, codec.encodeMvregRow r = .ok bytes ∧ codec.decodeMvregRow bytes = .ok r := by
  obtain ⟨rows, hencode, hdecode⟩ := codec.entries_roundTrip r.entries
  refine ⟨codec.writeMessage ⟨rows⟩, by rw [encodeMvregRow, hencode]; rfl, ?_⟩
  rw [decodeMvregRow, codec.message_roundTrip]
  change (rows.mapM codec.decodeEntry >>= fun entries => pure (MvReg.fromEntries entries)) = _
  rw [hdecode]
  exact congrArg Except.ok r.fromEntries_entries

/-! ## Rows from peers -/

lemma exists_decodeClock (clock : List ClockEntryRow) (c : VectorClock A)
    (h : ∀ d ∈ clock, ∃ actor, codec.decodeStoreActor d.actor = .ok actor) :
    ∃ c', clock.foldlM (fun clock entry => do
      let actor ← codec.decodeStoreActor entry.actor
      pure (clock.apply actor entry.counter)) c = .ok c' := by
  induction clock generalizing c with
  | nil => exact ⟨c, rfl⟩
  | cons d clock ih =>
    obtain ⟨actor, hactor⟩ := h d mem_cons_self
    obtain ⟨c', hrest⟩ := ih (c.apply actor d.counter) fun d hd => h d (mem_cons_of_mem _ hd)
    exact ⟨c', by rw [foldlM_cons, hactor]; exact hrest⟩

lemma exists_decodeEntries (rows : List MvRegEntryRow) (h : codec.WellFormed ⟨rows⟩) :
    ∃ entries, rows.mapM codec.decodeEntry = .ok entries := by
  induction rows with
  | nil => exact ⟨[], rfl⟩
  | cons row rows ih =>
    obtain ⟨hclock, value, hvalue⟩ := h row mem_cons_self
    obtain ⟨clock, hdecoded⟩ := codec.exists_decodeClock row.clock .new hclock
    obtain ⟨entries, hrest⟩ := ih fun r hr => h r (mem_cons_of_mem _ hr)
    have hentry : codec.decodeEntry row = .ok ⟨clock, value⟩ := by
      rw [decodeEntry, decodeClock, hdecoded, hvalue]
      rfl
    exact ⟨⟨clock, value⟩ :: entries, by rw [mapM_cons, hentry, hrest]; rfl⟩

/-- **Register rows survive encoding.** A register is read back as it was written, the entries in
their order. A row of a peer that can be decoded is read as an antichain of entries with clocks
that are not empty, and that register is again read back as it is written. -/
theorem mvregRow_roundTrip (codec : RowCodec V A M) :
    (∀ r : MvReg V A,
      ∃ bytes, codec.encodeMvregRow r = .ok bytes ∧ codec.decodeMvregRow bytes = .ok r) ∧
    ∀ (bytes : M) (row : MvRegRow), codec.readMessage bytes = .ok row → codec.WellFormed row →
      ∃ r, codec.decodeMvregRow bytes = .ok r ∧ Normalized r.entries ∧
        ∃ bytes', codec.encodeMvregRow r = .ok bytes' ∧ codec.decodeMvregRow bytes' = .ok r := by
  refine ⟨codec.register_roundTrip, fun bytes row hread hrow => ?_⟩
  obtain ⟨entries, hentries⟩ := codec.exists_decodeEntries row.entries hrow
  refine ⟨MvReg.fromEntries entries, ?_, MvReg.normalized _, codec.register_roundTrip _⟩
  rw [decodeMvregRow, hread]
  change (row.entries.mapM codec.decodeEntry >>= fun entries =>
    pure (MvReg.fromEntries entries)) = _
  rw [hentries]
  rfl

/-- Plain bytes by UUID actors, in messages that are the rows themselves. -/
def plainBytes : RowCodec Bytes UuidKey MvRegRow where
  encodeStoreValue := .ok
  decodeStoreValue := .ok
  encodeStoreActor actor := actor.val
  decodeStoreActor bytes := if h : bytes.length = 16 then .ok ⟨bytes, h⟩
    else .error "invalid store actor bytes: expected 16-byte UUID actor"
  writeMessage := id
  readMessage := .ok
  value_roundTrip v := ⟨v, rfl, rfl⟩
  actor_roundTrip a := dif_pos a.2
  message_roundTrip _ := rfl

/-- A row with an actor twice, a dominated entry and one without a clock: one entry is left. -/
theorem mvregRow_roundTrip_dominated :
    let actor := fun n : Byte => List.replicate 15 0 ++ [n]
    let row : MvRegRow := ⟨[⟨[⟨actor 1, 2⟩], [7]⟩,
      ⟨[⟨actor 1, 1⟩, ⟨actor 2, 1⟩, ⟨actor 1, 3⟩], [8]⟩, ⟨[⟨actor 3, 0⟩], [9]⟩]⟩
    ∃ r, plainBytes.decodeMvregRow row = .ok r ∧ r.readValues = [[8]] ∧
      ∃ bytes, plainBytes.encodeMvregRow r = .ok bytes ∧
        plainBytes.decodeMvregRow bytes = .ok r := by
  intro actor row
  have hrow : plainBytes.WellFormed row := by
    intro entry hentry
    refine ⟨fun d hd => ?_, _, rfl⟩
    have hlength : d.actor.length = 16 := by revert entry d; decide
    exact ⟨⟨d.actor, hlength⟩, dif_pos hlength⟩
  obtain ⟨r, hdecode, -, hencode⟩ := (mvregRow_roundTrip plainBytes).2 row row rfl hrow
  have hvalues : (plainBytes.decodeMvregRow row).map MvReg.readValues = .ok [[8]] := by
    decide +kernel
  rw [hdecode] at hvalues
  exact ⟨r, hdecode, Except.ok.inj hvalues, hencode⟩

end RowCodec

end Mantissa
