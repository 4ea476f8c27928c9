import Mantissa.Store.MstStore

/-!
# What the loops of the store do to its tables

The write paths of the store loop over batches, chunk rows, tombstone candidates and compaction
candidates. Each loop gets one rule here that says what it can do to the tables, so that no later
proof unfolds it: `writeBatch_induction`, `writeDeltaChunk_induction`, `pruneCovered_counted`,
`pruneGc_counted`, `compaction_induction`. Below each rule is an inversion lemma for one turn of
the loop.

On consistent tables the turns are few: a key is made live, a key is made deleted, a tombstone is
cleared, a frontier is advanced. What the source checks again inside its transactions (a row that
is already as it should be, an index row without its tombstone) changes nothing there.
-/

namespace Mantissa.CrdtMstStore

open Disk List

variable {K A R V S : Type*} [LinearOrder K]

/-! ## Batches and chunks -/

variable {P : Disk K R → List (K × R) → Prop}

/-- A batch makes its keys live, one after the other. -/
theorem writeBatch_induction {ad : RegAdapter K A R V S} {actor : A}
    {shouldWrite : K → Option S → V → Bool} :
    ∀ (requested : List (K × V)) (d d' : Disk K R) (merged : List (K × R)),
      writeBatch ad actor shouldWrite d requested = some (d', merged) →
      ∀ done : List (K × R), P d done →
      (∀ d done k reg, P d done → P (d.writeValue k reg) (done ++ [(k, reg)])) →
      P d' (done ++ merged)
  | [], d, d', merged, h, done, h0, _ => by
    obtain ⟨rfl, rfl⟩ := h
    rwa [append_nil]
  | (k, v) :: requested, d, d', merged, h, done, h0, hstep => by
    simp only [writeBatch] at h
    split_ifs at h
    obtain ⟨⟨d₁, rest⟩, hrest, heq⟩ := Option.map_eq_some_iff.mp h
    obtain ⟨rfl, rfl⟩ := Prod.mk.inj heq
    have hnext := hstep d done k (ad.upsertReg d.values[k]? actor v) h0
    have := writeBatch_induction requested _ d₁ rest hrest _ hnext hstep
    rwa [append_assoc, singleton_append] at this

/-- A register of a chunk is skipped or makes its key live. -/
lemma mergeDeltaReg_cases [DecidableEq R] (ad : RegAdapter K A R V S) (preserve : Bool)
    (tombKeys : List K) (m : DeltaMerge K R) (k : K) (incoming : R) :
    mergeDeltaReg ad preserve tombKeys m (k, incoming) = m ∨
      ∃ merged, mergeDeltaReg ad preserve tombKeys m (k, incoming) = { m with
          disk := m.disk.writeValue k merged
          mergedRegs := m.mergedRegs ++ [(k, merged)]
          changed := true } := by
  simp only [mergeDeltaReg]
  split_ifs
  · exact Or.inl rfl
  · exact Or.inl rfl
  · exact Or.inr ⟨_, rfl⟩

/-- The tombstone a chunk's tombstone leads to. -/
def nextTombstone (d : Disk K R) (k : K) (incoming : TombstoneRecord) (now : ℕ) : TombstoneRecord :=
  mergeTombstoneRecords d.tombs[k]? (normalizeIncomingTombstone incoming now)

/-- An incoming tombstone the store has already pruned. -/
def IsPruned (d : Disk K R) (incoming : TombstoneRecord) : Prop :=
  0 < d.tombstonePruneFrontier incoming.originActor ∧
    incoming.sequence ≤ d.tombstonePruneFrontier incoming.originActor

instance (d : Disk K R) (incoming : TombstoneRecord) : Decidable (IsPruned d incoming) :=
  inferInstanceAs (Decidable (_ ∧ _))

variable {d : Disk K R}

lemma mergeDeltaTomb_eq (now : ℕ) (m : DeltaMerge K R) (k : K) (incoming : TombstoneRecord) :
    mergeDeltaTomb now m (k, incoming) =
      if IsPruned m.disk incoming then m
      else if m.disk.tombs[k]? = some (nextTombstone m.disk k incoming now) ∧
          m.disk.values[k]?.isNone then m
      else
        { m with
          disk := (if m.disk.tombs[k]? = some (nextTombstone m.disk k incoming now) then m.disk
            else (m.disk.dropObserved k).insertTombstone k
              (nextTombstone m.disk k incoming now)).removeValue k
          mergedTombs := m.mergedTombs ++ [(k, nextTombstone m.disk k incoming now)]
          changed := true } := rfl

/-- A tombstone of a chunk is already pruned, already there, or makes its key deleted. -/
lemma mergeDeltaTomb_cases (now : ℕ) {m : DeltaMerge K R} (h : m.disk.Consistent) (k : K)
    (incoming : TombstoneRecord) :
    (mergeDeltaTomb now m (k, incoming) = m ∧ (IsPruned m.disk incoming ∨
      (m.disk.tombs[k]? = some (nextTombstone m.disk k incoming now) ∧ m.disk.values[k]? = none))) ∨
    (¬ IsPruned m.disk incoming ∧ mergeDeltaTomb now m (k, incoming) = { m with
        disk := m.disk.writeTombstone k (nextTombstone m.disk k incoming now)
        mergedTombs := m.mergedTombs ++ [(k, nextTombstone m.disk k incoming now)]
        changed := true }) := by
  rw [mergeDeltaTomb_eq]
  by_cases hpruned : IsPruned m.disk incoming
  · exact Or.inl ⟨if_pos hpruned, Or.inl hpruned⟩
  · rw [if_neg hpruned]
    by_cases hsame : m.disk.tombs[k]? = some (nextTombstone m.disk k incoming now)
    · -- the key is deleted, so it has no value row to drop
      have hnone : m.disk.values[k]? = none := (h.exclusive k).resolve_right (by simp [hsame])
      rw [if_pos ⟨hsame, by simp [hnone]⟩]
      exact Or.inl ⟨rfl, Or.inr ⟨hsame, hnone⟩⟩
    · rw [if_neg fun hc => hsame hc.1, if_neg hsame]
      exact Or.inr ⟨hpruned, rfl⟩

/-- **What a chunk does to consistent tables.** Registers make keys live, then tombstones that are
not pruned make keys deleted. -/
theorem writeDeltaChunk_induction [DecidableEq R] (ad : RegAdapter K A R V S) (preserve : Bool)
    (chunk : DeltaChunk K R) (now : ℕ) {P : DeltaMerge K R → Prop}
    (hd : d.Consistent) (h0 : P ⟨d, [], [], false⟩)
    (hreg : ∀ m k merged, P m → m.disk.Consistent → m.mergedTombs = [] → P { m with
        disk := m.disk.writeValue k merged
        mergedRegs := m.mergedRegs ++ [(k, merged)]
        changed := true })
    (htomb : ∀ m k incoming, P m → m.disk.Consistent → ¬ IsPruned m.disk incoming → P { m with
        disk := m.disk.writeTombstone k (nextTombstone m.disk k incoming now)
        mergedTombs := m.mergedTombs ++ [(k, nextTombstone m.disk k incoming now)]
        changed := true }) : P (writeDeltaChunkMergedLatest ad preserve d chunk now) ∧
      (writeDeltaChunkMergedLatest ad preserve d chunk now).disk.Consistent := by
  refine List.foldlRecOn (motive := fun m => P m ∧ m.disk.Consistent) chunk.tombs _ ?_ ?_
  · have hregs := List.foldlRecOn (motive := fun m => P m ∧ m.disk.Consistent ∧ m.mergedTombs = [])
      chunk.regs (mergeDeltaReg ad preserve
        (if preserve ∧ chunk.regs ≠ [] then chunk.tombs.map Prod.fst else []))
      ⟨h0, hd, rfl⟩ ?_
    · exact ⟨hregs.1, hregs.2.1⟩
    · rintro m ⟨hP, hc, hnil⟩ ⟨k, incoming⟩ -
      rcases mergeDeltaReg_cases ad preserve _ m k incoming with heq | ⟨merged, heq⟩
      · rw [heq]
        exact ⟨hP, hc, hnil⟩
      · rw [heq]
        exact ⟨hreg m k merged hP hc hnil, hc.writeValue k merged, hnil⟩
  · rintro m ⟨hP, hc⟩ ⟨k, incoming⟩ -
    rcases mergeDeltaTomb_cases now hc k incoming with ⟨heq, -⟩ | ⟨hpruned, heq⟩
    · rw [heq]
      exact ⟨hP, hc⟩
    · rw [heq]
      exact ⟨htomb m k incoming hP hc hpruned, hc.writeTombstone k _⟩

/-! ## Dropping tombstones -/

/-- One candidate of a received frontier is gone already or cleared. -/
lemma pruneCovered_cases (frontiers : BTreeMap Bytes ℕ) (d : Disk K R) (n : ℕ) (k : K) :
    (pruneCovered frontiers (d, n) k = (d, n) ∧
      ∀ record, d.tombs[k]? = some record → coveredBy frontiers record = false) ∨
    ∃ record, d.tombs[k]? = some record ∧ coveredBy frontiers record = true ∧
      pruneCovered frontiers (d, n) k = (d.clearTombstone k, n + 1) := by
  simp only [pruneCovered]
  cases hk : d.tombs[k]? with
  | none => exact Or.inl ⟨rfl, by simp⟩
  | some record =>
    by_cases hcov : coveredBy frontiers record = true
    · exact Or.inr ⟨record, rfl, hcov, if_pos hcov⟩
    · refine Or.inl ⟨if_neg hcov, fun record' heq => ?_⟩
      cases heq
      exact Bool.eq_false_iff.mpr hcov

variable {indexKey : ℕ ×ₗ K}

/-- An age-index row without its tombstone is not there. -/
lemma erase_stale (h : d.Consistent)
    (hstale : ∀ record, d.tombs[(ofLex indexKey).2]? = some record →
      observedKey (ofLex indexKey).2 record ≠ indexKey) :
    { d with tombsByObserved := d.tombsByObserved.erase indexKey } = d := by
  have herase : d.tombsByObserved.erase indexKey = d.tombsByObserved := by
    refine BTreeMap.ext_lookup fun i => ?_
    rw [BTreeMap.getElem?_erase_eq]
    split_ifs with hi
    · subst hi
      cases hrow : d.tombsByObserved[indexKey]? with
      | none => rfl
      | some u =>
        obtain ⟨record, hrec, hobs⟩ := (h.indexed (ofLex indexKey).1 (ofLex indexKey).2).mp hrow
        exact absurd (by rw [observedKey, hobs]; rfl) (hstale record hrec)
    · rfl
  rw [herase]

/-- One candidate of a collection pass is stale, or is cleared and its frontier advanced. -/
lemma pruneTombstoneGcCandidate_cases (h : d.Consistent) {eligibleBefore : ℕ}
    (n : ℕ) (hlt : (ofLex indexKey).1 < eligibleBefore) :
    (pruneTombstoneGcCandidate eligibleBefore (d, n) indexKey = (d, n) ∧
      ∀ record, d.tombs[(ofLex indexKey).2]? = some record →
        observedKey (ofLex indexKey).2 record ≠ indexKey) ∨
    ∃ record, d.tombs[(ofLex indexKey).2]? = some record ∧
      pruneTombstoneGcCandidate eligibleBefore (d, n) indexKey =
        ((d.clearTombstone (ofLex indexKey).2).advanceTombstonePruneFrontier record.originActor
          record.sequence, n + 1) := by
  simp only [pruneTombstoneGcCandidate]
  cases hrow : d.tombs[(ofLex indexKey).2]? with
  | none =>
    have hstale : ∀ record, d.tombs[(ofLex indexKey).2]? = some record →
        observedKey (ofLex indexKey).2 record ≠ indexKey := by
      intro record hrec
      rw [hrow] at hrec
      cases hrec
    exact Or.inl ⟨Prod.ext (erase_stale h hstale) rfl, by simp⟩
  | some record =>
    by_cases hkey : observedKey (ofLex indexKey).2 record = indexKey
    · -- the index key names the row's own time, which was before the cutoff
      have hobs : record.observedAtUnixMs = (ofLex indexKey).1 := by rw [← hkey]; rfl
      have hfresh : ¬ (observedKey (ofLex indexKey).2 record ≠ indexKey ∨
          eligibleBefore ≤ record.observedAtUnixMs) := by
        rw [hobs]
        exact not_or.mpr ⟨not_not.mpr hkey, not_le_of_gt hlt⟩
      refine Or.inr ⟨record, rfl, ?_⟩
      dsimp only
      rw [if_neg hfresh]
      simp only [clearTombstone, dropObserved, hrow, hkey]
    · have hstale : ∀ record', d.tombs[(ofLex indexKey).2]? = some record' →
          observedKey (ofLex indexKey).2 record' ≠ indexKey := by
        intro record' hrec
        rw [hrow] at hrec
        cases hrec
        exact hkey
      refine Or.inl ⟨?_, by simpa using hkey⟩
      simp only [if_pos (Or.inl hkey : observedKey (ofLex indexKey).2 record ≠ indexKey ∨
        eligibleBefore ≤ record.observedAtUnixMs)]
      exact Prod.ext (erase_stale h hstale) rfl

/-- The candidates of a pass are index rows from before the cutoff. -/
lemma mem_collectTombstoneGcCandidates {eligibleBefore batchLimit : ℕ}
    (h : indexKey ∈ collectTombstoneGcCandidates d eligibleBefore batchLimit) :
    (ofLex indexKey).1 < eligibleBefore ∧ d.tombsByObserved[indexKey]? = some () := by
  have hmem := mem_of_mem_take h
  have hlt := mem_takeWhile_imp hmem
  obtain ⟨p, hp, rfl⟩ := mem_map.mp ((takeWhile_sublist _).subset hmem)
  exact ⟨of_decide_eq_true hlt, BTreeMap.mem_toList.mp hp⟩

/-- What a loop that counts its changes does: it keeps `P`, and an unmoved counter means unmoved
tables. -/
structure Counted {D : Type*} (P : D → Prop) (start result : D × ℕ) : Prop where
  kept : P result.1
  le : start.2 ≤ result.2
  unmoved : result.2 = start.2 → result.1 = start.1

lemma foldl_counted {D X : Type*} {f : D × ℕ → X → D × ℕ} {P : D → Prop} : ∀ (l : List X) (d : D)
    (n : ℕ), P d →
    (∀ x ∈ l, ∀ d n, P d → f (d, n) x = (d, n) ∨ (P (f (d, n) x).1 ∧ (f (d, n) x).2 = n + 1)) →
    Counted P (d, n) (l.foldl f (d, n))
  | [], d, n, hP, _ => ⟨hP, le_rfl, fun _ => rfl⟩
  | x :: l, d, n, hP, hstep => by
    rw [foldl_cons]
    have hrest := fun y hy => hstep y (mem_cons_of_mem x hy)
    rcases hstep x (mem_cons_self ..) d n hP with heq | ⟨hP', hcount⟩
    · rw [heq]
      exact foldl_counted l d n hP hrest
    · obtain ⟨hPl, hle, -⟩ := foldl_counted l (f (d, n) x).1 (f (d, n) x).2 hP' hrest
      rw [Prod.mk.eta] at hPl hle
      exact ⟨hPl, by omega, fun hn => by omega⟩

/-- What a received frontier does to the tombstone rows. -/
lemma pruneCovered_counted (frontiers : BTreeMap Bytes ℕ) (hd : d.Consistent)
    (candidates : List K) :
    Counted Disk.Consistent (d, 0) (candidates.foldl (pruneCovered frontiers) (d, 0)) := by
  refine foldl_counted candidates d 0 hd ?_
  intro k _ d n hc
  rcases pruneCovered_cases frontiers d n k with ⟨heq, -⟩ | ⟨record, -, -, heq⟩
  · exact Or.inl heq
  · exact Or.inr ⟨heq ▸ hc.clearTombstone k, by rw [heq]⟩

lemma advanceAll_consistent (hd : d.Consistent) (frontiers : List (Bytes × ℕ)) :
    (frontiers.foldl (fun d p => d.advanceTombstonePruneFrontier p.1 p.2) d).Consistent :=
  List.foldlRecOn (motive := fun d : Disk K R => d.Consistent) frontiers _ hd
    fun _ hc p _ => hc.advanceTombstonePruneFrontier p.1 p.2

/-- What a collection pass does to the tombstone rows. -/
lemma pruneGc_counted (hd : d.Consistent) {eligibleBefore : ℕ}
    (candidates : List (ℕ ×ₗ K)) (hlt : ∀ i ∈ candidates, (ofLex i).1 < eligibleBefore) :
    Counted Disk.Consistent (d, 0)
      (candidates.foldl (pruneTombstoneGcCandidate eligibleBefore) (d, 0)) := by
  refine foldl_counted candidates d 0 hd ?_
  intro indexKey hmem d n hc
  rcases pruneTombstoneGcCandidate_cases hc n (hlt indexKey hmem) with ⟨heq, -⟩ | ⟨record, -, heq⟩
  · exact Or.inl heq
  · exact Or.inr ⟨heq ▸ (hc.clearTombstone _).advanceTombstonePruneFrontier _ _, by rw [heq]⟩

/-! ## Compaction -/

/-- Where a key is live, replacing its register is writing it. -/
lemma writeValue_of_tombs_eq_none {k : K} (h : d.tombs[k]? = none) (reg : R) :
    { d with values := d.values.insert k reg } = d.writeValue k reg := by
  have herase : d.tombs.erase k = d.tombs := by
    refine BTreeMap.ext_lookup fun a => ?_
    rw [BTreeMap.getElem?_erase_eq]
    split_ifs with hka
    · rw [← hka, h]
    · rfl
  simp only [writeValue, clearTombstone, dropObserved, h, herase]

/-- Compaction rewrites rows of keys that are live. -/
theorem compaction_induction [DecidableEq R] (hd : d.Consistent)
    (candidates : List (K × R × R)) (h0 : P d [])
    (hstep : ∀ d done k reg, P d done → P (d.writeValue k reg) (done ++ [(k, reg)])) :
    P (writeRegisterCompactionCandidates d candidates).1
        (writeRegisterCompactionCandidates d candidates).2 ∧
      (writeRegisterCompactionCandidates d candidates).1.Consistent := by
  refine List.foldlRecOn (motive := fun acc : Disk K R × List (K × R) =>
    P acc.1 acc.2 ∧ acc.1.Consistent) candidates _ ⟨h0, hd⟩ ?_
  rintro ⟨d, done⟩ ⟨hP, hc⟩ ⟨k, original, compacted⟩ -
  dsimp only
  split_ifs with hrow
  · have hlive : d.tombs[k]? = none := (hc.exclusive k).resolve_left (by simp [hrow])
    rw [writeValue_of_tombs_eq_none hlive]
    exact ⟨hstep d done k compacted hP, hc.writeValue k compacted⟩
  · exact ⟨hP, hc⟩

end Mantissa.CrdtMstStore
