import Mantissa.Core.Run
import Mantissa.Store.RepInvariant

/-!
# Prune frontiers

A store remembers, for each origin actor, up to which delete sequence it has forgotten tombstones.
Tombstones at or below that frontier are refused on the way in, and a received frontier no newer
than the stored one is skipped: there should be nothing left for it to delete.

`FrontierInv` says so of the tables. Every write path keeps it but two. A collection pass takes
its candidates in order of observation time, while frontiers are in order of sequence, so the batch
has to be closed downwards in sequence for each origin it touches (`BatchClosed`); and `remove` does
not look at the frontier before it allocates a sequence. `KeepsFrontier` is the condition a step
has to meet, `frontier_below_tombstones` the invariant over the runs that meet it, and
`gc_batch_strands_tombstone` a run that does not.
-/

namespace Mantissa.CrdtMstStore

open Disk List

variable {K A R V S : Type*} [LinearOrder K]

/-- No stored frontier is zero. -/
def FrontiersPositive (d : Disk K R) : Prop :=
  ∀ (origin : Bytes) (frontier : ℕ), d.tombPruned[origin]? = some frontier → 0 < frontier

/-- Stored frontiers are positive, and no tombstone row is one the store would refuse. -/
structure FrontierInv (d : Disk K R) : Prop where
  positive : FrontiersPositive d
  unpruned : ∀ (k : K) (record : TombstoneRecord), d.tombs[k]? = some record → ¬ IsPruned d record

lemma frontierInv_empty : FrontierInv (empty : Disk K R) where
  positive origin frontier h := by simp [empty] at h
  unpruned k record h := by simp [empty] at h

/-! ## Row changes -/

section Rows

variable {d : Disk K R}

variable (h : FrontierInv d)

include h

lemma FrontierInv.writeValue (k : K) (reg : R) : FrontierInv (d.writeValue k reg) where
  positive := h.positive
  unpruned a record ha := by
    rw [tombs_writeValue] at ha
    split_ifs at ha
    exact h.unpruned a record ha

lemma FrontierInv.purgeKey (k : K) : FrontierInv (d.purgeKey k) where
  positive := h.positive
  unpruned a record ha := by
    rw [tombs_purgeKey] at ha
    split_ifs at ha
    exact h.unpruned a record ha

lemma FrontierInv.writeTombstone (k : K) {record : TombstoneRecord}
    (hrecord : ¬ IsPruned d record) : FrontierInv (d.writeTombstone k record) where
  positive := h.positive
  unpruned a other ha := by
    rw [tombs_writeTombstone] at ha
    split_ifs at ha
    · cases ha
      exact hrecord
    · exact h.unpruned a other ha

omit h

lemma FrontiersPositive.advance (h : FrontiersPositive d) (origin : Bytes) (n : ℕ) :
    FrontiersPositive (d.advanceTombstonePruneFrontier origin n) := by
  intro other frontier hother
  simp only [advanceTombstonePruneFrontier] at hother
  split_ifs at hother with hzero hlt
  · exact h other frontier hother
  · rw [BTreeMap.getElem?_insert_eq] at hother
    split_ifs at hother
    · cases hother
      omega
    · exact h other frontier hother
  · exact h other frontier hother

end Rows

/-! ## Received frontiers -/

variable (frontiers : List (Bytes × ℕ))

/-- A frontier kept from a message is a positive one of that message. -/
lemma mem_of_frontierByOrigin :
    ∀ (origin : Bytes) (frontier : ℕ), (frontierByOrigin frontiers)[origin]? = some frontier →
      0 < frontier ∧ (origin, frontier) ∈ frontiers := by
  refine foldlRecOn (motive := fun acc : BTreeMap Bytes ℕ => ∀ (origin : Bytes) (frontier : ℕ),
    acc[origin]? = some frontier → 0 < frontier ∧ (origin, frontier) ∈ frontiers) frontiers _
    (by simp) ?_
  intro acc ih p hp origin frontier hfrontier
  split_ifs at hfrontier with hzero
  · exact ih origin frontier hfrontier
  · rw [BTreeMap.getElem?_insert_eq] at hfrontier
    split_ifs at hfrontier with horigin
    · subst horigin
      cases hfrontier
      have hpos : 0 < p.2 := Nat.pos_of_ne_zero hzero
      cases hacc : acc[p.1]? with
      | none => exact ⟨hpos, hp⟩
      | some current =>
        -- the larger of the two frontiers is either the kept or the new one
        rcases max_choice current p.2 with hmax | hmax
        · simp only [hmax]
          exact ih p.1 current hacc
        · simp only [hmax]
          exact ⟨hpos, hp⟩
    · exact ih origin frontier hfrontier

/-- After all received frontiers are advanced, a frontier is the old one or a received one. -/
lemma frontier_advanceAll (d : Disk K R) (origin : Bytes) :
    let d' := frontiers.foldl (fun d p => d.advanceTombstonePruneFrontier p.1 p.2) d
    d'.tombstonePruneFrontier origin = d.tombstonePruneFrontier origin ∨
      (origin, d'.tombstonePruneFrontier origin) ∈ frontiers := by
  refine foldlRecOn (motive := fun d' : Disk K R =>
    d'.tombstonePruneFrontier origin = d.tombstonePruneFrontier origin ∨
      (origin, d'.tombstonePruneFrontier origin) ∈ frontiers) frontiers _ (.inl rfl) ?_
  intro d' ih p hp
  rw [tombstonePruneFrontier_advance]
  split_ifs with horigin
  · subst horigin
    rcases max_choice (d'.tombstonePruneFrontier p.1) p.2 with hmax | hmax
    · rwa [hmax]
    · rw [hmax]
      exact .inr hp
  · exact ih

lemma tombs_advanceAll (d : Disk K R) :
    (frontiers.foldl (fun d p => d.advanceTombstonePruneFrontier p.1 p.2) d).tombs = d.tombs := by
  refine foldlRecOn (motive := fun d' : Disk K R => d'.tombs = d.tombs) frontiers _ rfl ?_
  intro d' ih p _
  rw [tombs_advanceTombstonePruneFrontier, ih]

/-- Pruning the covered candidates leaves the rows that are no candidates or not covered, and no
frontier moves. -/
lemma pruneCovered_spec (frontiers : BTreeMap Bytes ℕ) : ∀ (candidates : List K) (d : Disk K R)
    (n : ℕ), let d' := (candidates.foldl (pruneCovered frontiers) (d, n)).1
    d'.tombPruned = d.tombPruned ∧ ∀ (k : K) record, d'.tombs[k]? = some record →
      d.tombs[k]? = some record ∧ (k ∈ candidates → coveredBy frontiers record = false)
  | [], d, n => ⟨rfl, fun k record h => ⟨h, by simp⟩⟩
  | c :: candidates, d, n => by
    simp only [foldl_cons]
    rcases pruneCovered_cases frontiers d n c with ⟨heq, huncovered⟩ | ⟨record, -, -, heq⟩
    · rw [heq]
      obtain ⟨hfrontiers, hrows⟩ := pruneCovered_spec frontiers candidates d n
      refine ⟨hfrontiers, fun k record hk => ⟨(hrows k record hk).1, fun hmem => ?_⟩⟩
      rcases mem_cons.mp hmem with rfl | hmem
      · exact huncovered record (hrows k record hk).1
      · exact (hrows k record hk).2 hmem
    · rw [heq]
      obtain ⟨hfrontiers, hrows⟩ :=
        pruneCovered_spec frontiers candidates (d.clearTombstone c) (n + 1)
      refine ⟨hfrontiers, fun k record hk => ?_⟩
      obtain ⟨hrow, hcovered⟩ := hrows k record hk
      rw [tombs_clearTombstone] at hrow
      split_ifs at hrow with hck
      refine ⟨hrow, fun hmem => ?_⟩
      rcases mem_cons.mp hmem with rfl | hmem
      · exact absurd rfl hck
      · exact hcovered hmem

variable {ad : RegAdapter K A R V S}

/-- **Adopting received frontiers keeps the invariant**: the tombstones they cover go first. -/
lemma FrontierInv.applyTombstonePruneFrontiers
    {s : CrdtMstStore K A R S} (h : FrontierInv s.disk) (frontiers : List (Bytes × ℕ)) :
    FrontierInv (s.applyTombstonePruneFrontiers ad frontiers).1.disk := by
  simp only [CrdtMstStore.applyTombstonePruneFrontiers]
  split_ifs with hempty hnewer
  · exact h
  · exact h
  all_goals
    dsimp only [rebuildMstFromDisk, bumpChangeClock]
    set newer := newerFrontiers s.disk (frontierByOrigin frontiers)
    obtain ⟨hfrontiers, hrows⟩ := pruneCovered_spec newer
      ((s.disk.tombs.toList.filter fun p => coveredBy newer p.2).map Prod.fst) s.disk 0
    set pruned := ((s.disk.tombs.toList.filter fun p => coveredBy newer p.2).map Prod.fst).foldl
      (pruneCovered newer) (s.disk, 0)
    have hpositive : FrontiersPositive pruned.1 := by
      rw [FrontiersPositive, hfrontiers]
      exact h.positive
    refine ⟨foldlRecOn (motive := FrontiersPositive) _ _ hpositive fun _ hd p _ =>
      hd.advance p.1 p.2, ?_⟩
    rintro k record hk ⟨hpos, hle⟩
    rw [tombs_advanceAll] at hk
    obtain ⟨hrow, huncovered⟩ := hrows k record hk
    have hold : ¬ IsPruned pruned.1 record := by
      simpa only [IsPruned, tombstonePruneFrontier, hfrontiers] using h.unpruned k record hrow
    rcases frontier_advanceAll newer.toList pruned.1 record.originActor with hsame | hmem
    · rw [hsame] at hpos hle
      exact hold ⟨hpos, hle⟩
    · -- a row at or below a received frontier was a candidate
      have hcovered : coveredBy newer record = true := by
        simp only [coveredBy, BTreeMap.mem_toList.mp hmem]
        exact decide_eq_true hle
      have hcandidate : k ∈ (s.disk.tombs.toList.filter fun p =>
          coveredBy newer p.2).map Prod.fst :=
        mem_map.mpr ⟨(k, record), mem_filter.mpr ⟨BTreeMap.mem_toList.mpr hrow, hcovered⟩, rfl⟩
      rw [huncovered hcandidate] at hcovered
      cases hcovered

/-! ## Collection passes -/

/-- A batch of candidates that takes, with a tombstone, all tombstones of the same origin with no
greater sequence. -/
def BatchClosed (d : Disk K R) (candidates : List (ℕ ×ₗ K)) : Prop :=
  ∀ indexKey ∈ candidates, ∀ record ∈ d.tombs[(ofLex indexKey).2]?, 0 < record.sequence →
    ∀ p ∈ d.tombs.toList, p.2.originActor = record.originActor →
      p.2.sequence ≤ record.sequence → observedKey p.1 p.2 ∈ candidates

instance (d : Disk K R) (candidates : List (ℕ ×ₗ K)) : Decidable (BatchClosed d candidates) :=
  inferInstanceAs (Decidable (∀ indexKey ∈ candidates, ∀ record ∈ d.tombs[(ofLex indexKey).2]?,
    0 < record.sequence → ∀ p ∈ d.tombs.toList, p.2.originActor = record.originActor →
      p.2.sequence ≤ record.sequence → observedKey p.1 p.2 ∈ candidates))

/-- **What a collection pass does**: the candidates' rows go, the others stay, and a frontier is
the old one or the sequence of a row that went. -/
lemma pruneGc_spec {d₀ : Disk K R} (h₀ : d₀.Consistent) {eligibleBefore : ℕ} :
    ∀ (candidates : List (ℕ ×ₗ K)) (d : Disk K R) (n : ℕ), d.Consistent → FrontiersPositive d →
      (∀ (k : K) record, d.tombs[k]? = some record → d₀.tombs[k]? = some record) →
      (∀ i ∈ candidates, (ofLex i).1 < eligibleBefore ∧ d₀.tombsByObserved[i]? = some ()) →
      let d' := (candidates.foldl (pruneTombstoneGcCandidate eligibleBefore) (d, n)).1
      FrontiersPositive d' ∧ (∀ (k : K) record, d'.tombs[k]? = some record →
          d.tombs[k]? = some record ∧ ∀ i ∈ candidates, (ofLex i).2 ≠ k) ∧
        ∀ origin, d'.tombstonePruneFrontier origin = d.tombstonePruneFrontier origin ∨
          ∃ i ∈ candidates, ∃ record, d.tombs[(ofLex i).2]? = some record ∧
            record.originActor = origin ∧ record.sequence = d'.tombstonePruneFrontier origin
  | [], d, n, _, hpos, _, _ => ⟨hpos, fun k record hk => ⟨hk, by simp⟩, fun origin => .inl rfl⟩
  | c :: candidates, d, n, hc, hpos, hsub, hcand => by
    simp only [foldl_cons]
    obtain ⟨hlt, hindex⟩ := hcand c (mem_cons_self ..)
    have hrest := fun i hi => hcand i (mem_cons_of_mem c hi)
    rcases pruneTombstoneGcCandidate_cases hc n hlt with ⟨heq, hstale⟩ | ⟨cleared, hrow, heq⟩
    · -- the row has gone already
      have hgone : ∀ record, d.tombs[(ofLex c).2]? ≠ some record := fun record hrow => by
        refine hstale record hrow ?_
        obtain ⟨record', hrow', hobs⟩ := (h₀.indexed (ofLex c).1 (ofLex c).2).mp hindex
        rw [hsub _ _ hrow] at hrow'
        cases hrow'
        rw [observedKey, hobs]
        rfl
      rw [heq]
      obtain ⟨hpos', hrows, hfrontier⟩ := pruneGc_spec h₀ candidates d n hc hpos hsub hrest
      refine ⟨hpos', fun k record hk => ⟨(hrows k record hk).1, fun i hi => ?_⟩, fun origin => ?_⟩
      · rcases mem_cons.mp hi with rfl | hi
        · rintro rfl
          exact hgone record (hrows _ record hk).1
        · exact (hrows k record hk).2 i hi
      · rcases hfrontier origin with hsame | ⟨i, hi, hrecord⟩
        · exact .inl hsame
        · exact .inr ⟨i, mem_cons_of_mem c hi, hrecord⟩
    · rw [heq]
      set d₁ := (d.clearTombstone (ofLex c).2).advanceTombstonePruneFrontier cleared.originActor
        cleared.sequence
      have hrow₁ : ∀ (k : K) record, d₁.tombs[k]? = some record →
          d.tombs[k]? = some record ∧ (ofLex c).2 ≠ k := by
        intro k record hk
        rw [tombs_advanceTombstonePruneFrontier, tombs_clearTombstone] at hk
        split_ifs at hk with hck
        exact ⟨hk, hck⟩
      have hpos₁ : FrontiersPositive d₁ :=
        FrontiersPositive.advance (d := d.clearTombstone (ofLex c).2) hpos _ _
      obtain ⟨hpos', hrows, hfrontier⟩ := pruneGc_spec h₀ candidates d₁ (n + 1)
        ((hc.clearTombstone _).advanceTombstonePruneFrontier _ _) hpos₁
        (fun k record hk => hsub k record (hrow₁ k record hk).1) hrest
      refine ⟨hpos', fun k record hk => ?_, fun origin => ?_⟩
      · obtain ⟨hk₁, hother⟩ := hrows k record hk
        refine ⟨(hrow₁ k record hk₁).1, fun i hi => ?_⟩
        rcases mem_cons.mp hi with rfl | hi
        · exact (hrow₁ k record hk₁).2
        · exact hother i hi
      · rcases hfrontier origin with hsame | ⟨i, hi, record, hrecord, horigin⟩
        · rw [hsame, tombstonePruneFrontier_advance]
          split_ifs with horigin
          · subst horigin
            rcases max_choice ((d.clearTombstone (ofLex c).2).tombstonePruneFrontier
              cleared.originActor) cleared.sequence with hmax | hmax
            · rw [hmax]
              exact .inl rfl
            · rw [hmax]
              exact .inr ⟨c, mem_cons_self .., cleared, hrow, rfl, rfl⟩
          · exact .inl rfl
        · exact .inr ⟨i, mem_cons_of_mem c hi, record, (hrow₁ _ record hrecord).1, horigin⟩

/-- **A collection pass whose batch is closed keeps the invariant.** -/
lemma FrontierInv.garbageCollectTombstones {s s' : CrdtMstStore K A R S}
    (h : FrontierInv s.disk) (hc : s.disk.Consistent) {policy : StoreGcPolicy}
    {barrier : GcBarrier} {now : ℕ} {report : StoreGcReport}
    (hclosed : barrier.rootSchemaVersion = s.rootSchemaVersion → BatchClosed s.disk
      (collectTombstoneGcCandidates s.disk (gcCutoff policy barrier now)
        policy.tombstoneBatchLimit))
    (hgc : s.garbageCollectTombstones ad policy barrier now = .ok (s', report)) :
    FrontierInv s'.disk := by
  simp only [CrdtMstStore.garbageCollectTombstones] at hgc
  set candidates := collectTombstoneGcCandidates s.disk (gcCutoff policy barrier now)
    policy.tombstoneBatchLimit
  have hpass : barrier.rootSchemaVersion = s.rootSchemaVersion → FrontierInv
      (candidates.foldl (pruneTombstoneGcCandidate (gcCutoff policy barrier now))
        (s.disk, 0)).1 := by
    intro hversion
    obtain ⟨hpos, hrows, hfrontier⟩ := pruneGc_spec hc candidates s.disk 0 hc h.positive
      (fun _ _ hk => hk) fun i hi => mem_collectTombstoneGcCandidates hi
    refine ⟨hpos, fun k record hk => ?_⟩
    rintro ⟨hposF, hle⟩
    obtain ⟨hrow, hother⟩ := hrows k record hk
    rcases hfrontier record.originActor with hsame | ⟨i, hi, cleared, hcleared, horigin, hseq⟩
    · rw [hsame] at hposF hle
      exact h.unpruned k record hrow ⟨hposF, hle⟩
    · -- the batch was closed, so this row would have been in it
      rw [← hseq] at hposF hle
      have hmem := hclosed hversion i hi cleared (Option.mem_def.mpr hcleared) hposF (k, record)
        (BTreeMap.mem_toList.mpr hrow) horigin.symm hle
      exact hother _ hmem rfl
  split_ifs at hgc with hlimit hversion hnone hpruned <;>
    obtain ⟨rfl, -⟩ := Prod.mk.inj (Except.ok.inj hgc)
  · exact h
  · exact h
  · exact hpass (not_not.mp hversion)
  · exact hpass (not_not.mp hversion)

/-! ## Runs -/

section Runs

variable [DecidableEq R] {ad : RegAdapter K A R V S} {s : CrdtMstStore K A R S}

/-- What an operation needs for the frontiers to stay behind the tombstones. A new local delete
gets a sequence above this actor's own frontier; the batch of a collection pass is closed. -/
def KeepsFrontier (ad : RegAdapter K A R V S) (s : CrdtMstStore K A R S) :
    StoreEvent K A R V S → Prop
  | .op (.remove k _) => s.disk.tombs[k]? = none →
      s.disk.tombstonePruneFrontier (ad.actorToBytes s.actor) < nextTombSeq s.disk
  | .op (.garbageCollectTombstones policy barrier now) =>
    barrier.rootSchemaVersion = s.rootSchemaVersion → BatchClosed s.disk
      (collectTombstoneGcCandidates s.disk (gcCutoff policy barrier now)
        policy.tombstoneBatchLimit)
  | _ => True

omit [DecidableEq R] in
lemma FrontierInv.remove (h : FrontierInv s.disk) (k : K) (now : ℕ)
    (hseq : s.disk.tombs[k]? = none →
      s.disk.tombstonePruneFrontier (ad.actorToBytes s.actor) < nextTombSeq s.disk) :
    FrontierInv (s.remove ad k now).1.disk := by
  simp only [CrdtMstStore.remove]
  cases hk : s.disk.tombs[k]? with
  | some tombstone =>
    split_ifs
    · exact ⟨h.positive, h.unpruned⟩
    · exact h
  | none =>
    have hinsert := insertTombstone_removeValue
      (d := { s.disk with tombSeq := some (nextTombSeq s.disk) }) hk
      (s.localTombstone ad (nextTombSeq s.disk) now)
    simp only [upsertLeaves, bumpChangeClock, hinsert]
    have hallocated : FrontierInv { s.disk with tombSeq := some (nextTombSeq s.disk) } :=
      ⟨h.positive, h.unpruned⟩
    refine hallocated.writeTombstone k ?_
    rintro ⟨-, hle⟩
    exact absurd (hseq hk) (not_lt.mpr hle)

lemma FrontierInv.applyOp (h : FrontierInv s.disk) (hc : s.disk.Consistent)
    (op : StoreOp K R V S) (hop : KeepsFrontier ad s (.op op)) :
    FrontierInv (applyOp ad s op).disk := by
  cases op with
  | remove k now => exact h.remove k now hop
  | applyTombstonePruneFrontiers frontiers => exact h.applyTombstonePruneFrontiers frontiers
  | garbageCollectTombstones policy barrier now =>
    simp only [CrdtMstStore.applyOp]
    cases hgc : s.garbageCollectTombstones ad policy barrier now with
    | error e => exact h
    | ok result => exact h.garbageCollectTombstones hc hop hgc
  | _ =>
    exact applyOp_rows (P := FrontierInv) h hc (fun _ k reg hd => hd.writeValue k reg)
      (fun d k incoming hd hnew => hd.writeTombstone k (by
        -- merged with one that is still above the frontier
        cases hrow : d.tombs[k]? with
        | none => exact hnew
        | some record =>
          simp only [mergeTombstoneRecords]
          split_ifs
          · exact hnew
          · exact hd.unpruned k _ hrow))
      (fun _ k hd => hd.purgeKey k) _ trivial

/-- The store as a transition system: every event can happen in every state. -/
def eventStep (ad : RegAdapter K A R V S) (s : CrdtMstStore K A R S)
    (event : StoreEvent K A R V S) : Option (CrdtMstStore K A R S) :=
  some (applyEvent ad s event)

/-- **Prune-frontier invariant.** In every state reached from an empty store by steps that meet
`KeepsFrontier`, tombstones are above the stored frontier of their origin; so a received frontier
that is not ahead of the stored one covers no tombstone. -/
theorem frontier_below_tombstones (ad : RegAdapter K A R V S) (actor : A)
    (preserveLocalTombs : Bool) {t : CrdtMstStore K A R S}
    (h : Reaches (eventStep ad) (KeepsFrontier ad) (build empty actor preserveLocalTombs) t) :
    (∀ (k : K) (record : TombstoneRecord) (frontier : ℕ), t.disk.tombs[k]? = some record →
      t.disk.tombPruned[record.originActor]? = some frontier → frontier < record.sequence) ∧
    ∀ frontiers : List (Bytes × ℕ),
      (∀ p ∈ frontiers, ∃ stored, t.disk.tombPruned[p.1]? = some stored ∧ p.2 ≤ stored) →
      ∀ (k : K) (record : TombstoneRecord), t.disk.tombs[k]? = some record →
        coveredBy (frontierByOrigin frontiers) record = false := by
  have hinv : FrontierInv t.disk ∧ t.disk.Consistent := by
    refine h.invariant (P := fun s => FrontierInv s.disk ∧ s.disk.Consistent)
      ⟨frontierInv_empty, consistent_empty⟩ ?_
    rintro s s' event ⟨hs, hc⟩ hok hstep
    cases hstep
    cases event with
    | op op => exact ⟨hs.applyOp hc op hok, consistent_applyOp ad hc op⟩
    | reopen actor preserveLocalTombs => exact ⟨hs, hc⟩
    | rebuildAtVersion version => exact ⟨hs, hc⟩
  have hbelow : ∀ (k : K) (record : TombstoneRecord) (frontier : ℕ),
      t.disk.tombs[k]? = some record → t.disk.tombPruned[record.originActor]? = some frontier →
        frontier < record.sequence := by
    intro k record frontier hrow hstored
    have hunpruned := hinv.1.unpruned k record hrow
    have hpositive := hinv.1.positive record.originActor frontier hstored
    simp only [IsPruned, tombstonePruneFrontier, hstored, Option.getD_some] at hunpruned
    omega
  refine ⟨hbelow, fun frontiers hold k record hrow => ?_⟩
  simp only [coveredBy]
  cases hreceived : (frontierByOrigin frontiers)[record.originActor]? with
  | none => rfl
  | some received =>
    obtain ⟨stored, hstored, hle⟩ :=
      hold _ (mem_of_frontierByOrigin frontiers _ received hreceived).2
    have hlt := hbelow k record stored hrow hstored
    simp only [decide_eq_false_iff_not, not_le]
    omega

instance (event : StoreEvent K A R V S) : Decidable (KeepsFrontier ad s event) :=
  match event with
  | .op (.remove k _) => inferInstanceAs (Decidable (s.disk.tombs[k]? = none →
      s.disk.tombstonePruneFrontier (ad.actorToBytes s.actor) < nextTombSeq s.disk))
  | .op (.garbageCollectTombstones policy barrier now) =>
    inferInstanceAs (Decidable (barrier.rootSchemaVersion = s.rootSchemaVersion →
      BatchClosed s.disk (collectTombstoneGcCandidates s.disk (gcCutoff policy barrier now)
        policy.tombstoneBatchLimit)))
  | .op (.updateValue ..) | .op (.upsertManyIf ..) | .op (.purgeLocal ..)
  | .op (.mergeRegister ..) | .op (.applyTombstone ..) | .op (.applyDeltaChunkUpdateMst ..)
  | .op (.deltaApplySession ..) | .op (.applyTombstonePruneFrontiers ..)
  | .op (.compactRegisters ..) | .reopen .. | .rebuildAtVersion .. =>
    inferInstanceAs (Decidable True)

end Runs

/-- Two deletes in the same millisecond, and a collection pass over one row: the age index breaks
the tie by key, so the pass takes the second delete first. -/
def tiedDeletes : List (StoreEvent UuidKey UuidKey (MvReg ℕ UuidKey) ℕ (MvRegSnapshot ℕ)) :=
  [.op (.remove (sampleUuid 2) 10), .op (.remove (sampleUuid 1) 10),
    .op (.garbageCollectTombstones { tombstoneBatchLimit := 1 } ⟨20, 1⟩ 30)]

/-- **The first delete is stranded**: its sequence is below the frontier the pass has stored, and
receiving that frontier from a peer does not remove it. -/
theorem gc_batch_strands_tombstone :
    let actor := sampleUuid 5
    ∃ t, Reaches (eventStep sampleAdapter) anyStep (build empty actor false) t ∧
      (t.disk.tombs[sampleUuid 2]? = some ⟨1, actor.val, 10⟩ ∧
        t.disk.tombPruned[actor.val]? = some 2 ∧
        (t.applyTombstonePruneFrontiers sampleAdapter [(actor.val, 2)]).2 = 0 ∧
        coveredBy (frontierByOrigin [(actor.val, 2)]) ⟨1, actor.val, 10⟩ = true) :=
  exists_reaches_of_runActions tiedDeletes (by decide +kernel)

/-- With room for both deletes in the batch, and a third one after the pass, the tombstone left is
above the frontier. -/
theorem frontier_below_tombstones_closedBatch :
    let actor := sampleUuid 5
    ∃ t, Reaches (eventStep sampleAdapter) (KeepsFrontier sampleAdapter)
        (build empty actor false) t ∧
      t.disk.tombPruned[actor.val]? = some 2 ∧
      ∀ (k : UuidKey) (record : TombstoneRecord) (frontier : ℕ), t.disk.tombs[k]? = some record →
        t.disk.tombPruned[record.originActor]? = some frontier → frontier < record.sequence := by
  intro actor
  exact (exists_reaches_of_runActions [.op (.remove (sampleUuid 2) 10),
    .op (.remove (sampleUuid 1) 10),
      .op (.garbageCollectTombstones { tombstoneBatchLimit := 2 } ⟨20, 1⟩ 30),
      .op (.remove (sampleUuid 3) 40)] (by decide +kernel)).imp fun t ⟨hreach, hfrontier⟩ =>
    ⟨hreach, hfrontier, (frontier_below_tombstones sampleAdapter actor false hreach).1⟩

end Mantissa.CrdtMstStore
