import Mantissa.Replicated.Winner
import Mantissa.Store.SecretKeySync

/-!
# The current master key of a scope

A register of current-key rows may show several at once, and `currentFromSnapshot` settles on one by
a fold: a row that supersedes the one held so far replaces it. Rows that share lineage are compared
by generation; all others by their origin, generation and key. The first rule knows some pairs
only, so superseding runs in circles: a rotation supersedes the key a cluster operation made, from
which it descends, another operation's key supersedes the rotation, and the first one supersedes
that.

The fold therefore depends on the order of the rows, and what it returns may be superseded by a row
it has passed, unless one row supersedes all others (`current_unbeaten_iff`). Compaction ranks by
origin, generation and key only. It keeps the selected row, in a register and in whatever is later
left of it, exactly if no two rows tie and none descends from an older operation's row
(`current_kept_iff`).
-/

namespace Mantissa

open MvReg List SecretMasterKeySyncRecord CrdtMstStore

open Workload (selectBest selectBest_eq_none)

/-! ## Superseding -/

/-- `current_rows_share_lineage`. -/
def currentRowsShareLineage (left right : SecretMasterKeyCurrent) : Bool :=
  decide (left.keyId = right.keyId) || decide (right.keyId ∈ left.parentKeyIds) ||
    decide (left.keyId ∈ right.parentKeyIds) ||
    left.parentKeyIds.any fun parent => decide (parent ∈ right.parentKeyIds)

/-- `current_supersedes`. -/
def currentSupersedes (candidate current : SecretMasterKeyCurrent) : Bool :=
  if currentRowsShareLineage candidate current ∧ candidate.generation ≠ current.generation then
    decide (current.generation < candidate.generation)
  else
    match compare candidate.originRank.variant current.originRank.variant with
    | .eq => decide (toLex (current.generation, current.keyId) <
        toLex (candidate.generation, candidate.keyId))
    | order => order.isGT

variable (rows : List SecretMasterKeyCurrent)

/-- The fold of `current_from_snapshot` over the rows. -/
def foldCurrents : Option SecretMasterKeyCurrent :=
  selectBest (fun winner candidate => currentSupersedes candidate winner) rows

/-- The rows the fold visits. -/
def SecretMasterKeySyncRecord.current? : SecretMasterKeySyncRecord → Option SecretMasterKeyCurrent
  | .current row => some row
  | _ => none

/-- `current_from_snapshot`. -/
def currentFromSnapshot (snapshot : List SecretMasterKeySyncRecord) :
    Option SecretMasterKeyCurrent :=
  foldCurrents (snapshot.filterMap current?)

variable {a b : SecretMasterKeyCurrent}

lemma currentRowsShareLineage_comm (a b : SecretMasterKeyCurrent) :
    currentRowsShareLineage a b = currentRowsShareLineage b a := by
  have hany : a.parentKeyIds.any (fun parent => decide (parent ∈ b.parentKeyIds)) =
      b.parentKeyIds.any (fun parent => decide (parent ∈ a.parentKeyIds)) := by
    rw [Bool.eq_iff_iff]
    simp only [any_eq_true, decide_eq_true_eq]
    exact exists_congr fun parent => and_comm
  unfold currentRowsShareLineage
  rw [hany, Bool.or_right_comm (decide (a.keyId = b.keyId))]
  simp [eq_comm]

/-- Rows in one lineage go by generation, all others by origin, generation and key. -/
lemma currentSupersedes_iff : currentSupersedes a b = true ↔
    if currentRowsShareLineage a b ∧ a.generation ≠ b.generation then b.generation < a.generation
    else toLex (b.originRank.variant, toLex (b.generation, b.keyId)) <
      toLex (a.originRank.variant, toLex (a.generation, a.keyId)) := by
  unfold currentSupersedes
  split_ifs with h
  · rw [decide_eq_true_eq]
  · have hlex : toLex (b.originRank.variant, toLex (b.generation, b.keyId)) <
          toLex (a.originRank.variant, toLex (a.generation, a.keyId)) ↔
        b.originRank.variant < a.originRank.variant ∨ b.originRank.variant = a.originRank.variant ∧
            toLex (b.generation, b.keyId) < toLex (a.generation, a.keyId) :=
      Prod.Lex.toLex_lt_toLex
    rw [hlex]
    rcases lt_trichotomy a.originRank.variant b.originRank.variant with hlt | heq | hlt
    · simp [Nat.compare_eq_lt.mpr hlt, hlt.not_gt, hlt.ne']
    · simp [heq]
    · simp [Nat.compare_eq_gt.mpr hlt, hlt]

lemma currentSupersedes_asymm (h : currentSupersedes a b = true) :
    currentSupersedes b a = false := by
  rw [Bool.eq_false_iff]
  intro h'
  rw [currentSupersedes_iff] at h h'
  rw [currentRowsShareLineage_comm b a] at h'
  split_ifs at h h' with h₁ h₂ h₂
  · exact lt_asymm h h'
  · exact h₂ ⟨h₁.1, h₁.2.symm⟩
  · exact h₁ ⟨h₂.1, h₂.2.symm⟩
  · exact lt_asymm h h'

/-! ## Folding in any order -/

/-- One row supersedes all others. -/
def HasLeader (rows : Finset SecretMasterKeyCurrent) : Prop :=
  ∃ leader ∈ rows, ∀ row ∈ rows, row ≠ leader → currentSupersedes leader row = true

/-- A leader is returned in every order. -/
lemma foldCurrents_of_leader {rows : List SecretMasterKeyCurrent} {leader : SecretMasterKeyCurrent}
    (hmem : leader ∈ rows)
    (hleads : ∀ row ∈ rows, row ≠ leader → currentSupersedes leader row = true) :
    foldCurrents rows = some leader :=
  selectBest_of_beats_all hmem fun row hrow hne =>
    ⟨hleads row hrow hne, currentSupersedes_asymm (hleads row hrow hne)⟩

/-- A row that is returned right after another one came first supersedes it. -/
lemma supersedes_of_foldCurrents {first second : SecretMasterKeyCurrent}
    {rest : List SecretMasterKeyCurrent} (hne : first ≠ second) (hrest : second ∉ rest)
    (h : foldCurrents (first :: second :: rest) = some second) :
    currentSupersedes second first = true := by
  by_contra hnot
  rw [foldCurrents, selectBest_cons_cons, if_neg hnot] at h
  rcases mem_cons.mp (mem_of_selectBest h) with heq | hmem
  · exact hne heq.symm
  · exact hrest hmem

lemma currentFromSnapshot_map : currentFromSnapshot (rows.map .current) = foldCurrents rows := by
  rw [currentFromSnapshot, filterMap_map]
  exact congrArg foldCurrents filterMap_some

/-- **When the selected row is unbeaten.** For every finite set of rows: the selected one is
superseded by none, and every order of folding gives it, exactly if the set is empty or one row
supersedes all others. -/
theorem current_unbeaten_iff (rows : Finset SecretMasterKeyCurrent) :
    ((∀ best, currentFromSnapshot ((rows.sort (· ≤ ·)).map .current) = some best →
        ∀ row ∈ rows, currentSupersedes row best = false) ∧
      ∀ order : List SecretMasterKeyCurrent, order.Nodup → order.toFinset = rows →
        foldCurrents order = currentFromSnapshot ((rows.sort (· ≤ ·)).map .current)) ↔
    (rows.Nonempty → HasLeader rows) := by
  rw [currentFromSnapshot_map]
  constructor
  · rintro ⟨-, horder⟩ hne
    obtain ⟨best, hbest⟩ : ∃ best, foldCurrents (rows.sort (· ≤ ·)) = some best := by
      rw [← Option.isSome_iff_exists, Option.isSome_iff_ne_none, ne_eq, foldCurrents,
        selectBest_eq_none]
      intro hnil
      obtain ⟨row, hrow⟩ := hne
      exact absurd ((Finset.mem_sort (· ≤ ·)).mpr hrow) (hnil ▸ not_mem_nil)
    have hmem : best ∈ rows := (Finset.mem_sort (· ≤ ·)).mp (mem_of_selectBest hbest)
    refine ⟨best, hmem, fun row hrow hrowne => ?_⟩
    -- fold `row` first and the selected row next
    have hnot : best ∉ ((rows.erase row).erase best).toList := by simp
    refine supersedes_of_foldCurrents hrowne hnot ((horder _ ?_ ?_).trans hbest)
    · simp [hrowne, Finset.nodup_toList]
    · ext other
      by_cases h₁ : other = row <;> by_cases h₂ : other = best <;> simp_all
  · intro hleader
    rcases rows.eq_empty_or_nonempty with rfl | hne
    · refine ⟨fun best hbest => ?_, fun order _ hrows => ?_⟩
      · simp [foldCurrents, selectBest] at hbest
      · rw [toFinset_eq_empty_iff] at hrows
        rw [hrows, Finset.sort_empty]
    · obtain ⟨leader, hmem, hleads⟩ := hleader hne
      have hfold : ∀ order : List SecretMasterKeyCurrent, order.toFinset = rows →
          foldCurrents order = some leader := by
        rintro order rfl
        exact foldCurrents_of_leader (mem_toFinset.mp hmem) fun row hrow =>
          hleads row (mem_toFinset.mpr hrow)
      have hsorted := hfold (rows.sort (· ≤ ·)) (Finset.sort_toFinset rows _)
      refine ⟨fun best hbest row hrow => ?_, fun order _ hrows =>
        (hfold order hrows).trans hsorted.symm⟩
      obtain rfl := Option.some.inj (hsorted.symm.trans hbest)
      by_cases hrowne : row = leader
      · rw [hrowne, Bool.eq_false_iff]
        exact fun h => Bool.false_ne_true ((currentSupersedes_asymm h).symm.trans h)
      · exact currentSupersedes_asymm (hleads row hrow hrowne)

/-- The three rows of a circle: a rotation of generation 3 that descends from the key of operation
7, the key of operation 6, and the key of operation 7. -/
def sampleCurrents : List SecretMasterKeyCurrent :=
  let view : ClusterViewId := ⟨sampleUuid 0, 0⟩
  [⟨view, sampleUuid 1, 3, ⊥, [sampleUuid 3]⟩,
    ⟨view, sampleUuid 2, 1, sampleUuid 6, []⟩,
    ⟨view, sampleUuid 3, 2, sampleUuid 7, []⟩]

theorem current_unbeaten_sample :
    foldCurrents (sampleCurrents.drop 1).reverse =
      currentFromSnapshot (((sampleCurrents.drop 1).toFinset.sort (· ≤ ·)).map .current) := by
  refine ((current_unbeaten_iff (sampleCurrents.drop 1).toFinset).mpr fun _ => ?_).2 _
    (by decide +kernel) (by decide +kernel)
  exact ⟨sampleCurrents.getLast (by decide), by decide +kernel, by decide +kernel⟩

/-- The selected row is superseded by its own descendant, and the opposite order of folding returns
that one. -/
theorem descendant_passed_over :
    ∃ rotation operation : SecretMasterKeyCurrent,
      currentFromSnapshot ((sampleCurrents.toFinset.sort (· ≤ ·)).map .current) = some operation ∧
      rotation ∈ sampleCurrents.toFinset ∧ currentSupersedes rotation operation = true ∧
      foldCurrents sampleCurrents.reverse = some rotation ∧ rotation ≠ operation := by
  have hsort : sampleCurrents.toFinset.sort (· ≤ ·) = sampleCurrents :=
    (toFinset_sort (· ≤ ·) (by decide +kernel)).mpr (by decide +kernel)
  rw [hsort]
  refine ⟨sampleCurrents.head (by decide), sampleCurrents.getLast (by decide), ?_⟩
  decide +kernel

/-! ## Compaction -/

/-- The register after a policy has been asked to compact it. -/
def MvRegCompactionPolicy.compacted {V A : Type*} [LinearOrder A]
    (policy : MvRegCompactionPolicy V A) (reg : MvReg V A) (maxValues : ℕ) : MvReg V A :=
  match policy.compact reg maxValues with
  | .ok (some rewritten) => rewritten
  | _ => reg

lemma compacted_secretMasterKeyCompaction (reg : MvReg SecretMasterKeySyncRecord UuidKey) (n : ℕ) :
    secretMasterKeyCompaction.compacted reg n =
      (reg.compactWith n secretMasterKeyCompactionRank).1 := by
  have hskip : ∀ r : MvReg SecretMasterKeySyncRecord UuidKey × Bool,
      r = reg.compactWith n secretMasterKeyCompactionRank → r.2 = false → r.1 = reg := by
    rintro r rfl hfalse
    rw [compactWith] at hfalse ⊢
    split_ifs at hfalse ⊢
    rfl
  simp only [MvRegCompactionPolicy.compacted, secretMasterKeyCompaction, rankedMvRegCompaction]
  cases hchanged : (reg.compactWith n secretMasterKeyCompactionRank).2 with
  | true => rfl
  | false => exact (hskip _ rfl hchanged).symm

/-- What compaction ranks a current-key row by, before the record itself. -/
def currentStanding (row : SecretMasterKeyCurrent) : ℕ ×ₗ ℕ ×ₗ UuidKey :=
  toLex (row.originRank.variant, toLex (row.generation, row.keyId))

lemma current_le_current_iff :
    current a ≤ current b ↔ a ≤ b := by
  change (current a).variant ≤ (current b).variant ↔
    a ≤ b
  rw [variant, variant, Sum.Lex.inr_le_inr_iff,
    Sum.Lex.inr_le_inr_iff]

variable {clock clock' : VectorClock UuidKey}

lemma standing_le_of_rank_le (h : secretMasterKeyCompactionRank ⟨clock, .current a⟩ ≤
      secretMasterKeyCompactionRank ⟨clock', .current b⟩) :
    toLex (currentStanding a, a) ≤ toLex (currentStanding b, b) := by
  simp only [secretMasterKeyCompactionRank, Sum.Lex.inr_le_inr_iff, Prod.Lex.toLex_le_toLex,
    current_le_current_iff] at h
  simp only [currentStanding, Prod.Lex.toLex_le_toLex, Prod.Lex.toLex_lt_toLex,
    EmbeddingLike.apply_eq_iff_eq, Prod.mk.injEq]
  rcases h with h | ⟨h₁, h | ⟨h₂, h | ⟨h₃, h⟩⟩⟩
  · exact .inl (.inl h)
  · exact .inl (.inr ⟨h₁, .inl h⟩)
  · exact .inl (.inr ⟨h₁, .inr ⟨h₂, h⟩⟩)
  · exact .inr ⟨⟨h₁, h₂, h₃⟩, h⟩

/-- No two rows stand alike, and none of routine origin has a higher generation than a row of a
cluster operation that it shares lineage with. -/
def RowsAgree (records : List SecretMasterKeySyncRecord) : Prop :=
  ∀ a b, .current a ∈ records → .current b ∈ records →
    (currentStanding a = currentStanding b → a = b) ∧
    ¬ (a.originRank = .routine ∧ b.originRank = .clusterOperation ∧
      currentRowsShareLineage a b = true ∧ b.generation < a.generation)

variable {records : List SecretMasterKeySyncRecord}

lemma mem_currents :
    a ∈ records.filterMap current? ↔ .current a ∈ records := by
  rw [mem_filterMap]
  constructor
  · rintro ⟨record, hrecord, heq⟩
    cases record with
    | descriptor d => cases heq
    | grant g => cases heq
    | current row =>
      cases heq
      exact hrecord
  · exact fun h => ⟨_, h, rfl⟩

lemma currentFromSnapshot_of_leader (hmem : .current a ∈ records)
    (hleads : ∀ row, .current row ∈ records → row ≠ a → currentSupersedes a row = true) :
    currentFromSnapshot records = some a :=
  foldCurrents_of_leader (mem_currents.mpr hmem) fun row hrow => hleads row (mem_currents.mp hrow)

lemma currentFromSnapshot_eq_none
    (h : ∀ row, .current row ∉ records) : currentFromSnapshot records = none :=
  selectBest_eq_none.mpr (eq_nil_iff_forall_not_mem.mpr fun row hrow =>
    h row (mem_currents.mp hrow))

lemma originRank_lt_iff {o o' : SecretMasterKeyCurrentOriginRank} :
    o.variant < o'.variant ↔ o = .routine ∧ o' = .clusterOperation := by
  cases o <;> cases o' <;> simp [SecretMasterKeyCurrentOriginRank.variant]

/-- Where rows agree, the one that stands highest supersedes the others. -/
lemma supersedes_of_standing_le (hagree : RowsAgree records)
    (ha : .current a ∈ records) (hb : .current b ∈ records) (hne : b ≠ a)
    (hle : toLex (currentStanding b, b) ≤ toLex (currentStanding a, a)) :
    currentSupersedes a b = true := by
  have hlt : currentStanding b < currentStanding a := by
    rcases Prod.Lex.toLex_le_toLex.mp hle with hlt | ⟨heq, -⟩
    · exact hlt
    · exact absurd ((hagree b a hb ha).1 heq) hne
  rw [currentSupersedes_iff]
  split_ifs with hlineage
  · by_contra hge
    -- `b` is of a later generation, so it can only stand lower by its origin
    have hgen : a.generation < b.generation := by omega
    have horigin : b.originRank.variant < a.originRank.variant := by
      rcases Prod.Lex.toLex_lt_toLex.mp hlt with h | ⟨-, h⟩
      · exact h
      · rcases Prod.Lex.toLex_lt_toLex.mp h with h | ⟨h, -⟩
        · exact absurd h hgen.asymm
        · exact absurd h hgen.ne'
    obtain ⟨hroutine, hoperation⟩ := originRank_lt_iff.mp horigin
    refine (hagree b a hb ha).2 ⟨hroutine, hoperation, ?_, hgen⟩
    rw [currentRowsShareLineage_comm]
    exact hlineage.1
  · exact hlt

/-- Where rows agree, compaction keeps the selected one. -/
lemma current_kept_of_agree {s : MvReg SecretMasterKeySyncRecord UuidKey}
    (hagree : RowsAgree s.readValues) {n : ℕ} (hn : 1 ≤ n) :
    currentFromSnapshot (s.compactWith n secretMasterKeyCompactionRank).1.snapshot.vals =
      currentFromSnapshot s.snapshot.vals := by
  by_cases hnone : ∀ row, .current row ∉ s.readValues
  · by_cases hne : s.entries = []
    · rw [compactWith, if_pos (.inr (by simp [hne]))]
    · obtain ⟨top, -, hcompacts⟩ := compactWith_compacts secretMasterKeyCompactionRank
        (Nat.one_le_iff_ne_zero.mp hn) hne
      rw [currentFromSnapshot_eq_none, currentFromSnapshot_eq_none]
      · exact fun row hrow => hnone row (mem_vals_snapshot.mp hrow)
      · exact fun row hrow =>
          hnone row (hcompacts.readValues_subset (mem_vals_snapshot.mp hrow))
  · push Not at hnone
    obtain ⟨row, hrow⟩ := hnone
    obtain ⟨⟨clock, _⟩, he, rfl⟩ := mem_readValues.mp hrow
    obtain ⟨top, htop, hcompacts⟩ := compactWith_compacts secretMasterKeyCompactionRank
      (Nat.one_le_iff_ne_zero.mp hn) (ne_nil_of_mem he)
    have hrank : ∀ e ∈ s.entries, secretMasterKeyCompactionRank e ≤
        secretMasterKeyCompactionRank top :=
      fun e he => Prod.Lex.monotone_fst _ _ (htop e he)
    -- only a current-key row ranks as high as one
    obtain ⟨leader, hleader⟩ : ∃ row, top.value = .current row := by
      have hle := hrank _ he
      cases hvalue : top.value with
      | descriptor d => simp [secretMasterKeyCompactionRank, hvalue] at hle
      | grant g => simp [secretMasterKeyCompactionRank, hvalue] at hle
      | current row => exact ⟨row, rfl⟩
    have hmem : .current leader ∈ s.readValues :=
      mem_readValues.mpr ⟨top, hcompacts.top_mem, hleader⟩
    have hleads : ∀ row, .current row ∈ s.readValues → row ≠ leader →
        currentSupersedes leader row = true := by
      intro row hrow hne
      obtain ⟨⟨clock, _⟩, he, rfl⟩ := mem_readValues.mp hrow
      have hle := hrank _ he
      obtain ⟨clock', value⟩ := top
      subst hleader
      exact supersedes_of_standing_le hagree hmem hrow hne (standing_le_of_rank_le hle)
    rw [currentFromSnapshot_of_leader (a := leader), currentFromSnapshot_of_leader (a := leader)]
    · exact mem_vals_snapshot.mpr hmem
    · exact fun row hrow => hleads row (mem_vals_snapshot.mp hrow)
    · exact mem_vals_snapshot.mpr (hleader ▸ hcompacts.top_mem_readValues)
    · exact fun row hrow =>
        hleads row (hcompacts.readValues_subset (mem_vals_snapshot.mp hrow))

/-- Of two rows compaction to one leaves the one that stands higher. -/
lemma selected_of_pair_kept {r : MvReg SecretMasterKeySyncRecord UuidKey}
    (he : ⟨clock, .current a⟩ ∈ r.entries) (hf : ⟨clock', .current b⟩ ∈ r.entries)
    (hne : (⟨clock, .current a⟩ : MvRegEntry SecretMasterKeySyncRecord UuidKey) ≠
      ⟨clock', .current b⟩) (hlt : toLex (currentStanding a, a) < toLex (currentStanding b, b))
    (hkept : currentFromSnapshot
        ((r.pair he hf hne).compactWith 1 secretMasterKeyCompactionRank).1.snapshot.vals =
      currentFromSnapshot (r.pair he hf hne).snapshot.vals) :
    currentFromSnapshot (r.pair he hf hne).snapshot.vals = some b := by
  obtain ⟨top, htop, hcompacts⟩ := compactWith_compacts (r := r.pair he hf hne)
    secretMasterKeyCompactionRank Nat.one_ne_zero (cons_ne_nil _ _)
  have htopf : top = ⟨clock', .current b⟩ := by
    rcases mem_pair.mp hcompacts.top_mem with rfl | rfl
    · have hle := htop _ (mem_cons_of_mem _ (mem_singleton_self _))
      exact absurd (standing_le_of_rank_le (Prod.Lex.monotone_fst _ _ hle)) (not_le.mpr hlt)
    · rfl
  rw [← hkept]
  have hone := hcompacts.readValues_one
  rw [htopf] at hone
  refine currentFromSnapshot_of_leader ?_ fun row hrow hrowne => ?_
  · rw [mem_vals_snapshot, hone]
    exact mem_singleton_self _
  · rw [mem_vals_snapshot, hone, mem_singleton] at hrow
    exact absurd (current.inj hrow) hrowne

/-- The first of two rows that stand alike is selected. -/
lemma foldCurrents_pair_of_standing_eq (h : currentStanding a = currentStanding b) :
    foldCurrents [a, b] = some a := by
  have hnot : ¬ currentSupersedes b a = true := by
    rw [currentSupersedes_iff, if_neg]
    · exact fun hlt => hlt.ne h
    · simp only [currentStanding, EmbeddingLike.apply_eq_iff_eq, Prod.mk.injEq] at h
      exact fun hgen => hgen.2 h.2.1.symm
  rw [foldCurrents, selectBest_cons_cons, if_neg hnot]
  rfl

/-- **When compaction keeps the current key.** In a register and in every register of some of its
rows, compaction to any number of values leaves the selected row as it is exactly if the rows
agree. -/
theorem current_kept_iff (r : MvReg SecretMasterKeySyncRecord UuidKey) :
    (∀ s : MvReg SecretMasterKeySyncRecord UuidKey, (∀ v ∈ s.readValues, v ∈ r.readValues) →
      ∀ n, 1 ≤ n → currentFromSnapshot (secretMasterKeyCompaction.compacted s n).snapshot.vals =
        currentFromSnapshot s.snapshot.vals) ↔
    RowsAgree r.readValues := by
  simp only [compacted_secretMasterKeyCompaction]
  constructor
  · intro hkept a b ha hb
    obtain ⟨⟨clock, _⟩, he, rfl⟩ := mem_readValues.mp ha
    obtain ⟨⟨clock', _⟩, hf, rfl⟩ := mem_readValues.mp hb
    -- for two different rows the statement is about the register of the two
    have hpair : ∀ {x y : SecretMasterKeyCurrent} {c c' : VectorClock UuidKey}
        (hx : ⟨c, .current x⟩ ∈ r.entries) (hy : ⟨c', .current y⟩ ∈ r.entries) (hxy : x ≠ y),
        toLex (currentStanding x, x) < toLex (currentStanding y, y) →
        currentFromSnapshot (r.pair hx hy fun h =>
          hxy (current.inj (MvRegEntry.mk.inj h).2)).snapshot.vals =
            some y := by
      intro x y c c' hx hy hxy hlt
      refine selected_of_pair_kept hx hy _ hlt (hkept _ ?_ 1 le_rfl)
      intro v hv
      rcases mem_pair.mp hv with rfl | rfl
      · exact mem_readValues.mpr ⟨_, hx, rfl⟩
      · exact mem_readValues.mpr ⟨_, hy, rfl⟩
    have htie : ∀ {x y : SecretMasterKeyCurrent} {c c' : VectorClock UuidKey},
        ⟨c, .current x⟩ ∈ r.entries → ⟨c', .current y⟩ ∈ r.entries →
        currentStanding x = currentStanding y → ¬ x < y := by
      intro x y c c' hx hy hstanding hlt
      have hselected := hpair hx hy hlt.ne (Prod.Lex.toLex_lt_toLex.mpr (.inr ⟨hstanding, hlt⟩))
      have hrecords : current x < .current y :=
        lt_of_le_not_ge (current_le_current_iff.mpr hlt.le)
          fun hge => hlt.not_ge (current_le_current_iff.mp hge)
      rw [vals_snapshot_of_pair rfl hrecords] at hselected
      have hfold : foldCurrents [x, y] = some y := hselected
      rw [foldCurrents_pair_of_standing_eq hstanding] at hfold
      exact hlt.ne (Option.some.inj hfold)
    refine ⟨fun hstanding => ?_, ?_⟩
    · exact le_antisymm (not_lt.mp (htie hf he hstanding.symm)) (not_lt.mp (htie he hf hstanding))
    · rintro ⟨hroutine, hoperation, hlineage, hgen⟩
      have hne : a ≠ b := by
        rintro rfl
        exact lt_irrefl _ hgen
      have hstanding : currentStanding a < currentStanding b :=
        Prod.Lex.toLex_lt_toLex.mpr (.inl (originRank_lt_iff.mpr ⟨hroutine, hoperation⟩))
      have hselected := hpair he hf hne (Prod.Lex.toLex_lt_toLex.mpr (.inl hstanding))
      rw [currentFromSnapshot_of_leader (a := a)] at hselected
      · exact hne (Option.some.inj hselected)
      · exact mem_vals_snapshot.mpr (mem_cons_self ..)
      · intro row hrow hrowne
        obtain rfl : row = b := by
          rcases mem_pair.mp (mem_vals_snapshot.mp hrow) with h | h
          · exact absurd (current.inj h) hrowne
          · exact current.inj h
        rw [currentSupersedes_iff, if_pos ⟨hlineage, hgen.ne'⟩]
        exact hgen
  · intro hagree s hsub n hn
    exact current_kept_of_agree (fun a b ha hb => hagree a b (hsub _ ha) (hsub _ hb)) hn

/-- The key of an operation and a rotation that descends from it, stored at two nodes. -/
def sampleRotation : MvReg SecretMasterKeySyncRecord UuidKey :=
  (new.write (sampleUuid 1) (.current (sampleCurrents.getLast (by decide)))).merge
    (new.write (sampleUuid 2) (.current (sampleCurrents.head (by decide))))

/-- The rotation is the current key until compaction drops it. -/
theorem rotation_dropped :
    currentFromSnapshot sampleRotation.snapshot.vals = some (sampleCurrents.head (by decide)) ∧
      currentFromSnapshot (secretMasterKeyCompaction.compacted sampleRotation 1).snapshot.vals =
        some (sampleCurrents.getLast (by decide)) ∧
      sampleCurrents.head (by decide) ≠ sampleCurrents.getLast (by decide) := by
  decide +kernel

/-- The keys of two operations: the one of the lower generation is dropped. -/
theorem current_kept_sample :
    let r : MvReg SecretMasterKeySyncRecord UuidKey :=
      (new.write (sampleUuid 1) (.current (sampleCurrents.get ⟨1, by decide⟩))).merge
        (new.write (sampleUuid 2) (.current (sampleCurrents.get ⟨2, by decide⟩)))
    let compacted := secretMasterKeyCompaction.compacted r 1
    r.entries.length = 2 ∧ compacted.entries.length = 1 ∧
      currentFromSnapshot compacted.snapshot.vals = currentFromSnapshot r.snapshot.vals := by
  intro r compacted
  refine ⟨by decide +kernel, by decide +kernel,
    (current_kept_iff r).mpr ?_ r (fun v hv => hv) 1 le_rfl⟩
  have hagree : ∀ a ∈ sampleCurrents.drop 1, ∀ b ∈ sampleCurrents.drop 1,
      (currentStanding a = currentStanding b → a = b) ∧
      ¬ (currentRowsShareLineage a b = true ∧ b.generation < a.generation) := by
    decide +kernel
  have hvalues : r.readValues = (sampleCurrents.drop 1).map .current := by
    decide +kernel
  have hinj : Function.Injective current := fun _ _ h =>
    current.inj h
  intro a b ha hb
  rw [hvalues, mem_map_of_injective hinj] at ha hb
  exact (hagree a ha b hb).imp_right fun hnot h => hnot h.2.2

end Mantissa
