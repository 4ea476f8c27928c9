import Mantissa.Core.RangeCursor
import Mantissa.Store.Slot

/-!
# Delta export

Anti-entropy asks a peer for the rows in some key ranges. The plain export sends every row of the
ranges once; the filtered one leaves out the rows whose semantic digest the requester already has.
A digest is a hash of the tree leaf, so it covers what a row shows and not the clocks behind it; the
hash is a parameter here.

Ranges are inclusive and compared by key bytes. `WantsKey` says that some range has the key, and
each scan of the source comes down to it: the table scans with their sets of seen keys
(`mem_exportRows`), the tree scan with its cursor over the sorted ranges (`mem_leavesInRanges`).
-/

namespace Mantissa

open BTreeMap List

/-- The inclusive key bounds of `PageDigestRange`. -/
structure PageDigestRange where
  start : Bytes
  stop : Bytes

/-- `RowDigest`. -/
structure RowDigest where
  key : Bytes
  digest : Bytes

namespace CrdtMstStore

variable {K A R V S X : Type*} [LinearOrder K]

variable (ad : RegAdapter K A R V S)

/-- The key lies between the bounds. -/
def InRange (range : PageDigestRange) (k : K) : Prop :=
  range.start ≤ ad.keyToBytes k ∧ ad.keyToBytes k ≤ range.stop

instance (ad : RegAdapter K A R V S) (range : PageDigestRange) (k : K) :
    Decidable (InRange ad range k) := inferInstanceAs (Decidable (_ ∧ _))

/-- One of the requested ranges has the key. -/
def WantsKey (want : List PageDigestRange) (k : K) : Prop :=
  ∃ range ∈ want, InRange ad range k

instance (ad : RegAdapter K A R V S) (want : List PageDigestRange) (k : K) :
    Decidable (WantsKey ad want k) := inferInstanceAs (Decidable (∃ range ∈ want, _))

/-! ## Table scans -/

/-- The rows of a table in one range, in key order. -/
def rowsInRange (rows : BTreeMap K X) (range : PageDigestRange) : List (K × X) :=
  rows.toList.filter fun p => decide (InRange ad range p.1)

variable {k : K}

lemma mem_rowsInRange {ad : RegAdapter K A R V S} {rows : BTreeMap K X} {range : PageDigestRange}
    {x : X} : (k, x) ∈ rowsInRange ad rows range ↔ rows[k]? = some x ∧ InRange ad range k := by
  rw [rowsInRange, mem_filter, mem_toList, decide_eq_true_eq]

/-- The rows of one table a request selects: range by range, a key that was scanned before is not
sent again, and `keep` filters what is sent. -/
def exportRows (ad : RegAdapter K A R V S) (rows : BTreeMap K X) (keep : K → Bool) :
    List PageDigestRange → List K → List (K × X)
  | [], _ => []
  | range :: want, seen =>
    let scanned := rowsInRange ad rows range
    let fresh := scanned.filter fun p => decide (p.1 ∉ seen)
    (fresh.filter fun p => keep p.1) ++
      exportRows ad rows keep want (seen ++ scanned.map Prod.fst)

/-- What a table scan sends. -/
theorem mem_exportRows (ad : RegAdapter K A R V S) (rows : BTreeMap K X) (keep : K → Bool)
    {x : X} : ∀ (want : List PageDigestRange) (seen : List K),
      (k, x) ∈ exportRows ad rows keep want seen ↔
        rows[k]? = some x ∧ keep k = true ∧ k ∉ seen ∧ WantsKey ad want k
  | [], seen => by simp [exportRows, WantsKey]
  | range :: want, seen => by
    simp only [exportRows, mem_append, mem_filter, decide_eq_true_eq, mem_rowsInRange,
      mem_exportRows ad rows keep want, mem_map, Prod.exists, exists_and_right, exists_eq_right,
      not_or, WantsKey, exists_mem_cons_iff]
    constructor
    · rintro (⟨⟨⟨hrow, hin⟩, hfresh⟩, hkeep⟩ | ⟨hrow, hkeep, ⟨hfresh, -⟩, hwant⟩)
      · exact ⟨hrow, hkeep, hfresh, .inl hin⟩
      · exact ⟨hrow, hkeep, hfresh, .inr hwant⟩
    · rintro ⟨hrow, hkeep, hfresh, hwant⟩
      by_cases hin : InRange ad range k
      · exact .inl ⟨⟨⟨hrow, hin⟩, hfresh⟩, hkeep⟩
      · exact .inr ⟨hrow, hkeep, ⟨hfresh, fun h => hin h.2⟩, hwant.resolve_left hin⟩

/-- No key is sent twice. -/
theorem nodup_exportRows (ad : RegAdapter K A R V S) (rows : BTreeMap K X) (keep : K → Bool) :
    ∀ (want : List PageDigestRange) (seen : List K),
      ((exportRows ad rows keep want seen).map Prod.fst).Nodup
  | [], _ => nodup_nil
  | range :: want, seen => by
    simp only [exportRows, map_append]
    refine List.Nodup.append ?_ (nodup_exportRows ad rows keep want _) ?_
    · have hsub : (((rowsInRange ad rows range).filter fun p =>
          decide (p.1 ∉ seen)).filter fun p => keep p.1).Sublist rows.toList :=
        filter_sublist.trans (filter_sublist.trans filter_sublist)
      exact (nodup_keys rows).sublist (hsub.map Prod.fst)
    · -- what is sent later was not scanned for this range
      intro k hnow hlater
      obtain ⟨⟨a, x⟩, hx, rfl⟩ := mem_map.mp hnow
      obtain ⟨⟨b, y⟩, hy, hab⟩ := mem_map.mp hlater
      obtain rfl : b = a := hab
      have hfresh := ((mem_exportRows ad rows keep want _).mp hy).2.2.1
      refine hfresh (mem_append_right _ (mem_map.mpr ⟨(b, x), ?_, rfl⟩))
      exact mem_of_mem_filter (mem_of_mem_filter hx)

/-- The rows of a key in a scan: the key's row, if the scan selects it. -/
lemma rowsAt_exportRows (rows : BTreeMap K X) (keep : K → Bool)
    (want : List PageDigestRange) (k : K) : rowsAt k (exportRows ad rows keep want []) =
      if keep k = true ∧ WantsKey ad want k then rows[k]?.toList else [] := by
  have hrows := rowsAt_eq_toList (k := k)
    (o := if keep k = true ∧ WantsKey ad want k then rows[k]? else none)
    (nodup_exportRows ad rows keep want []) fun x => by
      rw [mem_exportRows]
      split_ifs with hsent
      · simp [hsent]
      · simp only [not_mem_nil, not_false_eq_true, true_and, iff_false]
        exact fun h => hsent h.2
  rw [hrows]
  split_ifs <;> rfl

/-- `export_page_ranges_delta`. -/
def exportPageRangesDelta (d : Disk K R) (want : List PageDigestRange) : DeltaChunk K R :=
  ⟨exportRows ad d.values (fun _ => true) want [], exportRows ad d.tombs (fun _ => true) want []⟩

/-! ## Tree scans -/

/-- Ranges are sorted by start and then by end. -/
def RangeLe (left right : PageDigestRange) : Prop :=
  toLex (left.start, left.stop) ≤ toLex (right.start, right.stop)

instance : DecidableRel RangeLe := fun left right =>
  inferInstanceAs (Decidable (toLex (left.start, left.stop) ≤ toLex (right.start, right.stop)))

instance : IsTrans PageDigestRange RangeLe := ⟨fun _ _ _ h h' => le_trans h h'⟩

instance : Std.Total RangeLe := ⟨fun _ _ => le_total _ _⟩

/-- `SortedRangeCursor::new`: the ranges that are not empty, sorted. -/
def sortedRanges (want : List PageDigestRange) : List PageDigestRange :=
  (want.filter fun range => decide (range.start ≤ range.stop)).insertionSort RangeLe

/-- The leaves of the tree in the requested ranges, in key order. -/
def leavesInRanges (tree : BTreeMap K (Entry S))
    (want : List PageDigestRange) : List (K × Entry S) :=
  scanWith PageDigestRange.start PageDigestRange.stop (fun p => ad.keyToBytes p.1)
    (sortedRanges want) tree.toList

/-- The cursor keeps the leaves some requested range has. -/
lemma leavesInRanges_eq_filter (tree : BTreeMap K (Entry S)) (want : List PageDigestRange) :
    leavesInRanges ad tree want = tree.toList.filter fun p => decide (WantsKey ad want p.1) := by
  have hsorted : (sortedRanges want).Pairwise fun r r' => r.start ≤ r'.start :=
    (pairwise_insertionSort RangeLe _).imp fun h =>
      (Prod.Lex.toLex_le_toLex.mp h).elim le_of_lt fun h => h.1.le
  have hkeys : tree.toList.Pairwise fun p q => ad.keyToBytes p.1 < ad.keyToBytes q.1 :=
    (pairwise_toList tree).imp fun h => ad.keyToBytes_strictMono h
  rw [leavesInRanges, scanWith_eq_filter tree.toList hkeys hsorted]
  congr 1
  funext p
  rw [Bool.eq_iff_iff, decide_eq_true_eq]
  simp only [sortedRanges, any_eq_true, mem_insertionSort, mem_filter,
    decide_eq_true_eq, WantsKey, InRange]
  constructor
  · rintro ⟨range, ⟨hmem, -⟩, hin⟩
    exact ⟨range, hmem, hin⟩
  · rintro ⟨range, hmem, hin⟩
    exact ⟨range, ⟨hmem, hin.1.trans hin.2⟩, hin⟩

theorem mem_leavesInRanges {ad : RegAdapter K A R V S} {tree : BTreeMap K (Entry S)}
    {want : List PageDigestRange} {leaf : Entry S} :
    (k, leaf) ∈ leavesInRanges ad tree want ↔ tree[k]? = some leaf ∧ WantsKey ad want k := by
  rw [leavesInRanges_eq_filter, mem_filter, mem_toList, decide_eq_true_eq]

/-! ## Row digests and the filtered export -/

section Digests

variable (digest : Entry S → Bytes) (ad : RegAdapter K A R V S)

/-- `row_digests_from_disk`: values and then tombstones of each range, a key listed once. -/
def rowDigestsFromDisk (d : Disk K R) (version : ℕ) : List PageDigestRange → List K → List RowDigest
  | [], _ => []
  | range :: want, seen =>
    let values := rowsInRange ad d.values range
    let tombs := rowsInRange ad d.tombs range
    let seenValues := seen ++ values.map Prod.fst
    (values.filter fun p => decide (p.1 ∉ seen)).map (fun p =>
        ⟨ad.keyToBytes p.1, digest (.active (ad.snapshotRegAtVersion p.2 version))⟩) ++
      (tombs.filter fun p => decide (p.1 ∉ seenValues)).map (fun p =>
        ⟨ad.keyToBytes p.1, digest (deletedEntry p.2)⟩) ++
      rowDigestsFromDisk d version want (seenValues ++ tombs.map Prod.fst)

variable (s : CrdtMstStore K A R S) (want : List PageDigestRange)

/-- `row_digests_for_ranges`: from the tree at its own version, else from the tables. -/
def rowDigestsForRanges (version : ℕ) : List RowDigest :=
  if version ≠ s.rootSchemaVersion then rowDigestsFromDisk digest ad s.disk version want []
  else (leavesInRanges ad s.mst want).map fun p => ⟨ad.keyToBytes p.1, digest p.2⟩

/-- `differing_row_keys`: the sender's rows whose digest the requester lacks or has differently. -/
def differingRowKeys (haveRows : List RowDigest) (version : ℕ) : List Bytes :=
  let haveByKey : BTreeMap Bytes Bytes :=
    BTreeMap.upsertAll ∅ (haveRows.map fun row => (row.key, row.digest))
  if version ≠ s.rootSchemaVersion then
    ((rowDigestsFromDisk digest ad s.disk version want []).filter fun row =>
      decide (haveByKey[row.key]? ≠ some row.digest)).map RowDigest.key
  else
    ((leavesInRanges ad s.mst want).filter fun p =>
      decide (haveByKey[ad.keyToBytes p.1]? ≠ some (digest p.2))).map fun p => ad.keyToBytes p.1

/-- `export_page_ranges_delta_filtered`. -/
def exportPageRangesDeltaFiltered (haveRows : List RowDigest) (version : ℕ) : DeltaChunk K R :=
  let differing := differingRowKeys digest ad s want haveRows version
  let keep := fun k => decide (ad.keyToBytes k ∈ differing)
  ⟨exportRows ad s.disk.values keep want [], exportRows ad s.disk.tombs keep want []⟩

variable {digest ad}

lemma keyToBytes_inj {k k' : K} : ad.keyToBytes k = ad.keyToBytes k' ↔ k = k' :=
  ad.keyToBytes_strictMono.injective.eq_iff

variable {d : Disk K R} {version : ℕ}

/-- The leaf of a key in consistent tables, from whichever table has it. -/
lemma entry_eq_some_iff (h : d.Consistent) {leaf : Entry S} : d.entry ad version k = some leaf ↔
      (∃ reg, d.values[k]? = some reg ∧ .active (ad.snapshotRegAtVersion reg version) = leaf) ∨
        ∃ record, d.tombs[k]? = some record ∧ deletedEntry record = leaf := by
  rcases h.exclusive k with hvalue | htomb
  · cases htomb : d.tombs[k]? with
    | none => simp [Disk.entry, htomb, hvalue]
    | some record => simp [Disk.entry, htomb, hvalue]
  · simp [Disk.entry, htomb]

/-- The digests read from the tables are those of the leaves the tables stand for. -/
lemma mem_rowDigestsFromDisk (h : d.Consistent) {row : RowDigest} :
    ∀ (want : List PageDigestRange) (seen : List K),
      row ∈ rowDigestsFromDisk digest ad d version want seen ↔
        ∃ k leaf, d.entry ad version k = some leaf ∧ k ∉ seen ∧ WantsKey ad want k ∧
          row = ⟨ad.keyToBytes k, digest leaf⟩
  | [], seen => by simp [rowDigestsFromDisk, WantsKey]
  | range :: want, seen => by
    simp only [rowDigestsFromDisk, mem_append, mem_map, mem_filter,
      decide_eq_true_eq, Prod.exists, mem_rowsInRange, mem_rowDigestsFromDisk h want, WantsKey,
      exists_mem_cons_iff]
    constructor
    · rintro ((⟨k, reg, ⟨⟨hrow, hin⟩, hfresh⟩, rfl⟩ | ⟨k, record, ⟨⟨hrow, hin⟩, hfresh⟩, rfl⟩) |
        ⟨k, leaf, hleaf, hfresh, hwant, rfl⟩)
      · exact ⟨k, _, (entry_eq_some_iff h).mpr (.inl ⟨reg, hrow, rfl⟩), hfresh, .inl hin, rfl⟩
      · exact ⟨k, _, (entry_eq_some_iff h).mpr (.inr ⟨record, hrow, rfl⟩),
          fun hmem => hfresh (.inl hmem), .inl hin, rfl⟩
      · exact ⟨k, leaf, hleaf, fun hmem => hfresh (.inl (.inl hmem)), .inr hwant, rfl⟩
    · rintro ⟨k, leaf, hleaf, hfresh, hwant, rfl⟩
      by_cases hin : InRange ad range k
      · rcases (entry_eq_some_iff h).mp hleaf with ⟨reg, hrow, rfl⟩ | ⟨record, hrow, rfl⟩
        · exact .inl (.inl ⟨k, reg, ⟨⟨hrow, hin⟩, hfresh⟩, rfl⟩)
        · -- a deleted key has no value row that could have been listed first
          refine .inl (.inr ⟨k, record, ⟨⟨hrow, hin⟩, ?_⟩, rfl⟩)
          rintro (hmem | ⟨a, reg, ⟨hreg, -⟩, rfl⟩)
          · exact hfresh hmem
          · rcases h.exclusive a with hnone | hnone
            · rw [hreg] at hnone
              cases hnone
            · rw [hrow] at hnone
              cases hnone
      · refine .inr ⟨k, leaf, hleaf, ?_, hwant.resolve_left hin, rfl⟩
        rintro ((hmem | ⟨a, reg, ⟨-, hin'⟩, rfl⟩) | ⟨a, record, ⟨-, hin'⟩, rfl⟩)
        · exact hfresh hmem
        · exact hin hin'
        · exact hin hin'

variable {s r : CrdtMstStore K A R S} {want : List PageDigestRange} {version : ℕ}

/-- **Row digests**: one for each leaf in the requested ranges. -/
theorem mem_rowDigestsForRanges (h : RepInv ad s) {row : RowDigest} :
    row ∈ rowDigestsForRanges digest ad s want version ↔
      ∃ k leaf, s.disk.entry ad version k = some leaf ∧ WantsKey ad want k ∧
        row = ⟨ad.keyToBytes k, digest leaf⟩ := by
  rw [rowDigestsForRanges]
  split_ifs with hversion
  · rw [mem_rowDigestsFromDisk h.consistent]
    simp
  · obtain rfl : version = s.rootSchemaVersion := not_not.mp hversion
    have htracks : ∀ k : K, s.mst[k]? = s.disk.entry ad s.rootSchemaVersion k := h.tracks
    simp only [mem_map, Prod.exists, mem_leavesInRanges, htracks, and_assoc]
    simp only [eq_comm]

/-- What a scan keeps of a table has distinct keys. -/
lemma nodup_keyToBytes {rows : BTreeMap K X} {kept : List (K × X)} (h : kept.Sublist rows.toList) :
    (kept.map fun p => ad.keyToBytes p.1).Nodup := by
  have hkeys := (nodup_keys rows).sublist (h.map Prod.fst)
  simpa [Function.comp_def] using hkeys.map ad.keyToBytes_strictMono.injective

/-- The tables list no key twice. -/
lemma nodup_rowDigestsFromDisk (h : d.Consistent) : ∀ (want : List PageDigestRange) (seen : List K),
      ((rowDigestsFromDisk digest ad d version want seen).map RowDigest.key).Nodup
  | [], _ => nodup_nil
  | range :: want, seen => by
    simp only [rowDigestsFromDisk, map_append, map_map]
    refine List.Nodup.append (List.Nodup.append
      (nodup_keyToBytes (filter_sublist.trans filter_sublist))
      (nodup_keyToBytes (filter_sublist.trans filter_sublist)) ?_)
      (nodup_rowDigestsFromDisk h want _) ?_
    · intro key hvalue htomb
      simp only [mem_map, mem_filter, decide_eq_true_eq, mem_append] at hvalue htomb
      obtain ⟨p, ⟨hp, -⟩, rfl⟩ := hvalue
      obtain ⟨q, ⟨-, hfresh⟩, heq⟩ := htomb
      exact hfresh (.inr ⟨p, hp, (keyToBytes_inj.mp heq).symm⟩)
    · -- a key of a later range was not seen in this one
      intro key hnow hlater
      obtain ⟨row, hrow, rfl⟩ := mem_map.mp hlater
      obtain ⟨k, leaf, -, hfresh, -, rfl⟩ := (mem_rowDigestsFromDisk h want _).mp hrow
      simp only [mem_map, mem_filter, mem_append, not_or] at hnow hfresh
      rcases hnow with ⟨p, ⟨hp, -⟩, heq⟩ | ⟨p, ⟨hp, -⟩, heq⟩
      · exact hfresh.1.2 ⟨p, hp, keyToBytes_inj.mp heq⟩
      · exact hfresh.2 ⟨p, hp, keyToBytes_inj.mp heq⟩

/-- **The tree and the tables give the same digests**, each key once, for any ranges. -/
theorem rowDigests_tree_eq_disk (h : RepInv ad s) (want : List PageDigestRange) (version : ℕ) :
    (∀ row, row ∈ rowDigestsForRanges digest ad s want version ↔
      row ∈ rowDigestsFromDisk digest ad s.disk version want []) ∧
    ((rowDigestsForRanges digest ad s want version).map RowDigest.key).Nodup ∧
    ((rowDigestsFromDisk digest ad s.disk version want []).map RowDigest.key).Nodup := by
  have hdisk : ((rowDigestsFromDisk digest ad s.disk version want []).map RowDigest.key).Nodup :=
    nodup_rowDigestsFromDisk h.consistent want []
  refine ⟨fun row => ?_, ?_, hdisk⟩
  · rw [mem_rowDigestsForRanges h, mem_rowDigestsFromDisk h.consistent]
    simp
  · rw [rowDigestsForRanges]
    split_ifs
    · exact hdisk
    · rw [leavesInRanges_eq_filter, map_map]
      exact nodup_keyToBytes filter_sublist

/-- Every sixteen-byte key. -/
def everyKey : PageDigestRange := ⟨List.replicate 16 0, List.replicate 16 255⟩

/-- At the tree's version, for ranges that overlap and one that is inverted. -/
theorem rowDigests_tree_eq_disk_sample :
    let s := applyOps sampleAdapter (rebuildMstFromDiskAtVersion sampleAdapter
      (afterHistory sampleAdapter (sampleUuid 5) false []) 1)
      [.updateValue (sampleUuid 1) (fun _ => some 7), .remove (sampleUuid 3) 20]
    let range := fun first last => PageDigestRange.mk (sampleUuid first).val (sampleUuid last).val
    let want := [range 2 4, range 1 3, range 9 0]
    let digest := fun leaf => if leaf = .active ⟨[7]⟩ then [] else [1]
    s.rootSchemaVersion = 1 ∧ (rowDigestsForRanges digest sampleAdapter s want 1).length = 2 ∧
      ∀ row, row ∈ rowDigestsForRanges digest sampleAdapter s want 1 ↔
        row ∈ rowDigestsFromDisk digest sampleAdapter s.disk 1 want [] := by
  intro s range want digest
  have hinv : RepInv sampleAdapter s := RepInv.applyOps
    ⟨consistent_afterHistory sampleAdapter (sampleUuid 5) false [], rfl⟩ _ (by simp [Rebuilds])
  exact ⟨by decide +kernel, by decide +kernel, (rowDigests_tree_eq_disk hinv want 1).1⟩

/-- The sender's rows to send: those whose leaf has another digest at the requester, or none. -/
theorem mem_differingRowKeys (hs : RepInv ad s) (hr : RepInv ad r) :
    ad.keyToBytes k ∈ differingRowKeys digest ad s want
        (rowDigestsForRanges digest ad r want version) version ↔
      WantsKey ad want k ∧ ∃ leaf, s.disk.entry ad version k = some leaf ∧
        (r.disk.entry ad version k).map digest ≠ some (digest leaf) := by
  have hhave : ∀ k, WantsKey ad want k → (upsertAll (∅ : BTreeMap Bytes Bytes)
        ((rowDigestsForRanges digest ad r want version).map fun row =>
          (row.key, row.digest)))[ad.keyToBytes k]? = (r.disk.entry ad version k).map digest := by
    intro k hwant
    refine getElem?_upsertAll_empty fun v => ?_
    simp only [mem_map, mem_rowDigestsForRanges hr, Option.map_eq_some_iff]
    constructor
    · rintro ⟨row, ⟨a, leaf, hleaf, -, rfl⟩, heq⟩
      obtain ⟨hkey, rfl⟩ := Prod.mk.inj heq
      obtain rfl := keyToBytes_inj.mp hkey
      exact ⟨leaf, hleaf, rfl⟩
    · rintro ⟨leaf, hleaf, rfl⟩
      exact ⟨_, ⟨k, leaf, hleaf, hwant, rfl⟩, rfl⟩
  rw [differingRowKeys]
  split_ifs with hversion
  · simp only [mem_map, mem_filter, decide_eq_true_eq, mem_rowDigestsFromDisk hs.consistent]
    constructor
    · rintro ⟨row, ⟨⟨a, leaf, hleaf, -, hwant, rfl⟩, hdiff⟩, heq⟩
      obtain rfl := keyToBytes_inj.mp heq
      rw [hhave a hwant] at hdiff
      exact ⟨hwant, leaf, hleaf, hdiff⟩
    · rintro ⟨hwant, leaf, hleaf, hdiff⟩
      refine ⟨_, ⟨⟨k, leaf, hleaf, by simp, hwant, rfl⟩, ?_⟩, rfl⟩
      rw [hhave k hwant]
      exact hdiff
  · obtain rfl : version = s.rootSchemaVersion := not_not.mp hversion
    have htracks : ∀ k : K, s.mst[k]? = s.disk.entry ad s.rootSchemaVersion k := hs.tracks
    simp only [mem_map, mem_filter, decide_eq_true_eq, Prod.exists, mem_leavesInRanges, htracks]
    constructor
    · rintro ⟨a, leaf, ⟨⟨hleaf, hwant⟩, hdiff⟩, heq⟩
      obtain rfl := keyToBytes_inj.mp heq
      rw [hhave a hwant] at hdiff
      exact ⟨hwant, leaf, hleaf, hdiff⟩
    · rintro ⟨hwant, leaf, hleaf, hdiff⟩
      refine ⟨k, leaf, ⟨⟨hleaf, hwant⟩, ?_⟩, rfl⟩
      rw [hhave k hwant]
      exact hdiff

end Digests

end CrdtMstStore

end Mantissa
