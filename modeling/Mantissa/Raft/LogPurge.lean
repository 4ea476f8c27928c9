import Mantissa.Raft.LogRemoval

/-!
# Removing the oldest entries

A segment that `delete_through` empties only in part is replaced. `Prepared` describes the new
segments while they have files but no rows: they hold exactly the entries to keep of the segments
handled so far. The transaction then exchanges the rows, and `purged` is the segment map it leads
to: segments without removed entries stay, segments with removed entries go, and the new ones come.
-/

namespace Mantissa.EncryptedLog

open List Function SegmentMap

variable {N P : Type} {settings : LogSettings N P} {dir : GroupDirectory}
variable {segments extra : SegmentMap N P}
variable {log : EncryptedLog N P} {view : LogView N P} {database : LogDatabase N} {through : ℕ}

/-! ## What a segment keeps -/

/-- The frames to remove, and those to keep. -/
def oldFrames (through : ℕ) (frames : List (Frame (LogEntry N P))) : List (Frame (LogEntry N P)) :=
  frames.filter fun frame => decide (frame.entry.logId.index ≤ through)

def keptFrames (through : ℕ) (frames : List (Frame (LogEntry N P))) : List (Frame (LogEntry N P)) :=
  frames.filter fun frame => !decide (frame.entry.logId.index ≤ through)

variable {frames : List (Frame (LogEntry N P))} {frame : Frame (LogEntry N P)}

lemma mem_oldFrames :
    frame ∈ oldFrames through frames ↔ frame ∈ frames ∧ frame.entry.logId.index ≤ through := by
  simp [oldFrames]

lemma mem_keptFrames :
    frame ∈ keptFrames through frames ↔ frame ∈ frames ∧ through < frame.entry.logId.index := by
  simp [keptFrames]

/-- Where nothing is to be removed, everything lies behind. -/
lemma lt_index_of_oldFrames_nil (hold : oldFrames through frames = [])
    (hframe : frame ∈ frames) : through < frame.entry.logId.index := by
  by_contra hle
  have hmem : frame ∈ oldFrames through frames := mem_oldFrames.mpr ⟨hframe, not_lt.mp hle⟩
  rw [hold] at hmem
  exact absurd hmem not_mem_nil

variable {id : SegmentId} {logId committed : LogId N}
variable {replacements : List (SegmentId × List (LogLocation N))}

lemma oldFrames_append_keptFrames (through : ℕ) (h : WellFormed settings id frames) :
    oldFrames through frames ++ keptFrames through frames = frames := by
  refine filter_append_filter _ ?_ h.ordered
  intro a b hlt hb
  simp only [decide_eq_true_eq] at hb ⊢
  omega

lemma filter_layoutFrom_all {p : ℕ → Bool} (offset number : ℕ)
    (h : ∀ frame ∈ frames, p frame.entry.logId.index = true) :
    (layoutFrom id offset number frames).filter (fun location => p location.logId.index) =
      layoutFrom id offset number frames := by
  rw [filter_eq_self]
  intro location hlocation
  obtain ⟨before, frame, after, rfl, rfl⟩ := mem_layoutFrom.mp hlocation
  exact h frame (by simp)

lemma filter_layoutFrom_none {p : ℕ → Bool} (offset number : ℕ)
    (h : ∀ frame ∈ frames, ¬ p frame.entry.logId.index = true) :
    (layoutFrom id offset number frames).filter (fun location => p location.logId.index) = [] := by
  rw [filter_eq_nil_iff]
  intro location hlocation
  obtain ⟨before, frame, after, rfl, rfl⟩ := mem_layoutFrom.mp hlocation
  exact h frame (by simp)

/-- The locations of the frames to keep. -/
lemma filter_layout_kept (h : WellFormed settings id frames) :
    (layout settings id frames).filter (fun location => decide (through < location.logId.index)) =
      layoutFrom id (settings.headerBytes + framesBytes (oldFrames through frames))
        (oldFrames through frames).length (keptFrames through frames) := by
  conv_lhs => rw [← oldFrames_append_keptFrames through h]
  rw [layout, layoutFrom_append, filter_append,
    filter_layoutFrom_none (p := fun index => decide (through < index)),
    filter_layoutFrom_all (p := fun index => decide (through < index)), nil_append,
    Nat.zero_add]
  · intro frame hframe
    simpa using (mem_keptFrames.mp hframe).2
  · intro frame hframe
    simpa using (mem_oldFrames.mp hframe).2

/-- The locations of the frames to remove. -/
lemma filter_layout_old (h : WellFormed settings id frames) :
    (layout settings id frames).filter (fun location => decide (location.logId.index ≤ through)) =
      layout settings id (oldFrames through frames) := by
  conv_lhs => rw [← oldFrames_append_keptFrames through h]
  rw [layout, layoutFrom_append, filter_append,
    filter_layoutFrom_all (p := fun index => decide (index ≤ through)),
    filter_layoutFrom_none (p := fun index => decide (index ≤ through)), List.append_nil, layout]
  · intro frame hframe
    simpa using (mem_keptFrames.mp hframe).2
  · intro frame hframe
    simpa using (mem_oldFrames.mp hframe).2

/-! ## New segments -/

/-- The segments of the rows, and new ones. -/
def SegmentMap.union (segments extra : SegmentMap N P) : SegmentMap N P :=
  fun id => if segments id = [] then extra id else segments id

lemma SegmentMap.union_eq_nil : segments.union extra id = [] ↔ segments id = [] ∧
    extra id = [] := by
  unfold union
  split_ifs with hnil <;> simp [hnil]

/-- The new segments hold what the segments `olds` keep. -/
structure Prepared (settings : LogSettings N P) (segments : SegmentMap N P) (through : ℕ)
    (olds : List SegmentId) (extra : SegmentMap N P)
    (replacements : List (SegmentId × List (LogLocation N))) : Prop where
  new : ∀ id, extra id ≠ [] → segments id = []
  wellFormed : ∀ id, extra id ≠ [] → WellFormed settings id (extra id)
  locations : ∀ location : LogLocation N, location ∈ replacements.flatMap Prod.snd ↔
    location ∈ layout settings location.segmentId (extra location.segmentId)
  entries : ∀ entry, extra.Has entry ↔
    ∃ id ∈ olds, ∃ frame ∈ keptFrames through (segments id), frame.entry = entry
  unused : ∀ replacement ∈ replacements, segments replacement.1 = []
  distinct : ∀ id id' frame frame', frame ∈ extra id → frame' ∈ extra id' →
    frame.entry.logId.index = frame'.entry.logId.index → id = id'

lemma prepared_nil : Prepared settings segments through [] (fun _ => []) [] where
  new _ h := absurd rfl h
  wellFormed _ h := absurd rfl h
  locations := by simp [layout, layoutFrom]
  entries := by simp [SegmentMap.Has]
  unused := by simp
  distinct := by simp

/-- An index has a frame in one segment. -/
lemma RowsOf.segment_unique (h : RowsOf settings segments database) {id' : SegmentId}
    {frame frame' : Frame (LogEntry N P)} (hframe : frame ∈ segments id)
    (hframe' : frame' ∈ segments id')
    (hindex : frame.entry.logId.index = frame'.entry.logId.index) : id = id' := by
  obtain ⟨before, after, hsplit⟩ := append_of_mem hframe
  obtain ⟨before', after', hsplit'⟩ := append_of_mem hframe'
  have hlocation := h.location_iff.mpr ⟨id, before, frame, after, hsplit, hindex, rfl⟩
  have hlocation' := h.location_iff.mpr ⟨id', before', frame', after', hsplit', rfl, rfl⟩
  have heq := Option.some.inj (hlocation.symm.trans hlocation')
  exact congrArg LogLocation.segmentId heq

/-- One more segment is replaced. -/
lemma Prepared.cons {olds : List SegmentId} {oldId newId : SegmentId}
    (h : Prepared settings segments through olds extra replacements)
    (hrows : RowsOf settings segments database) (holds : oldId ∉ olds)
    (hwell : WellFormed settings oldId (segments oldId)) (hnew : segments.union extra newId = []) :
    Prepared settings segments through (oldId :: olds)
      (update extra newId (renumberFrom newId 0 (keptFrames through (segments oldId))))
      (replacements ++ [(newId,
        layout settings newId (renumberFrom newId 0 (keptFrames through (segments oldId))))]) := by
  have hnone := union_eq_nil.mp hnew
  have hwell' : WellFormed settings newId
      (renumberFrom newId 0 (keptFrames through (segments oldId))) := by
    rw [← oldFrames_append_keptFrames through hwell] at hwell
    exact hwell.renumber
  -- No other new segment has an entry of this one.
  have hother : ∀ id frame frame', frame ∈ extra id →
      frame' ∈ renumberFrom newId 0 (keptFrames through (segments oldId)) →
        frame.entry.logId.index ≠ frame'.entry.logId.index := by
    intro id frame frame' hframe hframe' hindex
    obtain ⟨old, hold, found, hfound, hentry⟩ := (h.entries frame.entry).mp ⟨id, frame, hframe, rfl⟩
    have hmem : frame'.entry ∈ (keptFrames through (segments oldId)).map Frame.entry := by
      rw [← map_entry_renumberFrom newId 0]
      exact mem_map_of_mem hframe'
    obtain ⟨found', hfound', hentry'⟩ := mem_map.mp hmem
    rw [← hentry, ← hentry'] at hindex
    have := hrows.segment_unique (mem_keptFrames.mp hfound).1 (mem_keptFrames.mp hfound').1 hindex
    exact holds (this ▸ hold)
  refine ⟨?_, ?_, ?_, ?_, ?_, ?_⟩
  · exact (forall_update_iff extra fun id frames => frames ≠ [] → segments id = []).mpr
      ⟨fun _ => hnone.1, fun id _ => h.new id⟩
  · exact (forall_update_iff extra fun id frames => frames ≠ [] → WellFormed settings id frames).mpr
      ⟨fun _ => hwell', fun id _ => h.wellFormed id⟩
  · intro location
    rw [flatMap_append, mem_append, h.locations]
    rcases eq_or_ne location.segmentId newId with hid | hid
    · rw [hid, hnone.2, update_self]
      simp [layout, layoutFrom]
    · rw [update_of_ne hid]
      have hnot : location ∉ layout settings newId
          (renumberFrom newId 0 (keptFrames through (segments oldId))) := by
        intro hmem
        obtain ⟨_, _, _, -, rfl⟩ := mem_layoutFrom.mp hmem
        exact hid rfl
      simp [hnot]
  · intro entry
    have hextend (frames) : update extra newId frames = extra.extend newId frames := by
      rw [SegmentMap.extend, hnone.2, nil_append]
    rw [hextend, has_extend, map_entry_renumberFrom, mem_map, h.entries, or_comm,
      exists_mem_cons_iff]
  · exact forall_mem_append.mpr ⟨h.unused, by simpa using hnone.1⟩
  · intro id id' frame frame' hframe hframe' hindex
    by_cases hid : id = newId <;> by_cases hid' : id' = newId
    · exact hid.trans hid'.symm
    · rw [hid, update_self] at hframe
      rw [update_of_ne hid'] at hframe'
      exact absurd hindex.symm (hother id' frame' frame hframe' hframe)
    · rw [update_of_ne hid] at hframe
      rw [hid', update_self] at hframe'
      exact absurd hindex (hother id frame frame' hframe hframe')
    · rw [update_of_ne hid] at hframe
      rw [update_of_ne hid'] at hframe'
      exact h.distinct id id' frame frame' hframe hframe' hindex

lemma union_update {newId : SegmentId} (hnew : segments.union extra newId = []) :
    update (segments.union extra) newId frames =
      segments.union (update extra newId frames) := by
  have hnone := (union_eq_nil.mp hnew).1
  funext id
  rcases eq_or_ne id newId with rfl | hid
  · simp [union, hnone]
  · simp [union, update_of_ne hid]

lemma Kept.of_union (h : Kept settings dir (segments.union extra) database log) :
    Kept settings dir segments database log := by
  refine ⟨h.database, h.active, h.pending, h.files.shrink fun id => ?_⟩
  unfold union
  split_ifs with hnil
  · rw [hnil]
    exact nil_prefix
  · exact prefix_rfl

lemma removePresent_spec (replacements : List (SegmentId × List (LogLocation N)))
    (hunused : ∀ replacement ∈ replacements, segments replacement.1 = [])
    (h : Kept settings dir segments database log) :
    Keeps (Kept settings dir segments database)
      (removeNewFiles.removePresent replacements) log := by
  induction replacements generalizing log with
  | nil => exact wp.pure h
  | cons replacement replacements ih =>
    refine (removeIfPresent_spec (fun id heq => ?_) h).next ?_
    · cases heq
      exact hunused replacement mem_cons_self
    · intro _ log' h'
      exact ih (fun other hother => hunused other (mem_cons_of_mem _ hother)) h'

lemma removeNewFiles_spec (hunused : ∀ replacement ∈ replacements, segments replacement.1 = [])
    (h : Kept settings dir segments database log) :
    Keeps (Kept settings dir segments database) (removeNewFiles replacements) log := by
  unfold removeNewFiles
  split_ifs
  · exact wp.pure h
  · refine (removePresent_spec replacements hunused h).next ?_
    intro _ log' h'
    exact syncLogDirectory_spec h'

/-- Segments are replaced one after the other; if one cannot be, all new files are removed. -/
lemma prepareReplacements_spec [DecidableEq N] (hids : Function.Injective settings.segmentIds)
    (hrows : RowsOf settings segments database) (groups : List (SegmentId × List (LogLocation N)))
    (hgroups : ∀ group ∈ groups, segments group.1 ≠ [] ∧
      group.2 = layout settings group.1 (segments group.1)) (hnodup : (groups.map Prod.fst).Nodup) :
    ∀ olds extra replacements log, (∀ id ∈ olds, id ∉ groups.map Prod.fst) →
      Prepared settings segments through olds extra replacements →
      Kept settings dir (segments.union extra) database log →
      wp (prepareReplacements settings through groups replacements) log
        (fun replacements' log' => ∃ olds' extra',
          Prepared settings segments through olds' extra' replacements' ∧
            Kept settings dir (segments.union extra') database log' ∧
              ∀ id, id ∈ olds' ↔ id ∈ olds ∨ id ∈ groups.map Prod.fst ∧
                oldFrames through (segments id) ≠ [] ∧ keptFrames through (segments id) ≠ [])
        (onFault (Kept settings dir segments database)) := by
  induction groups with
  | nil =>
    intro olds extra replacements log _ hprepared hkept
    exact wp.pure ⟨olds, extra, hprepared, hkept, by simp⟩
  | cons group groups ih =>
    intro olds extra replacements log holds hprepared hkept
    obtain ⟨id, locations⟩ := group
    obtain ⟨hne, hlocations⟩ := hgroups _ mem_cons_self
    simp only at hne hlocations
    subst hlocations
    have hwell := hrows.wellFormed id hne
    have hgroups' := fun group hgroup => hgroups group (mem_cons_of_mem _ hgroup)
    obtain ⟨hid, hnodup'⟩ := nodup_cons.mp hnodup
    have hrest : ∀ other ∈ olds, other ∉ groups.map Prod.fst := fun other hother hmem =>
      holds other hother (mem_cons_of_mem _ hmem)
    simp only [prepareReplacements, filter_layout_old hwell, filter_layout_kept hwell]
    simp only [List.isEmpty_iff, layout, layoutFrom_eq_nil]
    split_ifs with hwhole
    · -- The segment is kept or removed as a whole.
      refine (ih hgroups' hnodup' olds extra replacements log hrest hprepared hkept).mono ?_
        fun _ _ hstop => hstop
      rintro replacements' log' ⟨olds', extra', hprepared', hkept', holds'⟩
      refine ⟨olds', extra', hprepared', hkept', ?_⟩
      intro other
      rw [holds', map_cons, mem_cons]
      rcases eq_or_ne other id with rfl | hother
      · tauto
      · simp only [hother, false_or]
    · -- It is replaced.
      have hunion : segments.union extra id = segments id := by
        rw [SegmentMap.union, if_neg hne]
      have hsplit : segments.union extra id =
          oldFrames through (segments id) ++ keptFrames through (segments id) := by
        rw [hunion, oldFrames_append_keptFrames through hwell]
      refine (wp.rescue (prepareReplacement_spec hids hsplit (hunion ▸ hne)
        (by rw [hunion]; exact hwell) hkept)
        (fun _ hstop => ⟨hstop.1, hstop.2.of_union⟩) ?_).next ?_
      · rintro stop log' - ⟨hinjected, hkept'⟩
        exact (removeNewFiles_spec hprepared.unused hkept'.of_union).mono
          (fun _ _ hdone => ⟨hinjected, hdone⟩) fun _ _ hstop => hstop
      · rintro ⟨newId, locations⟩ log' ⟨hnew, hkept', hlocations⟩
        simp only at hnew hkept' hlocations
        subst hlocations
        rw [union_update hnew] at hkept'
        have hnot : id ∉ olds := fun hmem => holds id hmem mem_cons_self
        have hrest' : ∀ other ∈ id :: olds, other ∉ groups.map Prod.fst := by
          intro other hother
          rcases mem_cons.mp hother with rfl | hother
          · exact hid
          · exact hrest other hother
        refine (ih hgroups' hnodup' (id :: olds) _ _ log' hrest'
          (hprepared.cons hrows hnot hwell hnew) hkept').mono ?_ fun _ _ hstop => hstop
        rintro replacements' log'' ⟨olds', extra', hprepared', hkept'', holds'⟩
        refine ⟨olds', extra', hprepared', hkept'', ?_⟩
        intro other
        rw [holds', map_cons, mem_cons, mem_cons]
        rcases eq_or_ne other id with rfl | hother
        · tauto
        · simp only [hother, false_or]

/-! ## The transaction -/

/-- The segment map after the transaction. -/
def SegmentMap.purged (segments extra : SegmentMap N P) (through : ℕ) : SegmentMap N P :=
  fun id => if segments id = [] then extra id
    else if oldFrames through (segments id) = [] then segments id else []

section Exchange

variable {olds : List SegmentId}

/-- The entries to keep of a segment with removed entries are in a new one. -/
def Prepared.Complete (segments : SegmentMap N P) (through : ℕ) (olds : List SegmentId) : Prop :=
  ∀ id, id ∈ olds ↔ oldFrames through (segments id) ≠ [] ∧ keptFrames through (segments id) ≠ []

variable (h : Prepared settings segments through olds extra replacements)

include h

/-- A new location is the only one with its index. -/
lemma Prepared.added_unique
    {location location' : LogLocation N} (hmem : location ∈ replacements.flatMap Prod.snd)
    (hmem' : location' ∈ replacements.flatMap Prod.snd)
    (hindex : location.logId.index = location'.logId.index) : location = location' := by
  rw [h.locations] at hmem hmem'
  obtain ⟨frame, hframe, hlogId⟩ := exists_frame_of_mem_layoutFrom hmem
  obtain ⟨frame', hframe', hlogId'⟩ := exists_frame_of_mem_layoutFrom hmem'
  have hid := h.distinct _ _ frame frame' hframe hframe' (by rw [hlogId, hlogId', hindex])
  -- In one segment the indices increase.
  have hpairwise : (layout settings location.segmentId (extra location.segmentId)).Pairwise
      fun a b => a.logId.index < b.logId.index := by
    have hordered := (h.wellFormed _ (ne_nil_of_mem hframe)).ordered
    rw [← pairwise_map (f := fun location : LogLocation N => location.logId.index), layout,
      map_layoutFrom_index, pairwise_map]
    exact hordered
  have hsymm : Std.Symm fun a b : LogLocation N => a.logId.index ≠ b.logId.index :=
    ⟨fun _ _ => Ne.symm⟩
  by_contra hne
  have hdistinct := hpairwise.imp fun hlt => hlt.ne
  rw [← hid] at hmem'
  exact hdistinct.forall hmem hmem' hne hindex

omit h in
/-- The rows after the transaction: the new ones, and the old ones behind `through` that have not
been replaced. -/
lemma exchangeRows_getElem? {logId : LogId N} (committed : Option (LogId N))
    (hrows : RowsOf settings segments log.database)
    (hprepared : Prepared settings segments logId.index olds extra replacements) (index : ℕ)
    (location : LogLocation N) : (log.exchangeRows logId committed
        ((log.database.locations.toList.map Prod.snd).filter
          fun location => decide (location.logId.index ≤ logId.index))
        (replacements.flatMap Prod.snd)).database.locations[index]? = some location ↔
      location ∈ replacements.flatMap Prod.snd ∧ location.logId.index = index ∨
        (∀ added ∈ replacements.flatMap Prod.snd, added.logId.index ≠ index) ∧
          logId.index < index ∧ log.database.locations[index]? = some location := by
  have hdropped := dropRows_getElem? hrows (fun index => decide (index ≤ logId.index)) index
  simp only [exchangeRows, insertRows]
  rcases BTreeMap.getElem?_upsertAll_cases index
      ((replacements.flatMap Prod.snd).map fun location => (location.logId.index, location))
      (log.dropRows ((log.database.locations.toList.map Prod.snd).filter
        fun location => decide (location.logId.index ≤ logId.index))).database.locations with
    ⟨hnot, heq⟩ | ⟨found, hmem, heq⟩
  · have hnone : ∀ added ∈ replacements.flatMap Prod.snd, added.logId.index ≠ index := by
      rintro added hadded rfl
      exact hnot (mem_map.mpr ⟨_, mem_map_of_mem hadded, rfl⟩)
    rw [heq, hdropped]
    constructor
    · intro hlookup
      split_ifs at hlookup with hle
      exact .inr ⟨hnone, by simpa using hle, hlookup⟩
    · rintro (⟨hadded, hindex⟩ | ⟨-, hlt, hlookup⟩)
      · exact absurd hindex (hnone location hadded)
      · rw [if_neg (by simpa using hlt), hlookup]
  · obtain ⟨added, hadded, hpair⟩ := mem_map.mp hmem
    cases hpair
    rw [heq, Option.some.injEq]
    constructor
    · rintro rfl
      exact .inl ⟨hadded, rfl⟩
    · rintro (⟨hlocation, hindex⟩ | ⟨hnone, -, -⟩)
      · exact hprepared.added_unique hadded hlocation hindex.symm
      · exact absurd rfl (hnone _ hadded)

/-- A kept entry of a segment with removed entries has a new location. -/
lemma Prepared.exists_added (hcomplete : Prepared.Complete segments through olds)
    (hframe : frame ∈ segments id)
    (hkept : through < frame.entry.logId.index) (hold : oldFrames through (segments id) ≠ []) :
    ∃ added ∈ replacements.flatMap Prod.snd, added.logId.index = frame.entry.logId.index := by
  have hmem : frame ∈ keptFrames through (segments id) := mem_keptFrames.mpr ⟨hframe, hkept⟩
  have holds : id ∈ olds := (hcomplete id).mpr ⟨hold, ne_nil_of_mem hmem⟩
  obtain ⟨newId, copy, hcopy, hentry⟩ := (h.entries frame.entry).mpr ⟨id, holds, frame, hmem, rfl⟩
  obtain ⟨before, after, hsplit⟩ := append_of_mem hcopy
  refine ⟨⟨copy.entry.logId, newId, settings.headerBytes + framesBytes before, copy.bytes,
    0 + before.length⟩, ?_, by rw [hentry]⟩
  rw [h.locations]
  exact mem_layoutFrom.mpr ⟨before, copy, after, hsplit, rfl⟩

/-- A new location has the index of a kept entry of a segment with removed entries. -/
lemma Prepared.added_kept
    (hcomplete : Prepared.Complete segments through olds) {added : LogLocation N}
    (hadded : added ∈ replacements.flatMap Prod.snd) :
    ∃ id, oldFrames through (segments id) ≠ [] ∧ ∃ frame ∈ segments id,
      through < frame.entry.logId.index ∧ frame.entry.logId.index = added.logId.index := by
  rw [h.locations] at hadded
  obtain ⟨copy, hcopy, hlogId⟩ := exists_frame_of_mem_layoutFrom hadded
  obtain ⟨id, holds, frame, hframe, hentry⟩ := (h.entries copy.entry).mp ⟨_, copy, hcopy, rfl⟩
  obtain ⟨hmem, hlt⟩ := mem_keptFrames.mp hframe
  refine ⟨id, ((hcomplete id).mp holds).1, frame, hmem, hlt, ?_⟩
  rw [hentry, hlogId]

omit h

/-- The rows after the transaction are the locations of the remaining and the new segments. -/
lemma RowsOf.purged (hrows : RowsOf settings segments log.database)
    (hprepared : Prepared settings segments logId.index olds extra replacements)
    (hcomplete : Prepared.Complete segments logId.index olds)
    (hcommitted : logId.index ≤ committed.index) :
    RowsOf settings (segments.purged extra logId.index) (log.exchangeRows logId (some committed)
        ((log.database.locations.toList.map Prod.snd).filter
          fun location => decide (location.logId.index ≤ logId.index))
        (replacements.flatMap Prod.snd)).database := by
  have hlookup := exchangeRows_getElem? (some committed) hrows hprepared
  refine ⟨?_, ?_, ?_, ?_⟩
  · intro id hne
    unfold SegmentMap.purged at hne ⊢
    split_ifs at hne ⊢ with hnil hold
    · exact hprepared.wellFormed id hne
    · exact hrows.wellFormed id hnil
    · exact absurd rfl hne
  · intro index location hlocation
    rcases (hlookup index location).mp hlocation with ⟨-, hindex⟩ | ⟨-, -, hlocation⟩
    · exact hindex
    · exact hrows.keyed index location hlocation
  · intro location
    rw [hlookup, hrows.rows, hprepared.locations]
    have hnew : segments location.segmentId ≠ [] → extra location.segmentId = [] :=
      not_imp_comm.mp (hprepared.new _)
    unfold SegmentMap.purged
    split_ifs with hnil hold
    · -- A new segment.
      rw [hnil]
      simp [layout, layoutFrom]
    · -- A segment that stays.
      rw [hnew hnil]
      simp only [layout, layoutFrom, not_mem_nil, false_and, false_or]
      refine ⟨fun h => h.2.2, fun hmem => ⟨?_, ?_, hmem⟩⟩
      · intro added hadded hindex
        obtain ⟨frame, hframe, hlogId⟩ := exists_frame_of_mem_layoutFrom hmem
        obtain ⟨id, hremoved, other, hother, -, hsame⟩ := hprepared.added_kept hcomplete hadded
        have hid := hrows.segment_unique hother hframe (by rw [hsame, hindex, hlogId])
        rw [hid] at hremoved
        exact hremoved hold
      · obtain ⟨frame, hframe, hlogId⟩ := exists_frame_of_mem_layoutFrom hmem
        rw [← hlogId]
        exact lt_index_of_oldFrames_nil hold hframe
    · -- A segment that goes.
      rw [hnew hnil]
      simp only [layout, layoutFrom, not_mem_nil, false_and, false_or, iff_false]
      rintro ⟨hnone, hlt, hmem⟩
      obtain ⟨frame, hframe, hlogId⟩ := exists_frame_of_mem_layoutFrom hmem
      rw [← hlogId] at hlt hnone
      obtain ⟨added, hadded, hsame⟩ := hprepared.exists_added hcomplete hframe hlt hold
      exact hnone added hadded hsame
  · intro removed hremoved
    cases hremoved
    refine ⟨?_, committed, rfl, hcommitted⟩
    intro index location hlocation
    rcases (hlookup index location).mp hlocation with ⟨hadded, hindex⟩ | ⟨-, hlt, -⟩
    · obtain ⟨id, -, frame, -, hlt, hsame⟩ := hprepared.added_kept hcomplete hadded
      omega
    · exact hlt

lemma purged_start (id : SegmentId) :
    segments.purged extra through id <+: segments.union extra id := by
  unfold purged union
  split_ifs
  · exact prefix_rfl
  · exact prefix_rfl
  · exact nil_prefix

/-- The entries after the transaction are those behind `through`. -/
lemma has_purged (hprepared : Prepared settings segments through olds extra replacements)
    (hcomplete : Prepared.Complete segments through olds) {entry : LogEntry N P} :
    (segments.purged extra through).Has entry ↔ segments.Has entry ∧
      through < entry.logId.index := by
  constructor
  · rintro ⟨id, frame, hframe, rfl⟩
    unfold purged at hframe
    split_ifs at hframe with hnil hold
    · obtain ⟨old, -, found, hfound, hentry⟩ :=
        (hprepared.entries frame.entry).mp ⟨id, frame, hframe, rfl⟩
      obtain ⟨hmem, hlt⟩ := mem_keptFrames.mp hfound
      exact ⟨⟨old, found, hmem, hentry⟩, hentry ▸ hlt⟩
    · exact ⟨⟨id, frame, hframe, rfl⟩, lt_index_of_oldFrames_nil hold hframe⟩
    · exact absurd hframe not_mem_nil
  · rintro ⟨⟨id, frame, hframe, rfl⟩, hlt⟩
    have hne : segments id ≠ [] := ne_nil_of_mem hframe
    by_cases hold : oldFrames through (segments id) = []
    · refine ⟨id, frame, ?_, rfl⟩
      rw [purged, if_neg hne, if_pos hold]
      exact hframe
    · have hkept : frame ∈ keptFrames through (segments id) := mem_keptFrames.mpr ⟨hframe, hlt⟩
      have holds : id ∈ olds := (hcomplete id).mpr ⟨hold, ne_nil_of_mem hkept⟩
      obtain ⟨newId, copy, hcopy, hentry⟩ :=
        (hprepared.entries frame.entry).mpr ⟨id, holds, frame, hkept, rfl⟩
      refine ⟨newId, copy, ?_, hentry⟩
      rw [purged, if_pos (hprepared.new newId (ne_nil_of_mem hcopy))]
      exact hcopy

end Exchange

variable (h : Shows settings dir segments view log)

include h

/-- What the log stands for after the transaction of `delete_through`. -/
lemma Shows.deleteThrough {olds : List SegmentId}
    (hcommitted : view.committed = some committed) (hle : logId.index ≤ committed.index)
    (hremoved : ¬ (view.lastRemoved.any fun removed => decide (logId.index ≤ removed.index)) = true)
    (hprepared : Prepared settings segments logId.index olds extra replacements)
    (hcomplete : Prepared.Complete segments logId.index olds)
    (hfiles : FilesOf settings dir (segments.union extra) log) :
    Shows settings dir (segments.purged extra logId.index) (view.deleteThrough logId)
      (log.exchangeRows logId (some committed) ((log.database.locations.toList.map Prod.snd).filter
          fun location => decide (location.logId.index ≤ logId.index))
        (replacements.flatMap Prod.snd)) := by
  refine ⟨h.rows.purged hprepared hcomplete hle,
    (hfiles.shrink purged_start).congr rfl rfl le_rfl, ?_, ?_, hcommitted.symm⟩
  · intro index entry
    rw [has_purged hprepared hcomplete]
    simp only [LogView.deleteThrough]
    split_ifs with hlt
    · rw [h.entries]
      constructor
      · rintro ⟨rfl, hhas⟩
        exact ⟨rfl, hhas, hlt⟩
      · rintro ⟨rfl, hhas, -⟩
        exact ⟨rfl, hhas⟩
    · constructor
      · nofun
      · rintro ⟨rfl, -, hlt'⟩
        exact absurd hlt' hlt
  · simp only [LogView.deleteThrough, if_neg hremoved]
    rfl

/-! ## The call -/

omit h in
/-- The segments whose rows are removed, at least in part. -/
lemma removeOldSegments_spec (ids : List SegmentId) (hunused : ∀ id ∈ ids, segments id = [])
    (h : Kept settings dir segments database log) :
    Keeps (Kept settings dir segments database) (removeOldSegments ids) log := by
  refine (wp.memory ?_).bind
  refine (removeFiles_spec _ ?_ h).next ?_
  · intro name hname id heq
    subst heq
    obtain ⟨other, hother, heq⟩ := mem_map.mp (mem_filter.mp hname).1
    cases heq
    exact hunused _ hother
  · intro _ log' h'
    split_ifs
    · exact wp.pure h'
    · exact syncLogDirectory_spec h'

omit h in
/-- After the checks nothing is rejected. -/
lemma removeThrough_spec [DecidableEq N] (hids : Function.Injective settings.segmentIds)
    (hshows : Shows settings dir segments view log)
    (hkept : Kept settings dir segments log.database log)
    (hcommitted : view.committed = some committed) (hle : logId.index ≤ committed.index)
    (hremoved : ¬ (view.lastRemoved.any fun removed =>
      decide (logId.index ≤ removed.index)) = true) :
    wp (removeThrough settings logId (log.database.locations.toList.map Prod.snd)) log
      (fun _ => Ready settings dir (view.deleteThrough logId))
      (onFault fun log' => Ready settings dir view log' ∨
        Ready settings dir (view.deleteThrough logId) log') := by
  have hgroups : ∀ group ∈ (bySegment (log.database.locations.toList.map Prod.snd)).toList,
      segments group.1 ≠ [] ∧ group.2 = layout settings group.1 (segments group.1) := by
    rintro ⟨id, locations⟩ hgroup
    have hlookup := BTreeMap.mem_toList.mp hgroup
    rw [hshows.rows.bySegment_rows] at hlookup
    split_ifs at hlookup with hnil
    exact ⟨hnil, (Option.some.inj hlookup).symm⟩
  have hunion : segments.union (fun _ => []) = segments := by
    funext id
    unfold union
    split_ifs with hnil
    · exact hnil.symm
    · rfl
  -- New segments are prepared.
  refine (prepareReplacements_spec hids hshows.rows _ hgroups (BTreeMap.nodup_keys _) [] _ [] log
    (by simp) prepared_nil (hunion.symm ▸ hkept)).seq
    (fun _ _ hstop => ⟨hstop.1, .inl (hshows.ready_of_kept hstop.2)⟩) ?_
  rintro replacements log' ⟨olds, extra, hprepared, hkept', holds⟩
  have hcomplete : Prepared.Complete segments logId.index olds := by
    intro id
    rw [holds]
    simp only [not_mem_nil, false_or]
    refine ⟨fun hmem => hmem.2, fun hboth => ⟨?_, hboth⟩⟩
    have hne : segments id ≠ [] := fun hnil => hboth.1 (by simp [oldFrames, hnil])
    refine mem_map.mpr ⟨(id, layout settings id (segments id)), ?_, rfl⟩
    rw [BTreeMap.mem_toList, hshows.rows.bySegment_rows, if_neg hne]
  have hshows' := hshows.kept hkept'.of_union
  have hready' := hshows.ready_of_kept hkept'.of_union
  -- The transaction exchanges the rows.
  have hpurged := hshows'.deleteThrough hcommitted hle hremoved hprepared hcomplete hkept'.files
  have hafter := hpurged.kept_self hkept'.active hkept'.pending
  have hdone := hpurged.ready hafter
  rw [← hkept'.database]
  refine wp.bind ?_
  refine (wp.query ?_ fun _ hstop => ⟨hstop, .inl hready'⟩).bind
  rw [hshows'.committed, hcommitted]
  refine wp.perform ?_ (fun _ hstop => ⟨hstop, .inl hready'⟩) fun _ hstop => ⟨hstop, .inr hdone⟩
  -- The old files go.
  refine (removeOldSegments_spec _ ?_ hafter).seq
    (fun _ _ hstop => ⟨hstop.1, .inr (hpurged.ready_of_kept hstop.2)⟩) ?_
  · intro id hid
    obtain ⟨group, hgroup, rfl⟩ := mem_map.mp hid
    obtain ⟨hmem, hany⟩ := mem_filter.mp hgroup
    obtain ⟨hne, hlocations⟩ := hgroups group (by rwa [hkept'.database] at hmem)
    obtain ⟨location, hlocation, hle'⟩ := any_eq_true.mp hany
    rw [hlocations] at hlocation
    obtain ⟨frame, hframe, hlogId⟩ := exists_frame_of_mem_layoutFrom hlocation
    have hold : oldFrames logId.index (segments group.1) ≠ [] :=
      ne_nil_of_mem (mem_oldFrames.mpr ⟨hframe, by simpa [hlogId] using hle'⟩)
    rw [purged, if_neg hne, if_neg hold]
  · intro _ log'' hkept''
    exact (recoverFiles_spec hpurged.rows hkept'').mono
      (fun _ _ hkept => hpurged.ready_of_kept hkept)
      fun _ _ hstop => ⟨hstop.1, .inr (hpurged.ready_of_kept hstop.2)⟩

/-- The entries through a log id may be removed: it is committed, and it is stored under its index,
or was already removed. -/
def LogView.Removable (view : LogView N P) (logId : LogId N) : Prop :=
  ∃ committed, view.committed = some committed ∧ logId.index ≤ committed.index ∧
    match view.lastRemoved.filter fun removed => decide (logId.index ≤ removed.index) with
    | some removed => removed.index = logId.index → removed = logId
    | none => ∃ entry, view.entries logId.index = some entry ∧ entry.logId = logId

/-- Nothing is left to remove below the removal point. -/
lemma Shows.deleteThrough_eq {logId removed : LogId N}
    (hremoved : view.lastRemoved = some removed) (hle : logId.index ≤ removed.index) :
    view.deleteThrough logId = view := by
  have hentries : (view.deleteThrough logId).entries = view.entries := by
    funext index
    simp only [LogView.deleteThrough]
    split_ifs with hlt
    · rfl
    · rw [eq_comm, ← h.location_none, Option.eq_none_iff_forall_ne_some]
      intro location hlocation
      have := (h.rows.removed removed (h.lastRemoved.trans hremoved)).1 index location hlocation
      omega
  have hany : (view.lastRemoved.any fun removed => decide (logId.index ≤ removed.index)) =
      true := by
    rw [hremoved]
    simpa using hle
  simp only [LogView.deleteThrough] at hentries ⊢
  rw [hentries, if_pos hany]

/-- The row that `delete_through` finds for the log id. -/
lemma Shows.find_last (index : ℕ) : ((log.database.locations.toList.map Prod.snd).find?
      fun location => decide (location.logId.index = index)) = log.database.locations[index]? := by
  cases hfind : (log.database.locations.toList.map Prod.snd).find?
      fun location => decide (location.logId.index = index) with
  | none =>
    rw [eq_comm, Option.eq_none_iff_forall_ne_some]
    intro location hlocation
    have hmem : location ∈ log.database.locations.toList.map Prod.snd :=
      mem_map.mpr ⟨_, BTreeMap.mem_toList.mpr hlocation, rfl⟩
    have hindex := h.rows.keyed _ location hlocation
    simpa [hindex] using find?_eq_none.mp hfind location hmem
  | some location =>
    have hmem := mem_of_find?_eq_some hfind
    have hindex : location.logId.index = index := by simpa using find?_some hfind
    rw [eq_comm, ← hindex, h.rows.rows, ← h.rows.mem_rows]
    exact hmem

omit h

/-- **Removing the oldest entries.** The call is rejected exactly when the entries may not be
removed. -/
theorem deleteThrough_spec [DecidableEq N] (hids : Function.Injective settings.segmentIds)
    {logId : LogId N} (h : Ready settings dir view log) : wp (deleteThrough settings logId) log
      (fun _ log' => view.Removable logId ∧ Ready settings dir (view.deleteThrough logId) log')
      fun stop log' => (view.Removable logId → stop.Injected) ∧
        ∃ view', (view' = view ∨ view.Removable logId ∧ view' = view.deleteThrough logId) ∧
          Stopped settings dir view' stop log' := by
  obtain ⟨_, hview⟩ := h.shows
  refine (wp.query ?_ fun stop hstop => ⟨fun _ => hstop, view, .inl rfl, h.stopped stop⟩).bind
  rw [hview.committed]
  cases hcommitted : view.committed with
  | none =>
    refine wp.reject ⟨?_, view, .inl rfl, h.stopped _⟩
    rintro ⟨committed, hsome, -⟩
    exact absurd (hcommitted.symm.trans hsome) nofun
  | some committed =>
    simp only
    split_ifs with hlt
    · refine wp.reject ⟨?_, view, .inl rfl, h.stopped _⟩
      rintro ⟨committed', hsome, hle, -⟩
      obtain rfl := Option.some.inj (hcommitted.symm.trans hsome)
      omega
    have hle : logId.index ≤ committed.index := Nat.not_lt.mp hlt
    clear hview
    obtain ⟨segments, hshows, hkept⟩ := h.dropActive
    refine (wp.remember ?_).bind
    refine (recoverFiles_spec hshows.rows hkept).seq (fun stop _ hstop =>
      ⟨fun _ => hstop.1, view, .inl rfl, (hshows.ready_of_kept hstop.2).stopped stop⟩) ?_
    intro _ log' hkept'
    have hshows' := hshows.kept hkept'
    have hready' := hshows.ready_of_kept hkept'
    refine (wp.query ?_ fun stop hstop =>
      ⟨fun _ => hstop, view, .inl rfl, hready'.stopped stop⟩).bind
    rw [hshows'.lastRemoved]
    cases hfilter : view.lastRemoved.filter fun removed => decide (logId.index ≤ removed.index) with
    | some removed =>
      -- The entries were removed before.
      obtain ⟨hremoved, hle'⟩ := Option.filter_eq_some_iff.mp hfilter
      simp only
      split_ifs with hconflict
      · refine wp.reject ⟨?_, view, .inl rfl, hready'.stopped _⟩
        rintro ⟨-, -, -, hmatch⟩
        rw [hfilter] at hmatch
        exact absurd (hmatch hconflict.1) hconflict.2
      · refine wp.pure ⟨⟨committed, hcommitted, hle, ?_⟩, ?_⟩
        · rw [hfilter]
          intro hindex
          by_contra hne
          exact hconflict ⟨hindex, hne⟩
        · rw [hshows'.deleteThrough_eq hremoved (by simpa using hle')]
          exact hready'
    | none =>
      have hany : ¬ (view.lastRemoved.any fun removed =>
          decide (logId.index ≤ removed.index)) = true := by
        intro hany
        obtain ⟨removed, hsome, hle'⟩ := (Option.any_eq_true _ _).mp hany
        rw [hsome, Option.filter_some, if_pos hle'] at hfilter
        exact absurd hfilter nofun
      have hremovable : view.Removable logId ↔
          ∃ entry, view.entries logId.index = some entry ∧ entry.logId = logId := by
        refine ⟨?_, fun hentry => ⟨committed, hcommitted, hle, by rwa [hfilter]⟩⟩
        rintro ⟨-, -, -, hmatch⟩
        rwa [hfilter] at hmatch
      refine (allLocations_spec hshows'.rows).seq (fun stop _ hstop =>
        ⟨fun _ => hstop.1, view, .inl rfl, hstop.2 ▸ hready'.stopped stop⟩) ?_
      rintro _ log' ⟨rfl, rfl⟩
      rw [hshows'.find_last, hremovable]
      cases hentry : view.entries logId.index with
      | none =>
        rw [hshows'.location_none.mpr hentry]
        exact wp.reject ⟨fun ⟨_, hsome, _⟩ => absurd hsome nofun, view, .inl rfl, hready'.stopped _⟩
      | some entry =>
        obtain ⟨location, hlocation, hlogId⟩ := hshows'.location_some hentry
        rw [hlocation]
        simp only [hlogId, Option.some.injEq, exists_eq_left']
        split_ifs with hconflict
        · exact wp.reject ⟨fun heq => absurd heq hconflict, view, .inl rfl, hready'.stopped _⟩
        · refine (removeThrough_spec hids hshows'
            (hshows'.kept_self hkept'.active hkept'.pending) hcommitted hle hany).mono ?_ ?_
          · intro _ log'' hdone
            exact ⟨not_not.mp hconflict, hdone⟩
          · rintro stop log'' ⟨hinjected, hready | hready⟩
            · exact ⟨fun _ => hinjected, view, .inl rfl, hready.stopped stop⟩
            · exact ⟨fun _ => hinjected, _, .inr ⟨not_not.mp hconflict, rfl⟩, hready.stopped stop⟩

end Mantissa.EncryptedLog
