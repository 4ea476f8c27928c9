import Mantissa.Raft.LogInvariant

/-!
# Recovery

With `RowsOf` and `FilesOf`, every check that recovery makes succeeds: the rows of a segment are the
layout of its frames, each frame is read back from its location, and only files and bytes that no
row refers to are removed. So `recoverFiles` stops only at a fault, and it leaves the rows, and the
files for the same segment map, whether it returns or stops (`recoverFiles_spec`).
-/

namespace Mantissa.EncryptedLog

open BTreeMap List Nat

variable {N P : Type} {settings : LogSettings N P} {dir : GroupDirectory} {id : SegmentId}
variable {segments : SegmentMap N P} {database : LogDatabase N} {log : EncryptedLog N P}

/-! ## Reading -/

section Reading

variable {before after : List (Frame (LogEntry N P))} {frame : Frame (LogEntry N P)}
variable {content : SegmentContent (LogEntry N P)}

lemma openSegment_spec {file : SegmentFile (LogEntry N P)} {action : String} {name : FileName}
    (hfile : log.files[name]? = some file) (hlinked : file.linked = true) :
    wp (openSegment action name) log (fun content log' => log' = log ∧ content = file.content)
      (onFault (· = log)) := by
  have hat : log.fileAt name = some file := by
    simp [fileAt, hfile, hlinked]
  refine (wp.query ?_ fun _ hstop => ⟨hstop, rfl⟩).bind
  simp only [hat]
  exact wp.pure ⟨rfl, rfl⟩

lemma readAndCheckSegmentHeader_spec (hheader : content.header = some id) :
    wp (readAndCheckSegmentHeader settings content id) log
      (fun headerBytes log' => log' = log ∧ headerBytes = settings.headerBytes)
      (onFault (· = log)) := by
  refine (wp.query ?_ fun _ hstop => ⟨hstop, rfl⟩).bind
  rw [if_pos hheader]
  exact wp.pure ⟨rfl, rfl⟩

/-- A frame is read back from its location. -/
lemma readFrame_spec [DecidableEq N] (hwell : WellFormed settings id (before ++ frame :: after))
    (hholds : SegmentContent.Holds content id (before ++ frame :: after)) :
    wp (readFrame settings content settings.headerBytes
        ⟨frame.entry.logId, id, settings.headerBytes + framesBytes before, frame.bytes,
          before.length⟩) log
      (fun entry log' => log' = log ∧ entry = frame.entry) (onFault (· = log)) := by
  obtain ⟨hid, hnumber, -, hmax⟩ := hwell.frame before frame after rfl
  obtain ⟨rest, hrest⟩ := hholds.2
  have hbytes : settings.headerBytes + framesBytes before + frame.bytes ≤
      contentBytes settings content := by
    have hsum : (content.frames.map Frame.bytes).sum =
        framesBytes before + (frame.bytes + framesBytes after) + framesBytes rest := by
      rw [← hrest]
      simp [framesBytes, add_assoc]
    simp only [contentBytes, hholds.1, Option.isSome_some, if_true, hsum]
    omega
  have hframe : frameAt settings.headerBytes content.frames
      (settings.headerBytes + framesBytes before) = some frame := by
    rw [← hrest, append_assoc, cons_append]
    exact frameAt_append fun earlier h => hwell.pos (mem_append_left _ h)
  unfold readFrame
  rw [if_neg (by simp), if_neg (not_lt.mpr hmax)]
  refine (wp.query ?_ fun _ hstop => ⟨hstop, rfl⟩).bind
  rw [if_neg (not_lt.mpr hbytes)]
  refine (wp.query ?_ fun _ hstop => ⟨hstop, rfl⟩).bind
  simp only [hframe]
  rw [if_neg (by simp), if_neg (by simp [hid, hnumber])]
  exact wp.pure ⟨rfl, rfl⟩

end Reading

/-! ## The rows of one segment -/

lemma bySegment_getElem? (locations : List (LogLocation N)) (id : SegmentId) :
    (bySegment locations)[id]? =
      if locations.filter (fun location => decide (location.segmentId = id)) = [] then none
      else some (locations.filter fun location => decide (location.segmentId = id)) := by
  induction locations using List.reverseRecOn with
  | nil => simp [bySegment]
  | append_singleton locations location ih =>
    have hstep : bySegment (locations ++ [location]) =
        (bySegment locations).insert location.segmentId
          (((bySegment locations)[location.segmentId]?).getD [] ++ [location]) := by
      simp [bySegment, foldl_append, foldl_cons, foldl_nil]
    rw [hstep, getElem?_insert_eq, filter_append]
    by_cases h : location.segmentId = id
    · subst h
      rw [if_pos rfl, ih]
      split_ifs with hnil <;> simp_all
    · rw [if_neg h, ih]
      simp [h]

namespace RowsOf

variable (h : RowsOf settings segments database)

include h

/-- The rows, in index order. -/
lemma mem_rows {location : LogLocation N} : location ∈ database.locations.toList.map Prod.snd ↔
      location ∈ layout settings location.segmentId (segments location.segmentId) := by
  rw [← h.rows]
  constructor
  · intro hmem
    obtain ⟨⟨index, found⟩, hrow, rfl⟩ := mem_map.mp hmem
    have hlookup := mem_toList.mp hrow
    rwa [h.keyed index found hlookup]
  · intro hlookup
    exact mem_map.mpr ⟨_, mem_toList.mpr hlookup, rfl⟩

lemma rows_pairwise :
    (database.locations.toList.map Prod.snd).Pairwise fun a b => a.logId.index < b.logId.index := by
  rw [pairwise_map]
  refine (pairwise_toList database.locations).imp_of_mem ?_
  rintro ⟨i, a⟩ ⟨j, b⟩ ha hb hlt
  rw [h.keyed i a (mem_toList.mp ha), h.keyed j b (mem_toList.mp hb)]
  exact hlt

variable (id : SegmentId)

lemma layout_pairwise :
    (layout settings id (segments id)).Pairwise fun a b => a.logId.index < b.logId.index := by
  by_cases hne : segments id = []
  · rw [hne]
    exact List.Pairwise.nil
  · have hordered := (h.wellFormed id hne).ordered
    rw [← pairwise_map (f := fun location : LogLocation N => location.logId.index), layout,
      map_layoutFrom_index, pairwise_map]
    exact hordered

/-- The rows of a segment, in index order, are the layout of its frames. -/
lemma filter_rows : (database.locations.toList.map Prod.snd).filter
        (fun location => decide (location.segmentId = id)) = layout settings id (segments id) := by
  refine List.Perm.eq_of_pairwise (fun a b _ _ hab hba => absurd hab (lt_asymm hba))
    (h.rows_pairwise.filter _) (h.layout_pairwise id) ?_
  refine (perm_ext_iff_of_nodup (h.rows_pairwise.filter _).nodup
    (h.layout_pairwise id).nodup).mpr ?_
  intro location
  rw [mem_filter, h.mem_rows, decide_eq_true_eq]
  constructor
  · rintro ⟨hmem, rfl⟩
    exact hmem
  · intro hmem
    obtain ⟨before, frame, after, -, rfl⟩ := mem_layoutFrom.mp hmem
    exact ⟨hmem, rfl⟩

/-- Recovery groups the rows as the segment map does. -/
lemma bySegment_rows : (bySegment (database.locations.toList.map Prod.snd))[id]? =
      if segments id = [] then none else some (layout settings id (segments id)) := by
  rw [bySegment_getElem?, h.filter_rows]
  simp [layout, layoutFrom_eq_nil]

/-- A location of the layout is a frame of the segment. -/
lemma location_iff {index : ℕ} {location : LogLocation N} :
    database.locations[index]? = some location ↔ ∃ id before frame after,
      segments id = before ++ frame :: after ∧ frame.entry.logId.index = index ∧
        location = ⟨frame.entry.logId, id, settings.headerBytes + framesBytes before, frame.bytes,
          before.length⟩ := by
  constructor
  · intro hlookup
    have hindex := h.keyed index location hlookup
    rw [← hindex, h.rows] at hlookup
    obtain ⟨before, frame, after, hframes, hlocation⟩ := mem_layoutFrom.mp hlookup
    refine ⟨_, before, frame, after, hframes, ?_, ?_⟩
    · rw [← hindex, hlocation]
    · rw [zero_add] at hlocation
      exact hlocation
  · rintro ⟨id, before, frame, after, hframes, rfl, rfl⟩
    refine (h.rows ⟨frame.entry.logId, id, _, _, _⟩).mpr ?_
    exact mem_layoutFrom.mpr ⟨before, frame, after, hframes, by rw [zero_add]⟩

end RowsOf

/-- A layout is sorted by offset. -/
lemma pairwise_offset_layoutFrom (offset number : ℕ) (frames : List (Frame (LogEntry N P))) :
    (layoutFrom id offset number frames).Pairwise fun a b => a.frameOffset ≤ b.frameOffset := by
  induction frames generalizing offset number with
  | nil => exact List.Pairwise.nil
  | cons frame frames ih =>
    refine List.Pairwise.cons ?_ (ih _ _)
    intro location hlocation
    obtain ⟨before, found, after, -, rfl⟩ := mem_layoutFrom.mp hlocation
    simp only
    omega

/-! ## Recovery -/

/-- A log between two steps of a recovery: the rows are `database`, and nothing is in memory. -/
structure Kept (settings : LogSettings N P) (dir : GroupDirectory) (segments : SegmentMap N P)
    (database : LogDatabase N) (log : EncryptedLog N P) : Prop where
  database : log.database = database
  active : log.active = none
  pending : log.pending = []
  files : FilesOf settings dir segments log

variable (h : Kept settings dir segments database log)

include h

lemma Kept.updateFile {name : FileName} {update}
    (hfiles : FilesOf settings dir segments (log.updateFile name update)) :
    Kept settings dir segments database (log.updateFile name update) :=
  ⟨(log.updateFile_database name update).trans h.database,
    (log.updateFile_active name update).trans h.active,
    (log.updateFile_pending name update).trans h.pending, hfiles⟩

lemma Kept.syncedDirectory : Kept settings dir segments database log.syncedDirectory :=
  ⟨h.database, h.active, h.pending, h.files.syncedDirectory⟩

lemma Kept.unlinkFile {name : FileName} (hunused : ∀ id, name = segmentPath id → segments id = []) :
    Kept settings dir segments database (log.unlinkFile name) :=
  h.updateFile (h.files.unlinkFile hunused)

lemma syncLogDirectory_spec : Keeps (Kept settings dir segments database) syncLogDirectory log :=
  wp.perform h.syncedDirectory (fun _ hstop => ⟨hstop, h⟩) fun _ hstop => ⟨hstop, h.syncedDirectory⟩

omit h

/-- Files that rows do not refer to are removed one after the other. -/
lemma removeFiles_spec {action : String} (names : List FileName)
    (hunused : ∀ name ∈ names, ∀ id, name = segmentPath id → segments id = [])
    (h : Kept settings dir segments database log) :
    Keeps (Kept settings dir segments database) (removeFiles action names) log := by
  induction names generalizing log with
  | nil => exact wp.pure h
  | cons name names ih =>
    have hremoved := h.unlinkFile (hunused name mem_cons_self)
    refine (wp.perform ?_ (fun _ hstop => ⟨hstop, h⟩) fun _ hstop => ⟨hstop, hremoved⟩).bind
    exact ih (fun name hname => hunused name (mem_cons_of_mem _ hname)) hremoved

lemma removeUnusedFiles_spec (hrows : RowsOf settings segments database)
    (h : Kept settings dir segments database log) :
    Keeps (Kept settings dir segments database)
      (removeUnusedFiles settings (bySegment (database.locations.toList.map Prod.snd))) log := by
  refine (wp.query ?_ fun _ hstop => ⟨hstop, h⟩).bind
  refine (removeFiles_spec _ ?_ h).next ?_
  · intro name hname id heq
    by_contra hne
    have hfound : (bySegment (database.locations.toList.map Prod.snd)).contains id = true := by
      rw [Std.ExtTreeMap.contains_eq_isSome_getElem?, hrows.bySegment_rows, if_neg hne]
      rfl
    subst heq
    simp [segmentPath, hfound] at hname
  · intro _ log' h'
    split_ifs
    · exact wp.pure h'
    · exact syncLogDirectory_spec h'

variable {content : SegmentContent (LogEntry N P)} {frames : List (Frame (LogEntry N P))}

/-- What a file still starts with after it was cut behind its frames. -/
lemma SegmentContent.Holds.truncate (h : SegmentContent.Holds content id frames) :
    SegmentContent.Holds
      (truncate settings (settings.headerBytes + framesBytes frames) content) id frames := by
  obtain ⟨hheader, rest, hrest⟩ := h
  refine ⟨hheader, ?_⟩
  simp only [EncryptedLog.truncate, ← hrest]
  exact prefix_framesUpTo le_rfl

/-- The loop over the locations of a segment reads each frame and ends behind the last one. -/
lemma checkFrames_spec [DecidableEq N] (hwell : WellFormed settings id frames)
    (hholds : SegmentContent.Holds content id frames) (rest : List (Frame (LogEntry N P))) :
    ∀ before previous, frames = before ++ rest →
      (∀ logIndex ∈ previous, ∀ frame ∈ rest, logIndex < frame.entry.logId.index) →
      wp (checkFrames settings content settings.headerBytes
          (settings.headerBytes + framesBytes before) before.length previous
          (layoutFrom id (settings.headerBytes + framesBytes before) before.length rest)) log
        (fun expected log' => log' = log ∧ expected = settings.headerBytes + framesBytes frames)
        (onFault (· = log)) := by
  induction rest with
  | nil =>
    intro before previous hframes _
    rw [append_nil] at hframes
    subst hframes
    exact wp.pure ⟨rfl, rfl⟩
  | cons frame rest ih =>
    intro before previous hframes hprevious
    subst hframes
    have horder : ¬ (previous.any fun logIndex =>
        decide (frame.entry.logId.index ≤ logIndex)) = true := by
      cases previous with
      | none => simp
      | some logIndex => simpa using hprevious logIndex rfl frame mem_cons_self
    simp only [layoutFrom, checkFrames, ne_eq, not_true_eq_false, if_false, if_neg horder]
    refine (readFrame_spec hwell hholds).next ?_
    rintro _ _ ⟨rfl, -⟩
    have hnext := ih (before ++ [frame]) (some frame.entry.logId.index) (by simp) (by
      intro logIndex hlog later hlater
      cases hlog
      exact rel_of_pairwise_cons ((pairwise_append.mp hwell.ordered).2.1) hlater)
    have hoffset : settings.headerBytes + framesBytes (before ++ [frame]) =
        settings.headerBytes + framesBytes before + frame.bytes := by
      simp [add_assoc]
    rwa [hoffset, length_append, length_singleton] at hnext

lemma checkAndShortenSegment_spec [DecidableEq N] (hrows : RowsOf settings segments database)
    (hne : segments id ≠ []) (h : Kept settings dir segments database log) :
    Keeps (Kept settings dir segments database)
      (checkAndShortenSegment settings id (layout settings id (segments id))) log := by
  obtain ⟨file, hfile, hholds⟩ := h.files.holds id hne
  have hwell := hrows.wellFormed id hne
  refine (openSegment_spec hfile hholds.linked).seq (fun _ _ hstop => ⟨hstop.1, hstop.2 ▸ h⟩) ?_
  rintro _ _ ⟨rfl, rfl⟩
  refine (readAndCheckSegmentHeader_spec hholds.content.1).seq
    (fun _ _ hstop => ⟨hstop.1, hstop.2 ▸ h⟩) ?_
  rintro _ _ ⟨rfl, rfl⟩
  refine (checkFrames_spec hwell hholds.content (segments id) [] none rfl nofun).seq
    (fun _ _ hstop => ⟨hstop.1, hstop.2 ▸ h⟩) ?_
  rintro _ _ ⟨rfl, rfl⟩
  refine (wp.query ?_ fun _ hstop => ⟨hstop, h⟩).bind
  rw [if_neg (not_lt.mpr hwell.size)]
  split_ifs
  · have hcut : Kept settings dir segments database (_ : EncryptedLog N P) :=
      h.updateFile (h.files.writeFile (segmentPath id)
        (truncate settings (settings.headerBytes + framesBytes (segments id)))
        fun other content hname _ hcontent => by
          cases hname
          exact hcontent.truncate)
    refine (wp.perform ?_ (fun _ hstop => ⟨hstop, h⟩) fun _ hstop => ⟨hstop, hcut⟩).bind
    have hsynced := hcut.updateFile (hcut.files.syncedFile (segmentPath id))
    exact wp.perform hsynced (fun _ hstop => ⟨hstop, hcut⟩) fun _ hstop => ⟨hstop, hsynced⟩
  · exact wp.pure h

lemma checkSegments_spec [DecidableEq N] (hrows : RowsOf settings segments database)
    (groups : List (SegmentId × List (LogLocation N)))
    (hgroups : ∀ group ∈ groups, segments group.1 ≠ [] ∧
      group.2 = layout settings group.1 (segments group.1))
    (h : Kept settings dir segments database log) :
    Keeps (Kept settings dir segments database) (checkSegments settings groups) log := by
  induction groups generalizing log with
  | nil => exact wp.pure h
  | cons group groups ih =>
    obtain ⟨id, locations⟩ := group
    obtain ⟨hne, hlocations⟩ := hgroups _ mem_cons_self
    simp only at hne hlocations
    subst hlocations
    rw [checkSegments, layout, List.Pairwise.insertionSort_eq (pairwise_offset_layoutFrom _ _ _)]
    refine (checkAndShortenSegment_spec hrows hne h).next ?_
    intro _ log' h'
    exact ih (fun group hgroup => hgroups group (mem_cons_of_mem _ hgroup)) h'

lemma allLocations_spec (hrows : RowsOf settings segments log.database) : wp allLocations log
      (fun locations log' => log' = log ∧
        locations = log.database.locations.toList.map Prod.snd) (onFault (· = log)) := by
  refine (wp.query ?_ fun _ hstop => ⟨hstop, rfl⟩).bind
  rw [if_pos (all_eq_true.mpr fun row hrow => by
    simpa using hrows.keyed row.1 row.2 (mem_toList.mp hrow))]
  exact wp.pure ⟨rfl, rfl⟩

/-- **Recovery stops only at a fault, and keeps what rows refer to.** -/
theorem recoverFiles_spec [DecidableEq N] (hrows : RowsOf settings segments database)
    (h : Kept settings dir segments database log) :
    Keeps (Kept settings dir segments database) (recoverFiles settings) log := by
  obtain rfl := h.database
  refine (wp.query ?_ fun _ hstop => ⟨hstop, h⟩).bind
  refine (allLocations_spec hrows).seq (fun _ _ hstop => ⟨hstop.1, hstop.2 ▸ h⟩) ?_
  rintro _ _ ⟨rfl, rfl⟩
  rw [if_neg]
  · refine (removeUnusedFiles_spec hrows h).next ?_
    intro _ log' h'
    refine checkSegments_spec hrows _ ?_ h'
    rintro ⟨id, locations⟩ hgroup
    have hlookup := mem_toList.mp hgroup
    rw [hrows.bySegment_rows] at hlookup
    split_ifs at hlookup with hnil
    exact ⟨hnil, (Option.some.inj hlookup).symm⟩
  · intro hany
    obtain ⟨removed, hremoved, hhead⟩ := Option.any_eq_true _ _ |>.mp hany
    obtain ⟨location, hlocation, hle⟩ := Option.any_eq_true _ _ |>.mp hhead
    have hmem := mem_of_mem_head? hlocation
    have hlookup := (hrows.rows location).mpr (hrows.mem_rows.mp hmem)
    have := (hrows.removed removed hremoved).1 _ location hlookup
    simp only [decide_eq_true_eq] at hle
    omega

/-! ## Views -/

/-- A log as its callers see it: a map from indices to entries, and the two points it remembers. -/
structure LogView (N P : Type) where
  entries : ℕ → Option (LogEntry N P)
  lastRemoved : Option (LogId N)
  committed : Option (LogId N)

/-- The rows and the files of a log stand for a view. -/
structure Shows (settings : LogSettings N P) (dir : GroupDirectory) (segments : SegmentMap N P)
    (view : LogView N P) (log : EncryptedLog N P) : Prop where
  rows : RowsOf settings segments log.database
  files : FilesOf settings dir segments log
  entries : ∀ index entry, view.entries index = some entry ↔
    entry.logId.index = index ∧ segments.Has entry
  lastRemoved : log.database.lastRemovedLogId = view.lastRemoved
  committed : log.database.committedLogId = view.committed

namespace Shows

variable {view : LogView N P}

lemma location_none (h : Shows settings dir segments view log) {index : ℕ} :
    log.database.locations[index]? = none ↔ view.entries index = none := by
  rw [← not_iff_not, ← ne_eq, ← ne_eq, Option.ne_none_iff_exists', Option.ne_none_iff_exists']
  constructor
  · rintro ⟨location, hlocation⟩
    obtain ⟨id, before, frame, after, hframes, hindex, -⟩ := h.rows.location_iff.mp hlocation
    refine ⟨frame.entry, (h.entries _ _).mpr ⟨hindex, id, frame, ?_, rfl⟩⟩
    rw [hframes]
    simp
  · rintro ⟨entry, hentry⟩
    obtain ⟨rfl, id, frame, hframe, rfl⟩ := (h.entries _ _).mp hentry
    obtain ⟨before, after, hframes⟩ := append_of_mem hframe
    exact ⟨_, h.rows.location_iff.mpr ⟨id, before, frame, after, hframes, rfl, rfl⟩⟩

/-- An entry of the view has a row with its log id. -/
lemma location_some (h : Shows settings dir segments view log) {index : ℕ} {entry : LogEntry N P}
    (hentry : view.entries index = some entry) :
    ∃ location, log.database.locations[index]? = some location ∧ location.logId = entry.logId := by
  obtain ⟨rfl, id, frame, hframe, rfl⟩ := (h.entries _ _).mp hentry
  obtain ⟨before, after, hframes⟩ := append_of_mem hframe
  exact ⟨_, h.rows.location_iff.mpr ⟨id, before, frame, after, hframes, rfl, rfl⟩, rfl⟩

lemma location_spec (hrows : RowsOf settings segments log.database) (index : ℕ) :
    wp (location index) log (fun found log' => log' = log ∧ found = log.database.locations[index]?)
      (onFault (· = log)) := by
  refine (wp.query ?_ fun _ hstop => ⟨hstop, rfl⟩).bind
  cases hfound : log.database.locations[index]? with
  | none => exact wp.pure ⟨rfl, rfl⟩
  | some location =>
    simp only [hrows.keyed index location hfound, if_true]
    exact wp.pure ⟨rfl, rfl⟩

/-- **Reading an index returns what the view has there.** -/
theorem readEntry_spec [DecidableEq N] (h : Shows settings dir segments view log) (index : ℕ) :
    wp (readEntry settings index) log
      (fun found log' => log' = log ∧ found = view.entries index) (onFault (· = log)) := by
  refine (location_spec h.rows index).next ?_
  rintro _ log ⟨rfl, rfl⟩
  cases hentry : view.entries index with
  | none =>
    rw [h.location_none.mpr hentry]
    exact wp.pure ⟨rfl, rfl⟩
  | some entry =>
    obtain ⟨rfl, id, frame, hframe, rfl⟩ := (h.entries _ _).mp hentry
    obtain ⟨before, after, hframes⟩ := append_of_mem hframe
    have hne : segments id ≠ [] := ne_nil_of_mem hframe
    rw [h.rows.location_iff.mpr ⟨id, before, frame, after, hframes, rfl, rfl⟩]
    obtain ⟨file, hfile, hholds⟩ := h.files.holds id hne
    have hcontent := hholds.content
    rw [hframes] at hcontent
    have hread : wp (readEntryAtLocation settings ⟨frame.entry.logId, id,
        settings.headerBytes + framesBytes before, frame.bytes, before.length⟩) log
        (fun entry log' => log' = log ∧ entry = frame.entry) (onFault (· = log)) := by
      refine (openSegment_spec hfile hholds.linked).next ?_
      rintro _ _ ⟨rfl, rfl⟩
      refine (readAndCheckSegmentHeader_spec hholds.content.1).next ?_
      rintro _ _ ⟨rfl, rfl⟩
      refine (readFrame_spec (hframes ▸ h.rows.wellFormed id hne) hcontent).next ?_
      rintro _ _ ⟨rfl, rfl⟩
      rw [if_neg (by simp)]
      exact wp.pure ⟨rfl, rfl⟩
    refine hread.next ?_
    rintro _ _ ⟨rfl, rfl⟩
    exact wp.pure ⟨rfl, rfl⟩

end Shows

end Mantissa.EncryptedLog
