import Mantissa.Raft.LogRecovery

/-!
# Appending

Between two steps of `append_batch` the entries of the batch handled so far are in two parts: those
whose rows are saved, and those in frames at the end of the active segment (`AppendState`). A sync
and a transaction move the second part into the first (`syncPendingLocations_spec`). When the call
stops at any point, what the log stands for is what it was with a beginning of the batch added
(`Interrupted`), and the active segment is given up unless its file is exactly as the rows say.
-/

namespace Mantissa.EncryptedLog

open List Function

variable {N P : Type} {settings : LogSettings N P} {dir : GroupDirectory}
variable {segments : SegmentMap N P} {log : EncryptedLog N P} {base : LogView N P}

/-! ## Views -/

variable (view : LogView N P) (entries : List (LogEntry N P))

/-- Entries added to a view. -/
def LogView.append : LogView N P :=
  { view with entries := fun index =>
      (entries.find? fun entry => decide (entry.logId.index = index)).or (view.entries index) }

/-- Entries in index order, above those of a view. -/
def Follows : Prop :=
  entries.Pairwise (fun a b => a.logId.index < b.logId.index) ∧
    ∀ entry ∈ entries, ∀ index stored, view.entries index = some stored → index < entry.logId.index

lemma Follows.of_start {entries entries' : List (LogEntry N P)} (h : Follows base entries)
    (hstart : entries' <+: entries) : Follows base entries' := by
  obtain ⟨rest, rfl⟩ := hstart
  exact ⟨(pairwise_append.mp h.1).1, fun entry hentry => h.2 entry (mem_append_left _ hentry)⟩

lemma append_entries_iff {entries : List (LogEntry N P)} (h : Follows base entries) {index : ℕ}
    {entry : LogEntry N P} : (base.append entries).entries index = some entry ↔
      entry ∈ entries ∧ entry.logId.index = index ∨ base.entries index = some entry := by
  simp only [LogView.append]
  cases hfind : entries.find? fun entry => decide (entry.logId.index = index) with
  | none =>
    have hnot : ¬ (entry ∈ entries ∧ entry.logId.index = index) := by
      rintro ⟨hmem, hindex⟩
      simpa [hindex] using find?_eq_none.mp hfind entry hmem
    simp [hnot]
  | some found =>
    have hmem := mem_of_find?_eq_some hfind
    have hindex : found.logId.index = index := by simpa using find?_some hfind
    simp only [Option.some_or, Option.some.injEq]
    constructor
    · rintro rfl
      exact .inl ⟨hmem, hindex⟩
    · rintro (⟨hentry, heq⟩ | hbase)
      · by_contra hne
        have hsymm : Std.Symm fun a b : LogEntry N P => a.logId.index ≠ b.logId.index :=
          ⟨fun _ _ => Ne.symm⟩
        have hdistinct : entries.Pairwise fun a b => a.logId.index ≠ b.logId.index :=
          h.1.imp fun hlt => hlt.ne
        exact hdistinct.forall hmem hentry hne (hindex.trans heq.symm)
      · exact absurd (h.2 found hmem index entry hbase) (by omega)

@[simp] lemma append_nil : view.append [] = view := by
  simp [LogView.append]

/-- A longer batch shows what its beginning shows. -/
lemma append_entries_mono {start entries : List (LogEntry N P)} (h : Follows base entries)
    (hstart : start <+: entries) {index : ℕ} {entry : LogEntry N P}
    (hentry : (base.append start).entries index = some entry) :
    (base.append entries).entries index = some entry :=
  (append_entries_iff h).mpr (((append_entries_iff (h.of_start hstart)).mp hentry).imp_left
    fun hmem => ⟨hstart.subset hmem.1, hmem.2⟩)

variable (isNew : LogEntry N P → Bool)

/-- The entries of a batch that get frames after `done`: those of a new index, and of each index the
first. -/
def firstNew : List (LogEntry N P) → List (LogEntry N P) → List (LogEntry N P)
  | _, [] => []
  | done, entry :: entries =>
    if isNew entry ∧ ∀ earlier ∈ done, earlier.logId.index ≠ entry.logId.index then
      entry :: firstNew (done ++ [entry]) entries
    else firstNew done entries

variable {isNew}

lemma mem_of_mem_firstNew {entry : LogEntry N P} : ∀ {done entries : List (LogEntry N P)},
    entry ∈ firstNew isNew done entries → entry ∈ entries
  | _, _ :: _, h => by
    unfold firstNew at h
    split_ifs at h
    · exact (mem_cons.mp h).elim (· ▸ mem_cons_self) fun h =>
        mem_cons_of_mem _ (mem_of_mem_firstNew h)
    · exact mem_cons_of_mem _ (mem_of_mem_firstNew h)

/-- In a batch that rises every entry is the first of its index. -/
lemma firstNew_true : ∀ {done entries : List (LogEntry N P)},
    (done ++ entries).Pairwise (fun a b => a.logId.index < b.logId.index) →
      firstNew (fun _ => true) done entries = entries
  | _, [], _ => rfl
  | done, entry :: entries, h => by
    have hbelow := (pairwise_append.mp h).2.2
    rw [firstNew, if_pos ⟨rfl, fun earlier hmem => (hbelow earlier hmem _ mem_cons_self).ne⟩,
      firstNew_true (by simpa using h)]

/-! ## The active segment -/

/-- The active segment has the frames of its rows and then `frames`, which are pending, and nothing
else. -/
structure ActiveOf (settings : LogSettings N P) (segments : SegmentMap N P) (active : ActiveSegment)
    (frames : List (Frame (LogEntry N P))) (log : EncryptedLog N P) : Prop where
  file : ∃ file, log.files[segmentPath active.id]? = some file ∧
    SegmentFile.Holds file active.id (segments active.id) ∧
      file.content.frames = segments active.id ++ frames ∧ file.content.tail = 0
  wellFormed : WellFormed settings active.id (segments active.id ++ frames)
  bytesWritten : active.bytesWritten =
    settings.headerBytes + framesBytes (segments active.id ++ frames)
  nextFrameNumber : active.nextFrameNumber = (segments active.id ++ frames).length
  hasFrames : active.hasFrames = false → segments active.id ++ frames = []
  pending : log.pending = layoutFrom active.id
    (settings.headerBytes + framesBytes (segments active.id)) (segments active.id).length frames

/-- The rows and the files stand for the view with `saved` added; `frames` are still pending. -/
structure AppendState (settings : LogSettings N P) (dir : GroupDirectory) (base : LogView N P)
    (segments : SegmentMap N P) (saved : List (LogEntry N P)) (frames : List (Frame (LogEntry N P)))
    (log : EncryptedLog N P) : Prop where
  shows : Shows settings dir segments (base.append saved) log
  unremoved : ∀ removed, base.lastRemoved = some removed →
    ∀ frame ∈ frames, removed.index < frame.entry.logId.index
  active : ∀ active, log.active = some active → ActiveOf settings segments active frames log
  inactive : log.active = none → frames = [] ∧ log.pending = []

/-- The entries `done` of a batch are saved or pending. -/
def Appending (settings : LogSettings N P) (dir : GroupDirectory) (base : LogView N P)
    (done : List (LogEntry N P)) (log : EncryptedLog N P) : Prop :=
  ∃ segments saved frames, AppendState settings dir base segments saved frames log ∧
    saved ++ frames.map Frame.entry = done

/-- A beginning of the batch is saved. Unless there was a crash, an active segment that stays is as
its rows say. -/
def Interrupted (settings : LogSettings N P) (dir : GroupDirectory) (base : LogView N P)
    (batch : List (LogEntry N P)) (stop : Stop LogError) (log : EncryptedLog N P) : Prop :=
  ∃ segments saved, saved <+: batch ∧ Shows settings dir segments (base.append saved) log ∧
    (stop ≠ .crashed → log.pending = [] → ∀ active, log.active = some active →
      ActiveOf settings segments active [] log)

lemma Interrupted.mono {done batch : List (LogEntry N P)} {stop : Stop LogError}
    (h : Interrupted settings dir base done stop log) (hstart : done <+: batch) :
    Interrupted settings dir base batch stop log := by
  obtain ⟨segments, saved, hsaved, hshows, hactive⟩ := h
  exact ⟨segments, saved, hsaved.trans hstart, hshows, hactive⟩

lemma Appending.interrupted {done : List (LogEntry N P)} (h : Appending settings dir base done log)
    (stop : Stop LogError) : Interrupted settings dir base done stop log := by
  obtain ⟨segments, saved, frames, hstate, rfl⟩ := h
  refine ⟨segments, saved, prefix_append _ _, hstate.shows, ?_⟩
  intro _ hpending active hactive
  have hof := hstate.active active hactive
  have hnil : frames = [] := by
    have := hof.pending
    rwa [hpending, eq_comm, layoutFrom_eq_nil] at this
  exact hnil ▸ hof

variable {view : LogView N P} {log' : EncryptedLog N P} {saved batch : List (LogEntry N P)}
variable {frames : List (Frame (LogEntry N P))} (hids : Function.Injective settings.segmentIds)

lemma Shows.of_files
    (h : Shows settings dir segments view log) (hdatabase : log'.database = log.database)
    (hfiles : FilesOf settings dir segments log') : Shows settings dir segments view log' :=
  ⟨hdatabase ▸ h.rows, hfiles, h.entries, hdatabase ▸ h.lastRemoved, hdatabase ▸ h.committed⟩

lemma Shows.kept
    (h : Shows settings dir segments view log)
    (hkept : Kept settings dir segments log.database log') :
    Shows settings dir segments view log' :=
  h.of_files hkept.database hkept.files

lemma AppendState.pending_eq_nil
    (h : AppendState settings dir base segments saved [] log) : log.pending = [] := by
  cases hactive : log.active with
  | none => exact (h.inactive hactive).2
  | some active => simpa [layoutFrom] using (h.active active hactive).pending

/-! ## Files of a new segment -/

section NewFile

variable {database : LogDatabase N} {name : FileName}

lemma Kept.touch (update) (h : Kept settings dir segments database log)
    (hunused : ∀ id, name = segmentPath id → segments id = []) :
    Kept settings dir segments database (log.updateFile name update) :=
  h.updateFile (h.files.updateFile fun id _ hname hne _ => absurd (hunused id hname) hne)

lemma Kept.putFile (content onDisk) (h : Kept settings dir segments database log)
    (hunused : ∀ id, name = segmentPath id → segments id = [])
    (hdrawn : ∃ draw < log.drawn, settings.segmentIds draw = name.segmentId) :
    Kept settings dir segments database (log.putFile name content onDisk) :=
  ⟨h.database, h.active, h.pending, h.files.putFile hunused hdrawn⟩

lemma Kept.draw (h : Kept settings dir segments database log) :
    Kept settings dir segments database { log with drawn := log.drawn + 1 } :=
  ⟨h.database, h.active, h.pending, h.files.congr rfl rfl (Nat.le_succ _)⟩

variable {invariant : EncryptedLog N P → Prop}

lemma createSegment_spec {action : String} (hnone : log.files[name]? = none) (hkept : invariant log)
    (hput : invariant (log.putFile name .empty .empty)) :
    wp (createSegment action name) log (fun _ log' => log' = log.putFile name .empty .empty)
      (onFault invariant) := by
  refine (wp.memory ?_).bind
  have hat : log.fileAt name = none := by simp [fileAt, hnone]
  simp only [hat]
  exact wp.perform_eq hkept hput

lemma writeAll_spec {error : LogError} {write} (hkept : invariant log)
    (hpart : invariant (log.writeFile name .writePart))
    (hwrite : invariant (log.writeFile name write)) :
    wp (writeAll error name write) log (fun _ log' => log' = log.writeFile name write)
      (onFault invariant) := by
  refine (wp.call ?_ (fun _ hstop => ⟨hstop, hkept⟩) fun _ hstop => ⟨hstop, hpart⟩).bind
  exact wp.perform_eq hkept hwrite

end NewFile

include hids in
/-- A new segment, when there is none. -/
lemma ensureActiveSegment_spec (h : AppendState settings dir base segments saved frames log) :
    wp (ensureActiveSegment settings) log
      (fun _ log' => AppendState settings dir base segments saved frames log' ∧
        ∃ active, log'.active = some active ∧
          (log.active = none → active.bytesWritten = settings.headerBytes))
      (fun stop log' => AppendState settings dir base segments saved frames log' ∧
        (settings.headerBytes < settings.maxSegmentBytes → stop.Injected)) := by
  refine (wp.memory ?_).bind
  cases hactive : log.active with
  | some active => exact wp.pure ⟨h, active, hactive, fun hnone => absurd hnone nofun⟩
  | none =>
    obtain ⟨rfl, hpending⟩ := h.inactive hactive
    have hkept : Kept settings dir segments log.database log :=
      ⟨rfl, hactive, hpending, h.shows.files⟩
    have hstate : ∀ log', Kept settings dir segments log.database log' →
        AppendState settings dir base segments saved [] log' := fun _ hkept =>
      ⟨h.shows.kept hkept, nofun, fun _ hactive => absurd (hkept.active.symm.trans hactive) nofun,
        fun _ => ⟨rfl, hkept.pending⟩⟩
    have hstop : ∀ (stop : Stop LogError) log',
        onFault (Kept settings dir segments log.database) stop log' →
        AppendState settings dir base segments saved [] log' ∧
          (settings.headerBytes < settings.maxSegmentBytes → stop.Injected) :=
      fun _ log' h => ⟨hstate log' h.2, fun _ => h.1⟩
    have hempty := h.shows.files.undrawn_eq_nil hids
    have hnone := h.shows.files.not_mem_of_undrawn hids
      (segmentPath (settings.segmentIds log.drawn)) rfl
    have hunused : ∀ id, segmentPath (settings.segmentIds log.drawn) = segmentPath id →
        segments id = [] := by
      intro id hid
      cases hid
      exact hempty
    -- The id is drawn.
    have hdrawn := hkept.draw
    refine wp.bind (wp.bind ?_)
    refine (wp.perform_eq (P := Kept settings dir segments log.database) hkept hdrawn).mono ?_ hstop
    rintro _ _ rfl
    refine wp.memory ?_
    simp only [Nat.add_sub_cancel]
    split_ifs with hsize
    · exact wp.reject ⟨hstate _ hdrawn, fun hlt => absurd hsize (Nat.not_le.mpr hlt)⟩
    -- The file is created, its header is written and synced.
    have hput := hdrawn.putFile SegmentContent.empty SegmentContent.empty hunused
      ⟨log.drawn, Nat.lt_succ_self _, rfl⟩
    refine wp.seq (createSegment_spec ?_ hdrawn hput) hstop ?_
    · exact hnone
    rintro _ _ rfl
    refine (writeAll_spec hput (hput.touch _ hunused) (hput.touch _ hunused)).seq hstop ?_
    rintro _ _ rfl
    have hwritten := hput.touch (fun file => { file with
      content := { file.content with header := some (settings.segmentIds log.drawn) } }) hunused
    have hsynced := hwritten.touch (fun file => { file with onDisk := file.content }) hunused
    refine (wp.perform_eq (P := Kept settings dir segments log.database) hwritten hsynced).seq
      hstop ?_
    rintro _ _ rfl
    refine (wp.perform_eq (P := Kept settings dir segments log.database) hsynced
      hsynced.syncedDirectory).seq hstop ?_
    rintro _ _ rfl
    refine wp.remember ⟨?_, _, rfl, fun _ => rfl⟩
    -- Now it is the active segment, without frames.
    have hlast := hsynced.syncedDirectory
    refine ⟨(h.shows.kept hlast).of_files rfl (hlast.files.congr rfl rfl le_rfl), nofun, ?_, nofun⟩
    rintro active hsome
    cases hsome
    refine ⟨⟨⟨true, true, ⟨some (settings.segmentIds log.drawn), [], 0⟩,
      ⟨some (settings.segmentIds log.drawn), [], 0⟩⟩, ?_, ?_, ?_, rfl⟩, ?_, ?_, ?_, ?_, ?_⟩
    · simp [syncedDirectory_files, updateFile_files, putFile_files, SegmentContent.empty]
    · rw [hempty]
      exact ⟨rfl, rfl, ⟨rfl, nil_prefix⟩, ⟨rfl, nil_prefix⟩⟩
    · rw [hempty]
      rfl
    · rw [hempty]
      exact ⟨by simp, List.Pairwise.nil, by simp; omega⟩
    · simp [hempty]
    · simp [hempty]
    · exact fun _ => by rw [hempty]; rfl
    · exact hlast.pending.trans (by simp [layoutFrom])

/-! ## Saving the pending locations -/

section SavePending

variable {active : ActiveSegment}

/-- The segment map once the pending frames have rows. -/
def SegmentMap.extend (segments : SegmentMap N P) (id : SegmentId)
    (frames : List (Frame (LogEntry N P))) : SegmentMap N P :=
  update segments id (segments id ++ frames)

variable {id : SegmentId}

lemma has_extend {entry : LogEntry N P} :
    (segments.extend id frames).Has entry ↔ segments.Has entry ∨
      entry ∈ frames.map Frame.entry := by
  rw [SegmentMap.Has, SegmentMap.extend,
    exists_update_iff segments fun _ frames => ∃ frame ∈ frames, frame.entry = entry]
  simp only [mem_append, or_and_right, exists_or, SegmentMap.Has, mem_map]
  constructor
  · rintro ((hold | hnew) | ⟨other, -, hother⟩)
    · exact .inl ⟨id, hold⟩
    · exact .inr hnew
    · exact .inl ⟨other, hother⟩
  · rintro (⟨other, hother⟩ | hnew)
    · rcases eq_or_ne other id with rfl | hne
      · exact .inl (.inl hother)
      · exact .inr ⟨other, hne, hother⟩
    · exact .inl (.inr hnew)

/-- The rows after the transaction of `save_locations`. -/
lemma RowsOf.extend {database : LogDatabase N} {pending : List (LogLocation N)}
    (h : RowsOf settings segments database) (hwell : WellFormed settings id (segments id ++ frames))
    (hpending : pending = layoutFrom id (settings.headerBytes + framesBytes (segments id))
      (segments id).length frames)
    (hfresh : ∀ location ∈ pending, database.locations[location.logId.index]? = none)
    (hremoved : ∀ removed, database.lastRemovedLogId = some removed →
      ∀ frame ∈ frames, removed.index < frame.entry.logId.index) :
    RowsOf settings (segments.extend id frames) { database with
      locations := database.locations.upsertAll
        (pending.map fun location => (location.logId.index, location)) } := by
  have hkeys : (pending.map fun location => (location.logId.index, location)).map Prod.fst =
      frames.map fun frame => frame.entry.logId.index := by
    rw [map_map, hpending, ← map_layoutFrom_index]
    rfl
  have hnodup : ((pending.map fun location => (location.logId.index, location)).map
      Prod.fst).Nodup := by
    rw [hkeys, nodup_iff_pairwise_ne, pairwise_map]
    exact (pairwise_append.mp hwell.ordered).2.1.imp fun hlt => hlt.ne
  -- A row is one of the pending locations under its index, or an old row.
  have hlookup : ∀ (index : ℕ) (location : LogLocation N), (database.locations.upsertAll
        (pending.map fun location => (location.logId.index, location)))[index]? = some location ↔
      location ∈ pending ∧ location.logId.index = index ∨
        database.locations[index]? = some location := by
    intro index location
    rw [BTreeMap.getElem?_upsertAll_eq_some hnodup]
    constructor
    · rintro (hmem | ⟨-, hold⟩)
      · obtain ⟨found, hfound, heq⟩ := mem_map.mp hmem
        cases heq
        exact .inl ⟨hfound, rfl⟩
      · exact .inr hold
    · rintro (⟨hmem, rfl⟩ | hold)
      · exact .inl (mem_map_of_mem hmem)
      · refine .inr ⟨?_, hold⟩
        intro hmem
        obtain ⟨row, hrow, rfl⟩ := mem_map.mp hmem
        obtain ⟨found, hfound, rfl⟩ := mem_map.mp hrow
        exact absurd ((hfresh found hfound).symm.trans hold) nofun
  have hlayout : layout settings id (segments id ++ frames) =
      layout settings id (segments id) ++ pending := by
    rw [layout, layoutFrom_append, Nat.zero_add, hpending]
    rfl
  have hsegment : ∀ location ∈ pending, location.segmentId = id := by
    intro location hlocation
    rw [hpending] at hlocation
    obtain ⟨_, _, _, -, rfl⟩ := mem_layoutFrom.mp hlocation
    rfl
  refine ⟨?_, ?_, ?_, ?_⟩
  · exact (forall_update_iff segments fun id frames => frames ≠ [] →
      WellFormed settings id frames).mpr ⟨fun _ => hwell, fun other _ => h.wellFormed other⟩
  · intro index location hrow
    rcases (hlookup index location).mp hrow with ⟨-, hindex⟩ | hold
    · exact hindex
    · exact h.keyed index location hold
  · intro location
    rw [hlookup, h.rows]
    simp only [and_true]
    rcases eq_or_ne location.segmentId id with hid | hid
    · rw [hid, SegmentMap.extend, update_self, hlayout, mem_append, or_comm]
    · have hnot : location ∉ pending := fun hmem => hid (hsegment location hmem)
      rw [SegmentMap.extend, update_of_ne hid]
      simp only [hnot, false_or]
  · intro removed hsome
    refine ⟨?_, (h.removed removed hsome).2⟩
    intro index location hrow
    rcases (hlookup index location).mp hrow with ⟨hmem, rfl⟩ | hold
    · rw [hpending] at hmem
      obtain ⟨frame, hframe, hlogId⟩ := exists_frame_of_mem_layoutFrom hmem
      exact hlogId ▸ hremoved removed hsome frame hframe
    · exact (h.removed removed hsome).1 index location hold

/-- The file of a segment has the given frames. -/
lemma FilesOf.update (h : FilesOf settings dir segments log)
    (hfile : ∃ file, log.files[segmentPath id]? = some file ∧ SegmentFile.Holds file id frames) :
    FilesOf settings dir (update segments id frames) log := by
  refine ⟨h.directory, ?_, h.drawn⟩
  intro other hne
  rcases eq_or_ne other id with rfl | hother
  · rwa [update_self]
  · rw [update_of_ne hother] at hne ⊢
    exact h.holds other hne

/-- After a sync the pending frames are on the disk. -/
lemma ActiveOf.synced (h : ActiveOf settings segments active frames log) :
    ∃ file, (log.syncedFile (segmentPath active.id)).files[segmentPath active.id]? = some file ∧
      SegmentFile.Holds file active.id (segments active.id ++ frames) ∧
        file.content.frames = segments active.id ++ frames ∧ file.content.tail = 0 := by
  obtain ⟨file, hfile, hholds, hcontent, htail⟩ := h.file
  have hstart : SegmentContent.Holds file.content active.id (segments active.id ++ frames) :=
    ⟨hholds.content.1, by rw [hcontent]⟩
  refine ⟨{ file with onDisk := file.content }, ?_,
    ⟨hholds.linked, hholds.linkedOnDisk, hstart, hstart⟩, hcontent, htail⟩
  rw [syncedFile, updateFile_files, if_pos rfl, hfile, Option.map_some]

/-- A beginning of the batch is saved. -/
def Saved (settings : LogSettings N P) (dir : GroupDirectory) (base : LogView N P)
    (batch : List (LogEntry N P)) (log : EncryptedLog N P) : Prop :=
  ∃ segments saved, saved <+: batch ∧ Shows settings dir segments (base.append saved) log

/-- An error that gives up the active segment. -/
lemma rescue_dropActive {α : Type} {m : LogM N P α} {Q : α → EncryptedLog N P → Prop}
    (h : wp m log Q (onFault (Saved settings dir base batch))) : wp (Prog.rescue m dropActive) log Q
      (fun stop log' => Interrupted settings dir base batch stop log' ∧ stop.Injected) := by
  refine wp.rescue h ?_ ?_
  · rintro t ⟨hinjected, segments, saved, hstart, hshows⟩
    exact ⟨⟨segments, saved, hstart, hshows, absurd rfl⟩, hinjected⟩
  · rintro stop t - ⟨hinjected, segments, saved, hstart, hshows⟩
    exact wp.remember ⟨⟨segments, saved, hstart,
      hshows.of_files rfl (hshows.files.congr rfl rfl le_rfl), nofun⟩, hinjected⟩

/-- `save_locations` of locations that have no row yet. -/
lemma saveLocations_spec {locations : List (LogLocation N)} {invariant : EncryptedLog N P → Prop}
    (hkept : invariant log)
    (hfresh : ∀ location ∈ locations, log.database.locations[location.logId.index]? = none)
    (hdone : invariant (log.insertRows locations)) :
    wp (saveLocations locations) log (fun _ log' => log' = log.insertRows locations)
      (onFault invariant) := by
  refine (wp.query ?_ fun _ hstop => ⟨hstop, hkept⟩).bind
  have hfind : (locations.find? fun location =>
      (log.database.locations[location.logId.index]?).isSome) = none := by
    rw [find?_eq_none]
    intro location hlocation
    simp [hfresh location hlocation]
  simp only [hfind]
  exact wp.perform_eq hkept hdone

/-- The pending frames have no rows, since they are above every entry that has one. -/
lemma Shows.fresh_of_follows {offset number : ℕ} {location : LogLocation N}
    (h : Shows settings dir segments (base.append saved) log)
    (hfollows : Follows base (saved ++ frames.map Frame.entry))
    (hlocation : location ∈ layoutFrom id offset number frames) :
    log.database.locations[location.logId.index]? = none := by
  obtain ⟨frame, hframe, hlogId⟩ := exists_frame_of_mem_layoutFrom hlocation
  have hmem : frame.entry ∈ frames.map Frame.entry := mem_map_of_mem hframe
  rw [← hlogId, h.location_none, Option.eq_none_iff_forall_ne_some]
  intro stored hstored
  rcases (append_entries_iff (hfollows.of_start (prefix_append _ _))).mp hstored with
    ⟨hsaved, hindex⟩ | hbase
  · have hlt := (pairwise_append.mp hfollows.1).2.2 stored hsaved frame.entry hmem
    omega
  · exact absurd (hfollows.2 frame.entry (mem_append_right _ hmem) _ stored hbase) (lt_irrefl _)

/-- What the log stands for after the transaction. -/
lemma Shows.extend {pending : List (LogLocation N)}
    (h : Shows settings dir segments (base.append saved) log)
    (hfollows : Follows base (saved ++ frames.map Frame.entry))
    (hremoved : ∀ removed, base.lastRemoved = some removed →
      ∀ frame ∈ frames, removed.index < frame.entry.logId.index)
    (hwell : WellFormed settings id (segments id ++ frames))
    (hpending : pending = layoutFrom id (settings.headerBytes + framesBytes (segments id))
      (segments id).length frames) (hfile : ∃ file, log.files[segmentPath id]? = some file ∧
      SegmentFile.Holds file id (segments id ++ frames)) :
    Shows settings dir (segments.extend id frames)
      (base.append (saved ++ frames.map Frame.entry)) (log.insertRows pending) := by
  refine ⟨?_, (h.files.update hfile).congr rfl rfl le_rfl, ?_, h.lastRemoved, h.committed⟩
  · refine h.rows.extend hwell hpending ?_ ?_
    · intro location hlocation
      rw [hpending] at hlocation
      exact h.fresh_of_follows hfollows hlocation
    · intro removed hsome
      exact hremoved removed (h.lastRemoved.symm.trans hsome)
  · intro index entry
    have hold := h.entries index entry
    rw [append_entries_iff (hfollows.of_start (prefix_append _ _))] at hold
    rw [append_entries_iff hfollows, has_extend, and_or_left, ← hold, mem_append]
    tauto

/-- **The pending locations are saved together.** -/
lemma syncPendingLocations_spec (hfollows : Follows base (saved ++ frames.map Frame.entry))
    (h : AppendState settings dir base segments saved frames log) : wp syncPendingLocations log
      (fun _ log' => ∃ segments',
        AppendState settings dir base segments' (saved ++ frames.map Frame.entry) [] log')
      (fun stop log' => Interrupted settings dir base (saved ++ frames.map Frame.entry) stop log' ∧
        stop.Injected) := by
  refine (wp.memory ?_).bind
  rcases eq_nil_or_concat frames with rfl | ⟨_, _, hframes⟩
  · -- Nothing is pending.
    rw [h.pending_eq_nil, if_pos (by rfl)]
    refine wp.pure ⟨segments, ?_⟩
    simpa using h
  · have hne : frames ≠ [] := by
      rw [hframes]
      simp
    clear hframes
    cases hactive : log.active with
    | none => exact absurd (h.inactive hactive).1 hne
    | some active =>
      have hof := h.active active hactive
      have hpending : ¬ log.pending.isEmpty = true := by
        rw [hof.pending, List.isEmpty_iff, layoutFrom_eq_nil]
        exact hne
      rw [if_neg hpending]
      refine (wp.memory ?_).bind
      simp only [hactive]
      -- The sync keeps the rows.
      have hsynced : Shows settings dir segments (base.append saved)
          (log.syncedFile (segmentPath active.id)) :=
        h.shows.of_files (updateFile_database ..) (h.shows.files.syncedFile _)
      have hbefore : ∀ log', Shows settings dir segments (base.append saved) log' →
          Saved settings dir base (saved ++ frames.map Frame.entry) log' := fun log' hshows =>
        ⟨segments, saved, prefix_append _ _, hshows⟩
      refine (rescue_dropActive (wp.perform_eq (hbefore _ h.shows) (hbefore _ hsynced))).next ?_
      rintro _ _ rfl
      -- The transaction gives the pending frames their rows.
      obtain ⟨file, hfile, hholds, hcontent, htail⟩ := hof.synced
      have hafter := hsynced.extend hfollows h.unremoved hof.wellFormed hof.pending
        ⟨file, hfile, hholds⟩
      refine (rescue_dropActive (saveLocations_spec (hbefore _ hsynced) ?_ ⟨_, _, prefix_rfl,
        hafter⟩)).next ?_
      · intro location hlocation
        rw [hof.pending] at hlocation
        exact hsynced.fresh_of_follows hfollows hlocation
      rintro _ _ rfl
      refine wp.remember ⟨_, hafter.of_files rfl (hafter.files.congr rfl rfl le_rfl),
        fun _ _ => nofun, ?_, fun _ => ⟨rfl, rfl⟩⟩
      intro active' hactive'
      have hsame : active' = active := by
        have : (log.syncedFile (segmentPath active.id)).active = some active' := hactive'
        rw [syncedFile, updateFile_active, hactive] at this
        exact (Option.some.inj this).symm
      subst hsame
      have hextend : segments.extend active'.id frames active'.id = segments active'.id ++ frames :=
        update_self ..
      refine ⟨⟨file, hfile, ?_, ?_, htail⟩, ?_, ?_, ?_, ?_, rfl⟩ <;> rw [hextend]
      · exact hholds
      · rwa [List.append_nil]
      · rw [List.append_nil]
        exact hof.wellFormed
      · rw [List.append_nil]
        exact hof.bytesWritten
      · rw [List.append_nil]
        exact hof.nextFrameNumber
      · rw [List.append_nil]
        exact hof.hasFrames

end SavePending

/-! ## One entry -/

section AppendEntry

variable {done : List (LogEntry N P)} {frameBytes : ℕ}

/-- A frame of this size can be stored. -/
def Fits (settings : LogSettings N P) (frameBytes : ℕ) : Prop :=
  frameBytes ≤ settings.maxFrameBytes ∧ settings.headerBytes + frameBytes ≤ settings.maxSegmentBytes

/-- An entry can be stored: it can be encoded, and its frame fits. -/
def Storable (settings : LogSettings N P) (entry : LogEntry N P) : Prop :=
  (∃ encoded, settings.encodeLogEntry entry = .ok encoded) ∧
    ∃ frameBytes, settings.frameBytes entry = .ok frameBytes ∧ Fits settings frameBytes

include hids in
/-- One round of the search for room. It goes on only after it has closed a segment with frames. -/
lemma reserveOnce_spec (hfollows : Follows base done)
    (hpos : 0 < frameBytes) (h : Appending settings dir base done log) :
    wp (reserveOnce settings frameBytes) log (fun found log' =>
      Appending settings dir base done log' ∧
        (∀ active, found = some active → log'.active = some active ∧
          frameBytes ≤ settings.maxFrameBytes ∧
            active.bytesWritten + frameBytes ≤ settings.maxSegmentBytes) ∧
        (found = none → log'.active = none ∧ (Fits settings frameBytes → log.active ≠ none)))
      (fun stop log' => Interrupted settings dir base done stop log' ∧
        (Fits settings frameBytes → stop.Injected)) := by
  obtain ⟨segments, saved, frames, hstate, rfl⟩ := h
  refine (ensureActiveSegment_spec hids hstate).seq ?_ ?_
  · rintro stop log' ⟨hstate', hinjected⟩
    refine ⟨Appending.interrupted ⟨segments, saved, frames, hstate', rfl⟩ stop, fun hfits => ?_⟩
    exact hinjected (by have := hfits.2; omega)
  rintro _ log' ⟨hstate', active, hactive, hfresh⟩
  have happending : Appending settings dir base (saved ++ frames.map Frame.entry) log' :=
    ⟨segments, saved, frames, hstate', rfl⟩
  have hof := hstate'.active active hactive
  refine (wp.memory ?_).bind
  simp only [hactive]
  split_ifs with hframe hroom hempty
  · exact wp.reject ⟨happending.interrupted _, fun hfits => absurd hfits.1 (Nat.not_le.mpr hframe)⟩
  · refine wp.pure ⟨happending, ?_, nofun⟩
    rintro found hfound
    cases hfound
    exact ⟨hactive, Nat.not_lt.mp hframe, hroom⟩
  · refine wp.reject ⟨happending.interrupted _, fun hfits => ?_⟩
    have hbytes := hof.bytesWritten
    rw [hof.hasFrames (by simpa using hempty), framesBytes_nil, Nat.add_zero] at hbytes
    exact absurd hfits.2 (by omega)
  · -- The segment is full: its frames are saved, and it is no longer active.
    refine (syncPendingLocations_spec hfollows hstate').seq
      (fun _ _ hstop => ⟨hstop.1, fun _ => hstop.2⟩) ?_
    rintro _ log'' ⟨segments', hsaved⟩
    refine (wp.remember ?_).bind
    refine wp.pure ⟨⟨segments', saved ++ frames.map Frame.entry, [], ?_, by simp⟩, nofun, ?_⟩
    · refine ⟨hsaved.shows.of_files rfl (hsaved.shows.files.congr rfl rfl le_rfl), nofun, nofun, ?_⟩
      exact fun _ => ⟨rfl, hsaved.pending_eq_nil⟩
    · refine fun _ => ⟨rfl, fun hfits hnone => ?_⟩
      have := hfresh hnone
      exact absurd hfits.2 (by omega)

include hids in
lemma reserve_spec (hfollows : Follows base done)
    (hpos : 0 < frameBytes) (h : Appending settings dir base done log) :
    wp (reserve settings frameBytes) log
      (fun active log' => Appending settings dir base done log' ∧ log'.active = some active ∧
        frameBytes ≤ settings.maxFrameBytes ∧
          active.bytesWritten + frameBytes ≤ settings.maxSegmentBytes)
      (fun stop log' => Interrupted settings dir base done stop log' ∧
        (Fits settings frameBytes → stop.Injected)) := by
  refine (reserveOnce_spec hids hfollows hpos h).next ?_
  rintro first log' ⟨h', hfirst, hnone⟩
  cases first with
  | some active => exact wp.pure ⟨h', hfirst active rfl⟩
  | none =>
    refine (reserveOnce_spec hids hfollows hpos h').next ?_
    rintro second log'' ⟨h'', hsecond, hnone'⟩
    cases second with
    | some active => exact wp.pure ⟨h'', hsecond active rfl⟩
    | none =>
      refine wp.reject ⟨h''.interrupted _, fun hfits => ?_⟩
      exact absurd (hnone rfl).1 ((hnone' rfl).2 hfits)

variable {content : SegmentContent (LogEntry N P)} {id : SegmentId}

lemma SegmentContent.Holds.writePart (h : SegmentContent.Holds content id frames) :
    SegmentContent.Holds content.writePart id frames :=
  h

lemma SegmentContent.Holds.writeFrame (h : SegmentContent.Holds content id frames)
    (frame : Frame (LogEntry N P)) : SegmentContent.Holds (content.writeFrame frame) id frames := by
  unfold Mantissa.SegmentContent.writeFrame
  split_ifs
  · exact ⟨h.1, h.2.trans (prefix_append _ _)⟩
  · exact h

variable {entry : LogEntry N P}

/-- Every frame of the active segment is below an entry that follows. -/
lemma AppendState.index_lt (h : AppendState settings dir base segments saved frames log)
    (hfollows : Follows base (saved ++ frames.map Frame.entry ++ [entry])) :
    ∀ earlier ∈ segments id ++ frames, earlier.entry.logId.index < entry.logId.index := by
  intro earlier hearlier
  have hlast : ∀ stored ∈ saved ++ frames.map Frame.entry,
      stored.logId.index < entry.logId.index := fun stored hstored =>
    (pairwise_append.mp hfollows.1).2.2 stored hstored entry (mem_singleton_self _)
  rcases mem_append.mp hearlier with hmem | hmem
  · have hview : (base.append saved).entries earlier.entry.logId.index = some earlier.entry :=
      (h.shows.entries _ _).mpr ⟨rfl, id, earlier, hmem, rfl⟩
    have hstart : Follows base saved := hfollows.of_start
      ((prefix_append _ _).trans (prefix_append _ _))
    rcases (append_entries_iff hstart).mp hview with ⟨hsaved, -⟩ | hbase
    · exact hlast earlier.entry (mem_append_left _ hsaved)
    · exact hfollows.2 entry (mem_append_right _ (mem_singleton_self _)) _ _ hbase
  · exact hlast earlier.entry (mem_append_right _ (mem_map_of_mem hmem))

/-- The active segment with one more frame, whose location is the next one. -/
lemma ActiveOf.concat {active : ActiveSegment} (h : ActiveOf settings segments active frames log)
    (hbytes : settings.frameBytes entry = .ok frameBytes)
    (hframe : frameBytes ≤ settings.maxFrameBytes)
    (hfits : active.bytesWritten + frameBytes ≤ settings.maxSegmentBytes)
    (hindex : ∀ earlier ∈ segments active.id ++ frames, earlier.entry.logId.index <
      entry.logId.index)
    (hfiles : log'.files = (log.writeFile (segmentPath active.id)
      (SegmentContent.writeFrame ⟨active.id, active.nextFrameNumber, frameBytes, entry⟩)).files)
    (hpending : log'.pending = log.pending ++
      [⟨entry.logId, active.id, active.bytesWritten, frameBytes, active.nextFrameNumber⟩]) :
    ActiveOf settings segments
      ⟨active.id, active.bytesWritten + frameBytes, active.nextFrameNumber + 1, true⟩
      (frames ++ [⟨active.id, active.nextFrameNumber, frameBytes, entry⟩]) log' := by
  obtain ⟨file, hfile, hholds, hcontent, htail⟩ := h.file
  refine ⟨⟨⟨file.linked, file.linkedOnDisk, SegmentContent.writeFrame
    ⟨active.id, active.nextFrameNumber, frameBytes, entry⟩ file.content, file.onDisk⟩, ?_,
      ⟨hholds.linked, hholds.linkedOnDisk, hholds.content.writeFrame _, hholds.onDisk⟩, ?_, ?_⟩,
      ?_, ?_, ?_, nofun, ?_⟩
  · rw [hfiles, writeFile, updateFile_files, if_pos rfl, hfile, Option.map_some]
  · simp only [SegmentContent.writeFrame, htail, if_true, hcontent, append_assoc]
  · simp only [SegmentContent.writeFrame, htail, if_true]
  · rw [← append_assoc]
    refine h.wellFormed.concat rfl h.nextFrameNumber hbytes hframe hindex ?_
    rw [← h.bytesWritten]
    exact hfits
  · simp only [framesBytes_append, framesBytes_cons, framesBytes_nil, h.bytesWritten]
    omega
  · simp only [h.nextFrameNumber, length_append, length_singleton, Nat.add_assoc]
  · simp only [hpending, h.pending, layoutFrom_append, layoutFrom, h.bytesWritten,
      h.nextFrameNumber, framesBytes_append, length_append, Nat.add_assoc]

include hids in
/-- A frame is written and its location is pending. -/
lemma appendFrame_spec (hbytes : settings.frameBytes entry = .ok frameBytes)
    (hfollows : Follows base (done ++ [entry]))
    (hremoved : ∀ removed, base.lastRemoved = some removed → removed.index < entry.logId.index)
    (h : Appending settings dir base done log) : wp (appendFrame settings entry frameBytes) log
      (fun _ => Appending settings dir base (done ++ [entry]))
      (fun stop log' => Interrupted settings dir base (done ++ [entry]) stop log' ∧
        (Fits settings frameBytes → stop.Injected)) := by
  have hstart : done <+: done ++ [entry] := prefix_append _ _
  have hpos := settings.frameBytes_pos entry frameBytes hbytes
  refine (reserve_spec hids (hfollows.of_start hstart) hpos h).seq
    (fun _ _ hstop => ⟨hstop.1.mono hstart, hstop.2⟩) ?_
  rintro active log' ⟨⟨segments, saved, frames, hstate, rfl⟩, hactive, hframe, hfits⟩
  have hof := hstate.active active hactive
  have hsaved : ∀ log'', FilesOf settings dir segments log'' → log''.database = log'.database →
      Saved settings dir base (saved ++ frames.map Frame.entry ++ [entry]) log'' :=
    fun log'' hfiles hdatabase => ⟨segments, saved,
      (prefix_append _ _).trans (prefix_append _ _), hstate.shows.of_files hdatabase hfiles⟩
  have hwritten := hstate.shows.files.writeFile (segmentPath active.id)
    (SegmentContent.writeFrame ⟨active.id, active.nextFrameNumber, frameBytes, entry⟩)
    fun _ _ _ _ hholds => hholds.writeFrame _
  refine (rescue_dropActive (writeAll_spec (hsaved _ hstate.shows.files rfl)
    (hsaved _ (hstate.shows.files.writeFile _ _ fun _ _ _ _ hholds => hholds.writePart)
      (updateFile_database ..))
    (hsaved _ hwritten (updateFile_database ..)))).seq (fun _ _ hstop =>
      ⟨hstop.1, fun _ => hstop.2⟩) ?_
  rintro _ _ rfl
  -- The frame is in the file behind the others, and its location is the next one.
  refine wp.remember ⟨segments, saved,
    frames ++ [⟨active.id, active.nextFrameNumber, frameBytes, entry⟩],
      ⟨?_, ?_, ?_, nofun⟩, by simp⟩
  · exact hstate.shows.of_files (updateFile_database ..) (hwritten.congr rfl rfl le_rfl)
  · intro removed hsome frame hmem
    rcases mem_append.mp hmem with hmem | hmem
    · exact hstate.unremoved removed hsome frame hmem
    · rw [mem_singleton.mp hmem]
      exact hremoved removed hsome
  · intro active' hsome
    cases hsome
    refine hof.concat hbytes hframe hfits (hstate.index_lt hfollows) rfl ?_
    simp only [writeFile, updateFile_pending]

/-- An entry that is stored unless there is a fault: it can be, and it was not removed. -/
def Acceptable (settings : LogSettings N P) (base : LogView N P) (entry : LogEntry N P) : Prop :=
  Storable settings entry ∧
    ∀ removed, base.lastRemoved = some removed → removed.index < entry.logId.index

lemma find?_layoutFrom (id : SegmentId) (index : ℕ) : ∀ offset number,
    ((layoutFrom id offset number frames).find? fun location =>
      decide (location.logId.index = index)).map LogLocation.logId =
        ((frames.map Frame.entry).find? fun entry => decide (entry.logId.index = index)).map
          LogEntry.logId := by
  induction frames with
  | nil => intros; rfl
  | cons frame frames ih =>
    intro offset number
    simp only [layoutFrom, map_cons, find?_cons]
    cases decide (frame.entry.logId.index = index) with
    | true => rfl
    | false => exact ih _ _

/-- What the loop looks up for an index: the log id that is stored or pending there. -/
lemma AppendState.found (h : AppendState settings dir base segments saved frames log)
    (hfollows : Follows base (saved ++ frames.map Frame.entry)) (index : ℕ) :
    (log.database.locations[index]?.or (log.pending.find? fun location =>
      decide (location.logId.index = index))).map LogLocation.logId =
        ((base.append (saved ++ frames.map Frame.entry)).entries index).map LogEntry.logId := by
  cases hview : (base.append saved).entries index with
  | some stored =>
    obtain ⟨location, hlocation, hlogId⟩ := h.shows.location_some hview
    simp [hlocation, append_entries_mono hfollows (prefix_append _ _) hview, hlogId]
  | none =>
    obtain ⟨id, offset, number, hpending⟩ : ∃ id offset number,
        log.pending = layoutFrom id offset number frames := by
      cases hactive : log.active with
      | none =>
        obtain ⟨rfl, hnil⟩ := h.inactive hactive
        exact ⟨0, 0, 0, hnil⟩
      | some active => exact ⟨_, _, _, (h.active active hactive).pending⟩
    rw [h.shows.location_none.mpr hview, Option.none_or, hpending, find?_layoutFrom]
    obtain ⟨hsaved, hbase⟩ := Option.or_eq_none_iff.mp hview
    simp [LogView.append, find?_append, hsaved, hbase]

include hids in
/-- The body of the loop over the batch, for the first entry of a new index. -/
lemma appendEntry_spec [DecidableEq N] (hfollows : Follows base (done ++ [entry]))
    (h : Appending settings dir base done log) :
    wp (appendEntry settings base.lastRemoved entry) log
      (fun _ => Appending settings dir base (done ++ [entry]))
      (fun stop log' => Interrupted settings dir base (done ++ [entry]) stop log' ∧
        (Acceptable settings base entry → stop.Injected)) := by
  have hstart : done <+: done ++ [entry] := prefix_append _ _
  have hinterrupted : ∀ stop, Interrupted settings dir base (done ++ [entry]) stop log :=
    fun stop => (h.interrupted stop).mono hstart
  unfold appendEntry
  split_ifs with hremoved
  · refine wp.reject ⟨hinterrupted _, fun haccept => ?_⟩
    obtain ⟨removed, hsome, hle⟩ := (Option.any_eq_true _ _).mp hremoved
    exact absurd (haccept.2 removed hsome) (by simpa using hle)
  have hremoved' : ∀ removed, base.lastRemoved = some removed →
      removed.index < entry.logId.index := by
    intro removed hsome
    simpa [hsome] using hremoved
  obtain ⟨segments, saved, frames, hstate, rfl⟩ := h
  have happending : Appending settings dir base (saved ++ frames.map Frame.entry) log :=
    ⟨segments, saved, frames, hstate, rfl⟩
  refine (Shows.location_spec hstate.shows.rows _).seq
    (fun stop _ hstop => ⟨hstop.2 ▸ hinterrupted stop, fun _ => hstop.1⟩) ?_
  rintro _ log ⟨rfl, rfl⟩
  refine (wp.memory ?_).bind
  have hnone : (base.append (saved ++ frames.map Frame.entry)).entries entry.logId.index =
      none := by
    rw [Option.eq_none_iff_forall_ne_some]
    intro stored hstored
    rcases (append_entries_iff (hfollows.of_start hstart)).mp hstored with ⟨hmem, hindex⟩ | hbase
    · exact ((pairwise_append.mp hfollows.1).2.2 stored hmem entry (mem_singleton_self _)).ne hindex
    · exact (hfollows.2 entry (mem_append_right _ (mem_singleton_self _)) _ _ hbase).ne rfl
  have hfound := hstate.found (hfollows.of_start hstart) entry.logId.index
  rw [hnone, Option.map_none, Option.map_eq_none_iff] at hfound
  simp only [hfound]
  unfold encodeAndAppend
  split
  · next hencode =>
      refine wp.reject ⟨hinterrupted _, fun haccept => ?_⟩
      obtain ⟨⟨⟨_, hok⟩, -⟩, -⟩ := haccept
      exact absurd (hencode.symm.trans hok) nofun
  · next hbytes =>
      have hnot : ¬ Acceptable settings base entry := by
        rintro ⟨⟨-, _, hok, -⟩, -⟩
        exact absurd (hbytes.symm.trans hok) nofun
      refine (ensureActiveSegment_spec hids hstate).seq ?_ ?_
      · rintro stop log' ⟨hstate', -⟩
        exact ⟨(Appending.interrupted ⟨segments, saved, frames, hstate', rfl⟩ stop).mono hstart,
          fun haccept => absurd haccept hnot⟩
      · rintro _ log' ⟨hstate', -⟩
        exact wp.reject ⟨(Appending.interrupted ⟨segments, saved, frames, hstate', rfl⟩ _).mono
          hstart, fun haccept => absurd haccept hnot⟩
  · next frameBytes _ hbytes =>
      refine (appendFrame_spec hids hbytes hfollows hremoved' happending).mono
        (fun _ _ hdone => hdone) fun _ _ hstop => ⟨hstop.1, fun haccept => hstop.2 ?_⟩
      obtain ⟨⟨-, _, hok, hfits⟩, -⟩ := haccept
      obtain rfl := Except.ok.inj (hbytes.symm.trans hok)
      exact hfits

/-- An entry of an index that is stored or pending is passed over if it has the same log id, and
refused if not. -/
lemma appendEntry_known [DecidableEq N] (hfollows : Follows base done) {stored : LogEntry N P}
    (hstored : (base.append done).entries entry.logId.index = some stored)
    (h : Appending settings dir base done log) :
    wp (appendEntry settings base.lastRemoved entry) log
      (fun _ log' => Appending settings dir base done log' ∧ stored.logId = entry.logId)
      (fun stop log' => Interrupted settings dir base done stop log' ∧
        (Acceptable settings base entry → stored.logId = entry.logId → stop.Injected)) := by
  unfold appendEntry
  split_ifs with hremoved
  · refine wp.reject ⟨h.interrupted _, fun haccept => ?_⟩
    obtain ⟨removed, hsome, hle⟩ := (Option.any_eq_true _ _).mp hremoved
    exact absurd (haccept.2 removed hsome) (by simpa using hle)
  obtain ⟨segments, saved, frames, hstate, rfl⟩ := id h
  refine (Shows.location_spec hstate.shows.rows _).seq
    (fun stop _ hstop => ⟨hstop.2 ▸ h.interrupted stop, fun _ _ => hstop.1⟩) ?_
  rintro _ log ⟨rfl, rfl⟩
  refine (wp.memory ?_).bind
  have hfound := hstate.found hfollows entry.logId.index
  rw [hstored, Option.map_some, Option.map_eq_some_iff] at hfound
  obtain ⟨location, hlocation, hlogId⟩ := hfound
  simp only [hlocation, hlogId]
  split_ifs with hsame
  · exact wp.pure ⟨h, hsame⟩
  · exact wp.reject ⟨h.interrupted _, fun _ heq => absurd heq hsame⟩

end AppendEntry

/-! ## The batch -/

/-- A log between two calls: it stands for a view, nothing is pending, and an active segment has
only the frames of its rows. -/
def Ready (settings : LogSettings N P) (dir : GroupDirectory) (view : LogView N P)
    (log : EncryptedLog N P) : Prop :=
  ∃ segments, Shows settings dir segments view log ∧ log.pending = [] ∧
    ∀ active, log.active = some active → ActiveOf settings segments active [] log

/-- A log after a call that stopped: as between two calls, unless there was a crash. -/
def Stopped (settings : LogSettings N P) (dir : GroupDirectory) (view : LogView N P)
    (stop : Stop LogError) (log : EncryptedLog N P) : Prop :=
  (stop ≠ .crashed → Ready settings dir view log) ∧ ∃ segments, Shows settings dir segments view log

lemma Ready.stopped (h : Ready settings dir view log) (stop : Stop LogError) :
    Stopped settings dir view stop log := by
  obtain ⟨segments, hshows, -, -⟩ := id h
  exact ⟨fun _ => h, segments, hshows⟩

section Batch

variable [DecidableEq N]

/-- The view has an entry with the log id of this one. -/
def LogView.Agrees (view : LogView N P) (entry : LogEntry N P) : Prop :=
  ∃ stored, view.entries entry.logId.index = some stored ∧ stored.logId = entry.logId

include hids

lemma appendEntries_spec (isNew : LogEntry N P → Bool)
    (hfollows : Follows base batch) (rest : List (LogEntry N P))
    (hknown : ∀ entry ∈ rest, isNew entry = false →
      ∃ stored, base.entries entry.logId.index = some stored) :
    ∀ done log, batch = done ++ firstNew isNew done rest → Appending settings dir base done log →
      wp (appendEntries settings base.lastRemoved rest) log
        (fun _ log' => Ready settings dir (base.append batch) log' ∧
          ∀ entry ∈ rest, (base.append batch).Agrees entry)
        (fun stop log' => Interrupted settings dir base batch stop log' ∧
          ((∀ entry ∈ rest, Acceptable settings base entry ∧ (base.append batch).Agrees entry) →
            stop.Injected)) := by
  induction rest with
  | nil =>
    rintro done log hbatch ⟨segments, saved, frames, hstate, rfl⟩
    rw [firstNew, List.append_nil] at hbatch
    subst hbatch
    refine (syncPendingLocations_spec hfollows hstate).mono ?_
      fun _ _ hstop => ⟨hstop.1, fun _ => hstop.2⟩
    rintro _ log' ⟨segments', hstate'⟩
    refine ⟨⟨segments', hstate'.shows, ?_, hstate'.active⟩, nofun⟩
    cases hactive : log'.active with
    | none => exact (hstate'.inactive hactive).2
    | some active => simpa [layoutFrom] using (hstate'.active active hactive).pending
  | cons entry rest ih =>
    intro done log hbatch h
    have hnext {done' log'} (hbatch' : batch = done' ++ firstNew isNew done' rest)
        (hagrees : (base.append batch).Agrees entry)
          (h' : Appending settings dir base done' log') :=
      (ih (fun later hlater => hknown later (mem_cons_of_mem _ hlater)) done' log' hbatch' h').mono
        (fun _ _ hdone => And.intro hdone.1 (forall_mem_cons.mpr ⟨hagrees, hdone.2⟩))
        fun _ _ hstop => And.intro hstop.1 fun haccept : ∀ later ∈ entry :: rest,
            Acceptable settings base later ∧ (base.append batch).Agrees later =>
          hstop.2 fun later hlater => haccept later (mem_cons_of_mem _ hlater)
    rw [firstNew] at hbatch
    split_ifs at hbatch with hfirst
    · have hbatch' : batch = done ++ [entry] ++ firstNew isNew (done ++ [entry]) rest := by
        rw [hbatch, append_assoc, singleton_append]
      have hstart : done ++ [entry] <+: batch := hbatch' ▸ prefix_append _ _
      have hagrees : (base.append batch).Agrees entry :=
        ⟨entry, (append_entries_iff hfollows).mpr (.inl ⟨hstart.subset (by simp), rfl⟩), rfl⟩
      exact (appendEntry_spec hids (hfollows.of_start hstart) h).seq (fun _ _ hstop =>
        ⟨hstop.1.mono hstart, fun haccept => hstop.2 (haccept entry mem_cons_self).1⟩)
          fun _ _ h' => hnext hbatch' hagrees h'
    · -- The index is taken, by a row or earlier in the batch.
      have hstart : done <+: batch := hbatch ▸ prefix_append _ _
      obtain ⟨stored, hstored⟩ : ∃ stored,
          (base.append done).entries entry.logId.index = some stored := by
        simp only [append_entries_iff (hfollows.of_start hstart)]
        cases hnew : isNew entry with
        | false => exact (hknown entry mem_cons_self hnew).imp fun _ => .inr
        | true => simpa [hnew, exists_or] using Or.inl hfirst
      have hlater := append_entries_mono hfollows hstart hstored
      refine (appendEntry_known (hfollows.of_start hstart) hstored h).seq ?_
        fun _ _ h' => hnext hbatch ⟨stored, hlater, h'.2⟩ h'.1
      refine fun _ _ hstop => ⟨hstop.1.mono hstart, fun haccept => ?_⟩
      obtain ⟨haccept, stored', hstored', hsame⟩ := haccept entry mem_cons_self
      obtain rfl := Option.some.inj (hlater.symm.trans hstored')
      exact hstop.2 haccept hsame

/-- Of a batch only the first entries of new indices count, and the others have to agree. -/
lemma appendNew_spec (isNew : LogEntry N P → Bool) {entries : List (LogEntry N P)}
    (hfollows : Follows base (firstNew isNew [] entries)) (hknown : ∀ entry ∈ entries,
      isNew entry = false → ∃ stored, base.entries entry.logId.index = some stored)
    (h : Ready settings dir base log) :
    wp (appendBatch settings entries) log
      (fun _ log' => Ready settings dir (base.append (firstNew isNew [] entries)) log' ∧
        ∀ entry ∈ entries, (base.append (firstNew isNew [] entries)).Agrees entry)
      fun stop log' => (∃ saved, saved <+: firstNew isNew [] entries ∧
          Stopped settings dir (base.append saved) stop log') ∧
        ((∀ entry ∈ entries, Acceptable settings base entry ∧
          (base.append (firstNew isNew [] entries)).Agrees entry) → stop.Injected) := by
  obtain ⟨segments, hshows, hpending, hactive⟩ := h
  have hready : Ready settings dir (base.append []) log := by
    exact ⟨segments, hshows, hpending, hactive⟩
  refine (wp.query ?_ fun stop hstop =>
    ⟨⟨[], nil_prefix, hready.stopped stop⟩, fun _ => hstop⟩).bind
  refine (wp.remember ?_).bind
  rw [hshows.lastRemoved]
  have happending : Appending settings dir base [] { log with pending := [] } := by
    refine ⟨segments, [], [], ⟨?_, nofun, ?_, fun _ => ⟨rfl, rfl⟩⟩, rfl⟩
    · exact hshows.of_files rfl (hshows.files.congr rfl rfl le_rfl)
    · intro active hsome
      obtain ⟨hfile, hwell, hbytes, hnumber, hframes, -⟩ := hactive active hsome
      exact ⟨hfile, hwell, hbytes, hnumber, hframes, by simp [layoutFrom]⟩
  refine wp.rescue
    (appendEntries_spec hids isNew hfollows entries hknown [] _ rfl happending) ?_ ?_
  · rintro log' ⟨⟨segments', saved, hstart, hshows', -⟩, hinjected⟩
    exact ⟨⟨saved, hstart, absurd rfl, segments', hshows'⟩, hinjected⟩
  · rintro stop log' hne ⟨⟨segments', saved, hstart, hshows', hactive'⟩, hinjected⟩
    refine wp.remember ⟨⟨saved, hstart, Ready.stopped ⟨segments', ?_, rfl, ?_⟩ stop⟩, hinjected⟩
    · exact hshows'.of_files rfl (hshows'.files.congr rfl rfl le_rfl)
    · intro active hsome
      simp only [List.isEmpty_iff] at hsome
      split_ifs at hsome with hnil
      obtain ⟨hfile, hwell, hbytes, hnumber, hframes, -⟩ := hactive' hne hnil active hsome
      exact ⟨hfile, hwell, hbytes, hnumber, hframes, by simp [layoutFrom]⟩

/-- **A batch that is acknowledged is stored, and one that is not is stored up to some entry.** -/
theorem appendBatch_spec (hfollows : Follows base batch) (h : Ready settings dir base log) :
    wp (appendBatch settings batch) log (fun _ => Ready settings dir (base.append batch))
      fun stop log' => (∃ saved, saved <+: batch ∧
        Stopped settings dir (base.append saved) stop log') ∧
          ((∀ entry ∈ batch, Acceptable settings base entry) → stop.Injected) := by
  have hall : firstNew (fun _ => true) [] batch = batch := firstNew_true hfollows.1
  have hspec := appendNew_spec hids (fun _ => true) (hall.symm ▸ hfollows) nofun h
  rw [hall] at hspec
  refine hspec.mono (fun _ _ hdone => hdone.1) fun _ _ hstop => ⟨hstop.1, fun haccept => ?_⟩
  exact hstop.2 fun entry hentry => ⟨haccept entry hentry, entry,
    (append_entries_iff hfollows).mpr (.inl ⟨hentry, rfl⟩), rfl⟩

end Batch

end Mantissa.EncryptedLog
