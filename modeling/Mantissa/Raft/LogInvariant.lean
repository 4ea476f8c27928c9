import Mantissa.Raft.EncryptedLog

/-!
# What the files and the rows of a log say together

A *segment map* gives each segment id the frames that rows refer to. `RowsOf` says that the
database has exactly the locations of these frames; `FilesOf` says that the files hold them, in what
programs see and on the disk. Everything else in a file is of no account, and this is what lets the
two halves change one at a time: writing to files keeps `FilesOf`, and a transaction that drops rows
goes to a segment map for which the files are there all the same (`FilesOf.shrink`).
-/

namespace Mantissa.EncryptedLog

open List

variable {N P : Type} {settings : LogSettings N P} {id : SegmentId}

/-! ## Where frames lie -/

variable {E : Type}

/-- The bytes of some frames. -/
def framesBytes (frames : List (Frame E)) : ℕ := (frames.map Frame.bytes).sum

@[simp] lemma framesBytes_nil : framesBytes ([] : List (Frame E)) = 0 := rfl

@[simp] lemma framesBytes_cons (frame : Frame E) (frames : List (Frame E)) :
    framesBytes (frame :: frames) = frame.bytes + framesBytes frames := by
  simp [framesBytes]

@[simp] lemma framesBytes_append (frames frames' : List (Frame E)) :
    framesBytes (frames ++ frames') = framesBytes frames + framesBytes frames' := by
  simp [framesBytes]

/-- The locations of frames that follow one another. -/
def layoutFrom (id : SegmentId) : ℕ → ℕ → List (Frame (LogEntry N P)) → List (LogLocation N)
  | _, _, [] => []
  | offset, number, frame :: frames =>
    ⟨frame.entry.logId, id, offset, frame.bytes, number⟩ ::
      layoutFrom id (offset + frame.bytes) (number + 1) frames

/-- The locations of the frames of a segment. -/
def layout (settings : LogSettings N P) (id : SegmentId) (frames : List (Frame (LogEntry N P))) :
    List (LogLocation N) :=
  layoutFrom id settings.headerBytes 0 frames

lemma layoutFrom_append (offset number : ℕ) (frames frames' : List (Frame (LogEntry N P))) :
    layoutFrom id offset number (frames ++ frames') = layoutFrom id offset number frames ++
      layoutFrom id (offset + framesBytes frames) (number + frames.length) frames' := by
  induction frames generalizing offset number with
  | nil => simp [layoutFrom]
  | cons frame frames ih =>
    simp only [cons_append, layoutFrom, ih, framesBytes_cons, length_cons]
    rw [Nat.add_assoc, Nat.add_assoc number, Nat.add_comm 1]

variable {offset number : ℕ} {frames frames' : List (Frame (LogEntry N P))}

lemma mem_layoutFrom {location : LogLocation N} : location ∈ layoutFrom id offset number frames ↔
      ∃ before frame after, frames = before ++ frame :: after ∧
        location = ⟨frame.entry.logId, id, offset + framesBytes before, frame.bytes,
          number + before.length⟩ := by
  constructor
  · induction frames generalizing offset number with
    | nil => simp [layoutFrom]
    | cons frame frames ih =>
      intro h
      rcases mem_cons.mp h with rfl | h
      · exact ⟨[], frame, frames, rfl, by simp⟩
      · obtain ⟨before, found, after, rfl, rfl⟩ := ih h
        refine ⟨frame :: before, found, after, rfl, ?_⟩
        simp only [framesBytes_cons, length_cons, LogLocation.mk.injEq, true_and]
        omega
  · rintro ⟨before, frame, after, rfl, rfl⟩
    rw [layoutFrom_append]
    simp [layoutFrom]

/-- A location is that of a frame. -/
lemma exists_frame_of_mem_layoutFrom {location : LogLocation N}
    (h : location ∈ layoutFrom id offset number frames) :
    ∃ frame ∈ frames, frame.entry.logId = location.logId := by
  obtain ⟨before, frame, after, rfl, rfl⟩ := mem_layoutFrom.mp h
  exact ⟨frame, by simp, rfl⟩

@[simp] lemma layoutFrom_eq_nil : layoutFrom id offset number frames = [] ↔ frames = [] := by
  cases frames <;> simp [layoutFrom]

lemma map_layoutFrom_index (offset number : ℕ) (frames : List (Frame (LogEntry N P))) :
    (layoutFrom id offset number frames).map (fun location => location.logId.index) =
      frames.map fun frame => frame.entry.logId.index := by
  induction frames generalizing offset number with
  | nil => rfl
  | cons frame frames ih => simp [layoutFrom, map_cons, ih]

/-- The frame at a location is found by its offset, since no frame is empty. -/
lemma frameAt_append {start : ℕ} {before after : List (Frame E)} {frame : Frame E}
    (hpos : ∀ earlier ∈ before, 0 < earlier.bytes) :
    frameAt start (before ++ frame :: after) (start + framesBytes before) = some frame := by
  induction before generalizing start with
  | nil => simp [frameAt]
  | cons first before ih =>
    have hfirst : 0 < first.bytes := hpos first mem_cons_self
    have hne : start + framesBytes (first :: before) ≠ start := by
      rw [framesBytes_cons]
      omega
    simp only [cons_append, frameAt, if_neg hne]
    rw [framesBytes_cons, ← Nat.add_assoc]
    exact ih fun earlier h => hpos earlier (mem_cons_of_mem _ h)

/-- Cutting a file behind some of its frames keeps them. -/
lemma prefix_framesUpTo {start length : ℕ} {frames rest : List (Frame E)}
    (h : start + framesBytes frames ≤ length) :
    frames <+: framesUpTo start (frames ++ rest) length := by
  induction frames generalizing start with
  | nil => exact nil_prefix
  | cons frame frames ih =>
    rw [framesBytes_cons] at h
    simp only [cons_append, framesUpTo]
    rw [if_pos (by omega), cons_prefix_cons]
    exact ⟨rfl, ih (by omega)⟩

lemma prefix_commonStart {α : Type} [DecidableEq α] {l a b : List α} (ha : l <+: a) (hb : l <+: b) :
    l <+: commonStart a b := by
  induction l generalizing a b with
  | nil => exact nil_prefix
  | cons x l ih =>
    obtain ⟨a', rfl⟩ := ha
    obtain ⟨b', rfl⟩ := hb
    simp only [cons_append, commonStart, if_true, cons_prefix_cons, true_and]
    exact ih (prefix_append _ _) (prefix_append _ _)

/-! ## Segments -/

/-- Frames as they are written to a segment. -/
structure WellFormed (settings : LogSettings N P) (id : SegmentId)
    (frames : List (Frame (LogEntry N P))) : Prop where
  frame : ∀ before frame after, frames = before ++ frame :: after →
    frame.segmentId = id ∧ frame.frameNumber = before.length ∧
      settings.frameBytes frame.entry = .ok frame.bytes ∧ frame.bytes ≤ settings.maxFrameBytes
  ordered : frames.Pairwise fun a b => a.entry.logId.index < b.entry.logId.index
  size : settings.headerBytes + framesBytes frames ≤ settings.maxSegmentBytes

namespace WellFormed

variable (h : WellFormed settings id frames)

include h

lemma of_start (hstart : frames' <+: frames) : WellFormed settings id frames' := by
  obtain ⟨rest, rfl⟩ := hstart
  refine ⟨?_, (pairwise_append.mp h.ordered).1, ?_⟩
  · rintro before frame after rfl
    exact h.frame before frame (after ++ rest) (by simp)
  · have := h.size
    rw [framesBytes_append] at this
    omega

lemma pos {frame : Frame (LogEntry N P)} (hf : frame ∈ frames) : 0 < frame.bytes := by
  obtain ⟨before, after, rfl⟩ := append_of_mem hf
  exact settings.frameBytes_pos _ _ (h.frame before frame after rfl).2.2.1

/-- One more frame of a larger index that fits. -/
lemma concat {frame : Frame (LogEntry N P)}
    (hid : frame.segmentId = id) (hnumber : frame.frameNumber = frames.length)
    (hbytes : settings.frameBytes frame.entry = .ok frame.bytes)
    (hframe : frame.bytes ≤ settings.maxFrameBytes)
    (hindex : ∀ earlier ∈ frames, earlier.entry.logId.index < frame.entry.logId.index)
    (hsize : settings.headerBytes + framesBytes frames + frame.bytes ≤ settings.maxSegmentBytes) :
    WellFormed settings id (frames ++ [frame]) := by
  refine ⟨?_, ?_, ?_⟩
  · intro before found after heq
    rcases eq_nil_or_concat after with rfl | ⟨after, last, rfl⟩
    · obtain ⟨rfl, hlast⟩ := append_inj' heq rfl
      cases hlast
      exact ⟨hid, hnumber, hbytes, hframe⟩
    · rw [concat_eq_append, ← cons_append, ← append_assoc] at heq
      obtain ⟨rfl, -⟩ := append_inj' heq rfl
      exact h.frame before found after rfl
  · refine pairwise_append.mpr ⟨h.ordered, pairwise_singleton _ _, ?_⟩
    intro earlier hearlier last hlast
    rw [mem_singleton.mp hlast]
    exact hindex earlier hearlier
  · simp only [framesBytes_append, framesBytes_cons, framesBytes_nil]
    omega

end WellFormed

/-- The frames that rows refer to, by segment. -/
abbrev SegmentMap (N P : Type) := SegmentId → List (Frame (LogEntry N P))

/-- An entry in a segment map. -/
def SegmentMap.Has (segments : SegmentMap N P) (entry : LogEntry N P) : Prop :=
  ∃ id, ∃ frame ∈ segments id, frame.entry = entry

/-! ## Rows -/

/-- The rows are the locations of the frames, and the removal point is below them and committed. -/
structure RowsOf (settings : LogSettings N P) (segments : SegmentMap N P)
    (database : LogDatabase N) : Prop where
  wellFormed : ∀ id, segments id ≠ [] → WellFormed settings id (segments id)
  keyed : ∀ index (location : LogLocation N), database.locations[index]? = some location →
    location.logId.index = index
  rows : ∀ location : LogLocation N, database.locations[location.logId.index]? = some location ↔
    location ∈ layout settings location.segmentId (segments location.segmentId)
  removed : ∀ removed, database.lastRemovedLogId = some removed →
    (∀ index (location : LogLocation N), database.locations[index]? = some location →
      removed.index < index) ∧
      ∃ committed, database.committedLogId = some committed ∧ removed.index ≤ committed.index

/-! ## Files -/

/-- A content that starts with the header and some frames. -/
def SegmentContent.Holds (content : SegmentContent (LogEntry N P)) (id : SegmentId)
    (frames : List (Frame (LogEntry N P))) : Prop :=
  content.header = some id ∧ frames <+: content.frames

/-- A file that has these frames, whatever happens. -/
structure SegmentFile.Holds (file : SegmentFile (LogEntry N P)) (id : SegmentId)
    (frames : List (Frame (LogEntry N P))) : Prop where
  linked : file.linked = true
  linkedOnDisk : file.linkedOnDisk = true
  content : SegmentContent.Holds file.content id frames
  onDisk : SegmentContent.Holds file.onDisk id frames

/-- The group directory is `dir`, the frames of the segment map are in the files, and no file has an
id that is still to be drawn. -/
structure FilesOf (settings : LogSettings N P) (dir : GroupDirectory) (segments : SegmentMap N P)
    (log : EncryptedLog N P) : Prop where
  directory : log.directory = dir
  holds : ∀ id, segments id ≠ [] → ∃ file, log.files[segmentPath id]? = some file ∧
    SegmentFile.Holds file id (segments id)
  drawn : ∀ (name : FileName) file, log.files[name]? = some file →
    ∃ draw < log.drawn, settings.segmentIds draw = name.segmentId

lemma SegmentContent.Holds.of_start {content : SegmentContent (LogEntry N P)}
    (h : SegmentContent.Holds content id frames) (hstart : frames' <+: frames) :
    SegmentContent.Holds content id frames' :=
  ⟨h.1, hstart.trans h.2⟩

lemma SegmentFile.Holds.of_start {file : SegmentFile (LogEntry N P)}
    (h : SegmentFile.Holds file id frames) (hstart : frames' <+: frames) :
    SegmentFile.Holds file id frames' :=
  ⟨h.linked, h.linkedOnDisk, h.content.of_start hstart, h.onDisk.of_start hstart⟩

/-! ## Effects on one file -/

section Effects

variable (log : EncryptedLog N P) (name : FileName) (update)

@[simp] lemma updateFile_database : (log.updateFile name update).database = log.database := by
  unfold updateFile
  split <;> rfl

@[simp] lemma updateFile_active : (log.updateFile name update).active = log.active := by
  unfold updateFile
  split <;> rfl

@[simp] lemma updateFile_pending : (log.updateFile name update).pending = log.pending := by
  unfold updateFile
  split <;> rfl

@[simp] lemma updateFile_drawn : (log.updateFile name update).drawn = log.drawn := by
  unfold updateFile
  split <;> rfl

@[simp] lemma updateFile_directory : (log.updateFile name update).directory = log.directory := by
  unfold updateFile
  split <;> rfl

lemma updateFile_files (other : FileName) : (log.updateFile name update).files[other]? =
      if name = other then log.files[other]?.map update else log.files[other]? := by
  unfold updateFile
  split
  · next file h =>
      rw [BTreeMap.getElem?_insert_eq]
      split_ifs with heq
      · subst heq
        rw [h, Option.map_some]
      · rfl
  · next h =>
      split_ifs with heq
      · subst heq
        rw [h, Option.map_none]
      · rfl

@[simp] lemma putFile_drawn (content onDisk) :
    (log.putFile name content onDisk).drawn = log.drawn :=
  rfl

lemma putFile_files (content onDisk) (other : FileName) :
    (log.putFile name content onDisk).files[other]? =
      if name = other then some ⟨true, false, content, onDisk⟩ else log.files[other]? := by
  rw [putFile, BTreeMap.getElem?_insert_eq]

lemma syncedDirectory_files (other : FileName) : (syncedDirectory log).files[other]? =
      log.files[other]?.map fun file => { file with linkedOnDisk := file.linked } := by
  exact Std.ExtTreeMap.getElem?_map

end Effects

namespace FilesOf

variable {log : EncryptedLog N P} {segments segments' : SegmentMap N P} {dir : GroupDirectory}
variable (h : FilesOf settings dir segments log)

include h

/-- Nothing but the files, the directory and the drawn ids matters. -/
lemma congr {log' : EncryptedLog N P} (hdirectory : log'.directory = log.directory)
    (hfiles : log'.files = log.files)
    (hdrawn : log.drawn ≤ log'.drawn) : FilesOf settings dir segments log' := by
  refine ⟨hdirectory.trans h.directory, ?_, ?_⟩
  · rw [hfiles]
    exact h.holds
  · intro name file hfile
    rw [hfiles] at hfile
    obtain ⟨draw, hlt, heq⟩ := h.drawn name file hfile
    exact ⟨draw, hlt.trans_le hdrawn, heq⟩

/-- Files that hold frames hold fewer of them too. -/
lemma shrink (hshrink : ∀ id, segments' id <+: segments id) :
    FilesOf settings dir segments' log := by
  refine ⟨h.directory, ?_, h.drawn⟩
  intro id hne
  have hne' : segments id ≠ [] := by
    intro hnil
    have := hshrink id
    rw [hnil] at this
    exact hne (prefix_nil.mp this)
  obtain ⟨file, hfile, hholds⟩ := h.holds id hne'
  exact ⟨file, hfile, hholds.of_start (hshrink id)⟩

variable {name : FileName}

/-- A change to one file, if it keeps the frames that rows refer to. -/
lemma updateFile {update : SegmentFile (LogEntry N P) → SegmentFile (LogEntry N P)}
    (hupdate : ∀ id file, name = segmentPath id → segments id ≠ [] →
      SegmentFile.Holds file id (segments id) → SegmentFile.Holds (update file) id (segments id)) :
    FilesOf settings dir segments (log.updateFile name update) := by
  refine ⟨by simpa using h.directory, ?_, ?_⟩
  · intro id hne
    obtain ⟨file, hfile, hholds⟩ := h.holds id hne
    rw [updateFile_files, hfile]
    split_ifs with heq
    · exact ⟨update file, rfl, hupdate id file heq hne hholds⟩
    · exact ⟨file, rfl, hholds⟩
  · intro other file hfile
    rw [updateFile_files] at hfile
    rw [updateFile_drawn]
    split_ifs at hfile with heq
    · obtain ⟨file', hfile', -⟩ := Option.map_eq_some_iff.mp hfile
      exact h.drawn other file' hfile'
    · exact h.drawn other file hfile

/-- A file that rows do not refer to may be removed. -/
lemma unlinkFile (hunused : ∀ id, name = segmentPath id → segments id = []) :
    FilesOf settings dir segments (log.unlinkFile name) :=
  h.updateFile fun id _ hname hne _ => absurd (hunused id hname) hne

/-- A write that keeps what a file starts with. -/
lemma writeFile (name : FileName)
    (write : SegmentContent (LogEntry N P) → SegmentContent (LogEntry N P))
    (hwrite : ∀ id content, name = segmentPath id → segments id ≠ [] →
      SegmentContent.Holds content id (segments id) →
        SegmentContent.Holds (write content) id (segments id)) :
    FilesOf settings dir segments (log.writeFile name write) :=
  h.updateFile fun id file hname hne hholds =>
    ⟨hholds.linked, hholds.linkedOnDisk, hwrite id file.content hname hne hholds.content,
      hholds.onDisk⟩

lemma syncedFile (name : FileName) : FilesOf settings dir segments (log.syncedFile name) :=
  h.updateFile fun _ _ _ _ hholds =>
    ⟨hholds.linked, hholds.linkedOnDisk, hholds.content, hholds.content⟩

lemma syncedDirectory : FilesOf settings dir segments log.syncedDirectory := by
  refine ⟨h.directory, ?_, ?_⟩
  · intro id hne
    obtain ⟨file, hfile, hholds⟩ := h.holds id hne
    rw [syncedDirectory_files, hfile]
    exact ⟨_, rfl, hholds.linked, hholds.linked, hholds.content, hholds.onDisk⟩
  · intro name file hfile
    rw [syncedDirectory_files] at hfile
    obtain ⟨file', hfile', -⟩ := Option.map_eq_some_iff.mp hfile
    exact h.drawn name file' hfile'

/-- A new file under a name that rows do not refer to. -/
lemma putFile {content onDisk : SegmentContent (LogEntry N P)}
    (hunused : ∀ id, name = segmentPath id → segments id = [])
    (hdrawn : ∃ draw < log.drawn, settings.segmentIds draw = name.segmentId) :
    FilesOf settings dir segments (log.putFile name content onDisk) := by
  refine ⟨h.directory, ?_, ?_⟩
  · intro id hne
    rw [putFile_files, if_neg fun heq => hne (hunused id heq)]
    exact h.holds id hne
  · intro other file hfile
    rw [putFile_files] at hfile
    split_ifs at hfile with heq
    · exact heq ▸ hdrawn
    · exact h.drawn other file hfile

/-- An id that was not drawn before names no file. -/
lemma not_mem_of_undrawn (hids : Function.Injective settings.segmentIds) (name : FileName)
    (hname : name.segmentId = settings.segmentIds log.drawn) : log.files[name]? = none := by
  cases hfile : log.files[name]? with
  | none => rfl
  | some file =>
    obtain ⟨draw, hlt, heq⟩ := h.drawn name file hfile
    exact absurd (hids (heq.trans hname)) hlt.ne

lemma undrawn_eq_nil (hids : Function.Injective settings.segmentIds) :
    segments (settings.segmentIds log.drawn) = [] := by
  by_contra hne
  obtain ⟨file, hfile, -⟩ := h.holds _ hne
  rw [h.not_mem_of_undrawn hids _ rfl] at hfile
  exact absurd hfile nofun

/-- **A crash keeps the frames that rows refer to**, if there are any only in a directory that it
keeps. -/
lemma crash [DecidableEq N] [DecidableEq P] (choice : CrashChoice N P)
    (hkept : dir.survives choice.directory = true ∨ ∀ id, segments id = []) :
    FilesOf settings (dir.crash choice.directory) segments (log.crash choice) := by
  have hfiles : ∀ name, (log.crash choice).files[name]? =
      log.files[name]?.map (crashFile choice (dir.survives choice.directory) name) := by
    intro name
    rw [← h.directory]
    exact Std.ExtTreeMap.getElem?_map
  refine ⟨congrArg (·.crash choice.directory) h.directory, ?_, ?_⟩
  · intro id hne
    have hkept := hkept.resolve_right fun hnil => hne (hnil id)
    rw [hkept] at hfiles
    obtain ⟨file, hfile, hholds⟩ := h.holds id hne
    have hlinked : (crashFile choice true (segmentPath id) file).linked = true := by
      simp [crashFile, hholds.linked, hholds.linkedOnDisk]
    have hcontent : SegmentContent.Holds (crashContent choice (segmentPath id) file) id
        (segments id) := by
      unfold crashContent
      split_ifs with heq hheader
      · exact hholds.onDisk
      · exact ⟨hholds.onDisk.1, (prefix_commonStart hholds.content.2 hholds.onDisk.2).trans
          (prefix_append _ _)⟩
      · exact absurd (hholds.content.1.trans hholds.onDisk.1.symm) hheader
    exact ⟨_, by rw [hfiles, hfile]; rfl, hlinked, hlinked, hcontent, hcontent⟩
  · intro name file hfile
    rw [hfiles] at hfile
    obtain ⟨file', hfile', -⟩ := Option.map_eq_some_iff.mp hfile
    exact h.drawn name file' hfile'

end FilesOf

end Mantissa.EncryptedLog
