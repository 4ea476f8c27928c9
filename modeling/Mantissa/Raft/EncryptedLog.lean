import Mantissa.Core.Fault
import Mantissa.Core.OrderedMap

/-!
# The encrypted Raft log

Entries live in append-only segment files, one frame each; a database row per index says where. An
append writes frames, syncs the file and only then saves the rows. A removal changes rows first and
files afterwards, and a segment that loses only some of its entries is written anew under another
name. Whatever a crash leaves in files that no row refers to is removed when the log is opened.

Frames are kept decoded: encryption and encoding are taken to return what was put in, and a frame
that was not written completely is a number of bytes at the end of the file. A file has the content
that programs see and the content that the last sync put on the disk, and the same holds for its
directory entry. Random segment ids are a given sequence.

Each access to a file or to the database is one line of the fault script of `Prog`. A row that
cannot be encoded is one more way for a database access to fail.
-/

namespace Mantissa

open Prog

/-- `openraft::LogId`, with the term and the node of its leader. -/
structure LogId (N : Type) where
  term : ℕ
  nodeId : N
  index : ℕ
  deriving DecidableEq

/-- `openraft::Entry`. -/
structure LogEntry (N P : Type) where
  logId : LogId N
  payload : P
  deriving DecidableEq

/-- `LogError`, as far as entries that can be encoded and authenticated cause it. -/
inductive LogError
  | frameTooLarge (actual maximum : ℕ)
  | segmentTooSmall (required maximum : ℕ)
  | conflictingLogId (index : ℕ)
  | missingLogIndex (index : ℕ)
  | committedLogWouldBeRemoved (start committed : ℕ)
  | uncommittedLogWouldBeRemoved (through committed : ℕ)
  | noCommittedLogToRemove (through : ℕ)
  | logIndexAlreadyRemoved (index : ℕ)
  | recordMismatch (record : String)
  | protocol
  | random
  | file (action : String)
  | appendResultUnknown
  | database
  deriving DecidableEq

/-! ## Files -/

abbrev SegmentId := ℕ

/-- The name of a segment, or of the unfinished file that will replace one. -/
structure FileName where
  segmentId : SegmentId
  temporary : Bool

namespace FileName

lemma fields_injective :
    Function.Injective fun name : FileName => toLex (name.segmentId, name.temporary) := by
  rintro ⟨_, _⟩ ⟨_, _⟩ h
  cases h
  rfl

instance : LinearOrder FileName := LinearOrder.lift' _ fields_injective

end FileName

/-- One stored entry, with the metadata its frame header binds to it. -/
structure Frame (E : Type) where
  segmentId : SegmentId
  frameNumber : ℕ
  bytes : ℕ
  entry : E
  deriving DecidableEq

/-- A segment's header, if it is complete, its complete frames, and the bytes after them. -/
structure SegmentContent (E : Type) where
  header : Option SegmentId
  frames : List (Frame E)
  tail : ℕ
  deriving DecidableEq

namespace SegmentContent

variable {E : Type}

def empty : SegmentContent E := ⟨none, [], 0⟩

/-- Part of a write. -/
def writePart (content : SegmentContent E) : SegmentContent E :=
  { content with tail := content.tail + 1 }

/-- A frame written at the end; after other bytes it cannot be told from them. -/
def writeFrame (frame : Frame E) (content : SegmentContent E) : SegmentContent E :=
  if content.tail = 0 then { content with frames := content.frames ++ [frame] }
  else { content with tail := content.tail + frame.bytes }

end SegmentContent

/-- A file as programs see it and as it was last synced, and the same for its directory entry. -/
structure SegmentFile (E : Type) where
  linked : Bool
  linkedOnDisk : Bool
  content : SegmentContent E
  onDisk : SegmentContent E

/-- `LogLocation`. -/
structure LogLocation (N : Type) where
  logId : LogId N
  segmentId : SegmentId
  frameOffset : ℕ
  frameBytes : ℕ
  frameNumber : ℕ
  deriving DecidableEq

/-- The rows of one group: its locations by index, and `SavedLogState`. -/
structure LogDatabase (N : Type) where
  locations : BTreeMap ℕ (LogLocation N)
  lastRemovedLogId : Option (LogId N)
  committedLogId : Option (LogId N)

/-- `ActiveSegment`. -/
structure ActiveSegment where
  id : SegmentId
  bytesWritten : ℕ
  nextFrameNumber : ℕ
  hasFrames : Bool

/-- The group directory: whether it exists, and whether its entry in the parent is on the disk. -/
structure GroupDirectory where
  created : Bool
  createdOnDisk : Bool
  deriving DecidableEq

/-- Whether the directory is there after a crash, which may keep an entry that was not synced. -/
def GroupDirectory.survives (directory : GroupDirectory) (kept : Bool) : Bool :=
  directory.created && (directory.createdOnDisk || kept)

def GroupDirectory.crash (directory : GroupDirectory) (kept : Bool) : GroupDirectory :=
  ⟨directory.survives kept, directory.survives kept⟩

/-- `EncryptedLog`, with its directory and database, the number of segment ids drawn so far, and the
`pending` locations of `append_batch`. -/
structure EncryptedLog (N P : Type) where
  directory : GroupDirectory
  files : BTreeMap FileName (SegmentFile (LogEntry N P))
  database : LogDatabase N
  drawn : ℕ
  active : Option ActiveSegment
  pending : List (LogLocation N)

/-- `LogLimits`, what the host decides (random segment ids in the order they are drawn, and the
order in which a directory is listed), and the sizes that encoding gives: of a segment header, and
of the frame of an entry, which has a fixed prefix and so is never empty. -/
structure LogSettings (N P : Type) where
  maxFrameBytes : ℕ
  maxSegmentBytes : ℕ
  segmentIds : ℕ → SegmentId
  directoryOrder : List FileName → List FileName
  directoryOrder_perm : ∀ names, (directoryOrder names).Perm names
  headerBytes : ℕ
  encodeLogEntry : LogEntry N P → Except LogError Unit
  frameBytes : LogEntry N P → Except LogError ℕ
  frameBytes_pos : ∀ entry bytes, frameBytes entry = .ok bytes → 0 < bytes

abbrev LogM (N P : Type) := Prog (EncryptedLog N P) LogError

namespace EncryptedLog

variable {N P : Type}

/-- A group that was never opened. -/
def empty : EncryptedLog N P := ⟨⟨false, false⟩, ∅, ⟨∅, none, none⟩, 0, none, []⟩

def segmentPath (id : SegmentId) : FileName := ⟨id, false⟩

def replacementPath (id : SegmentId) : FileName := ⟨id, true⟩

variable (log : EncryptedLog N P) (name : FileName)

/-- A file that is in the directory. -/
def fileAt : Option (SegmentFile (LogEntry N P)) :=
  log.files[name]?.filter SegmentFile.linked

def updateFile
    (update : SegmentFile (LogEntry N P) → SegmentFile (LogEntry N P)) : EncryptedLog N P :=
  match log.files[name]? with
  | some file => { log with files := log.files.insert name (update file) }
  | none => log

/-- The bytes of a file. -/
def contentBytes (settings : LogSettings N P) (content : SegmentContent (LogEntry N P)) : ℕ :=
  (if content.header.isSome then settings.headerBytes else 0) +
    (content.frames.map Frame.bytes).sum + content.tail

/-- The frame that starts at an offset, when the first one starts at `start`. -/
def frameAt {E : Type} : ℕ → List (Frame E) → ℕ → Option (Frame E)
  | _, [], _ => none
  | start, frame :: frames, offset =>
    if offset = start then some frame else frameAt (start + frame.bytes) frames offset

/-- The frames that end at or before a length. -/
def framesUpTo {E : Type} : ℕ → List (Frame E) → ℕ → List (Frame E)
  | _, [], _ => []
  | start, frame :: frames, length =>
    if start + frame.bytes ≤ length then frame :: framesUpTo (start + frame.bytes) frames length
    else []

/-- `set_len`, when the length is not below the header. -/
def truncate (settings : LogSettings N P) (length : ℕ) (content : SegmentContent (LogEntry N P)) :
    SegmentContent (LogEntry N P) :=
  let frames := framesUpTo settings.headerBytes content.frames length
  ⟨content.header, frames, length - (settings.headerBytes + (frames.map Frame.bytes).sum)⟩

/-! ## File operations -/

/-- A new file, with a directory entry that is not on the disk yet. -/
def putFile (content onDisk : SegmentContent (LogEntry N P)) : EncryptedLog N P :=
  { log with files := log.files.insert name ⟨true, false, content, onDisk⟩ }

def unlinkFile : EncryptedLog N P :=
  log.updateFile name fun file => { file with linked := false }

def writeFile
    (write : SegmentContent (LogEntry N P) → SegmentContent (LogEntry N P)) : EncryptedLog N P :=
  log.updateFile name fun file => { file with content := write file.content }

def syncedFile : EncryptedLog N P :=
  log.updateFile name fun file => { file with onDisk := file.content }

def syncedDirectory : EncryptedLog N P :=
  { log with files := log.files.map fun _ file => { file with linkedOnDisk := file.linked } }

variable (action : String) (name : FileName)

/-- `create_segment`: an existing file is not replaced. -/
def createSegment : LogM N P Unit := do
  let existing ← memory fun log => log.fileAt name
  match existing with
  | some _ => reject (.file action)
  | none => perform (.file action) fun log => log.putFile name .empty .empty

/-- `write_all`, which fails before its last byte or after it. -/
def writeAll (error : LogError) (name : FileName)
    (write : SegmentContent (LogEntry N P) → SegmentContent (LogEntry N P)) : LogM N P Unit := do
  call error id fun log => log.writeFile name .writePart
  perform error fun log => log.writeFile name write

/-- `sync_all`. -/
def syncAll (error : LogError) (name : FileName) : LogM N P Unit :=
  perform error fun log => log.syncedFile name

/-- `sync_directory`. -/
def syncDirectory : LogM N P Unit :=
  perform (.file action) syncedDirectory

/-- `sync_log_directory`. -/
def syncLogDirectory : LogM N P Unit := syncDirectory "sync Raft log directory"

/-- `remove_file`, of a file that is there. -/
def removeFile : LogM N P Unit :=
  perform (.file action) fun log => log.unlinkFile name

/-- `move_file`: an existing target is not replaced. -/
def moveFile (source target : FileName) : LogM N P Unit := do
  let existing ← memory fun log => log.fileAt target
  let moved ← memory fun log => log.fileAt source
  match existing, moved with
  | none, some file => perform (.file action) fun log =>
    (log.unlinkFile source).putFile target file.content file.onDisk
  | _, _ => reject (.file action)

/-- `open_segment`: the content to read from. -/
def openSegment : LogM N P (SegmentContent (LogEntry N P)) := do
  let file ← query (.file action) fun log => log.fileAt name
  match file with
  | some file => pure file.content
  | none => reject (.file action)

/-- `new_segment_id`. -/
def newSegmentId (settings : LogSettings N P) : LogM N P SegmentId := do
  perform .random fun log => { log with drawn := log.drawn + 1 }
  memory fun log => settings.segmentIds (log.drawn - 1)

/-! ## Reading -/

/-- `last_removed_log_id`. -/
def lastRemovedLogId : LogM N P (Option (LogId N)) :=
  query .database fun log => log.database.lastRemovedLogId

/-- `committed_log_id`. -/
def committedLogId : LogM N P (Option (LogId N)) :=
  query .database fun log => log.database.committedLogId

/-- `location`. -/
def location (index : ℕ) : LogM N P (Option (LogLocation N)) := do
  let found ← query .database fun log => log.database.locations[index]?
  match found with
  | none => pure none
  | some location =>
    if location.logId.index = index then pure (some location)
    else reject (.recordMismatch "location")

/-- `all_locations`, in index order. -/
def allLocations : LogM N P (List (LogLocation N)) := do
  let rows ← query .database fun log => log.database.locations.toList
  if rows.all fun row => decide (row.2.logId.index = row.1) then pure (rows.map Prod.snd)
  else reject (.recordMismatch "location")

/-- `read_and_check_segment_header`. -/
def readAndCheckSegmentHeader (settings : LogSettings N P)
    (content : SegmentContent (LogEntry N P)) (expected : SegmentId) : LogM N P ℕ := do
  let header ← query (.file "read Raft log segment header") fun _ => content.header
  if header = some expected then pure settings.headerBytes
  else reject (.recordMismatch "segment header")

section ReadFrame

variable [DecidableEq N] (settings : LogSettings N P)

/-- `read_frame`, up to the decrypted entry. -/
def readFrame (content : SegmentContent (LogEntry N P))
    (headerBytes : ℕ) (location : LogLocation N) : LogM N P (LogEntry N P) :=
  if location.frameOffset < headerBytes then reject (.recordMismatch "location offset")
  else if settings.maxFrameBytes < location.frameBytes then
    reject (.frameTooLarge location.frameBytes settings.maxFrameBytes)
  else do
    let fileBytes ← query (.file "inspect Raft log segment") fun _ =>
      contentBytes settings content
    if fileBytes < location.frameOffset + location.frameBytes then
      reject (.recordMismatch "location file range")
    else do
      let found ← query (.file "read Raft log frame") fun _ =>
        frameAt headerBytes content.frames location.frameOffset
      match found with
      | none => reject (.recordMismatch "frame prefix")
      | some frame =>
        if frame.bytes ≠ location.frameBytes then reject (.recordMismatch "frame length")
        else if frame.segmentId ≠ location.segmentId ∨
            frame.frameNumber ≠ location.frameNumber ∨ frame.entry.logId ≠ location.logId then
          reject (.recordMismatch "frame header")
        else pure frame.entry

/-- `read_entry_at_location`. -/
def readEntryAtLocation (location : LogLocation N) : LogM N P (LogEntry N P) := do
  let content ← openSegment "open Raft log segment" (segmentPath location.segmentId)
  let headerBytes ← readAndCheckSegmentHeader settings content location.segmentId
  let entry ← readFrame settings content headerBytes location
  if entry.logId ≠ location.logId then reject (.recordMismatch "decrypted log ID")
  else pure entry

/-- `read_entry`. -/
def readEntry (index : ℕ) : LogM N P (Option (LogEntry N P)) := do
  let found ← location index
  match found with
  | none => pure none
  | some location => some <$> readEntryAtLocation settings location

/-! ## Recovery -/

variable (locations : List (LogLocation N))

/-- The locations of each segment, in index order. -/
def bySegment : BTreeMap SegmentId (List (LogLocation N)) :=
  locations.foldl (fun segments location => segments.insert location.segmentId
    ((segments[location.segmentId]?).getD [] ++ [location])) ∅

/-- Remove files one after the other. -/
def removeFiles (action : String) : List FileName → LogM N P Unit
  | [] => pure ()
  | name :: names => do
      removeFile action name
      removeFiles action names

/-- `remove_unused_files`. -/
def removeUnusedFiles (segments : BTreeMap SegmentId (List (LogLocation N))) : LogM N P Unit := do
  let names ← query (.file "list Raft log directory") fun log =>
    settings.directoryOrder ((log.files.toList.filter fun row => row.2.linked).map Prod.fst)
  let unused := names.filter fun name => name.temporary || !segments.contains name.segmentId
  removeFiles "remove unused Raft log file" unused
  if unused.isEmpty then pure () else syncLogDirectory

/-- The loop of `check_and_shorten_segment` over the locations; the offset after the last frame. -/
def checkFrames (settings : LogSettings N P) (content : SegmentContent (LogEntry N P))
    (headerBytes : ℕ) : ℕ → ℕ → Option ℕ → List (LogLocation N) → LogM N P ℕ
  | expectedOffset, _, _, [] => pure expectedOffset
  | expectedOffset, expectedFrameNumber, previousLogIndex, location :: locations =>
    if location.frameOffset ≠ expectedOffset then reject (.recordMismatch "frame offset")
    else if location.frameNumber ≠ expectedFrameNumber then
      reject (.recordMismatch "frame number")
    else if previousLogIndex.any fun logIndex => decide (location.logId.index ≤ logIndex) then
      reject (.recordMismatch "log index order")
    else do
      let _ ← readFrame settings content headerBytes location
      checkFrames settings content headerBytes (location.frameOffset + location.frameBytes)
        (expectedFrameNumber + 1) (some location.logId.index) locations

/-- `check_and_shorten_segment`. -/
def checkAndShortenSegment (id : SegmentId) (locations : List (LogLocation N)) : LogM N P Unit := do
  let content ← openSegment "open Raft log segment for recovery" (segmentPath id)
  let headerBytes ← readAndCheckSegmentHeader settings content id
  let expectedOffset ← checkFrames settings content headerBytes headerBytes 0 none locations
  let fileBytes ← query (.file "inspect Raft log segment") fun _ =>
    contentBytes settings content
  if settings.maxSegmentBytes < expectedOffset then reject (.recordMismatch "segment size")
  else if expectedOffset < fileBytes then do
    perform (.file "shorten Raft log segment") fun log =>
      log.writeFile (segmentPath id) (truncate settings expectedOffset)
    syncAll (.file "shorten Raft log segment") (segmentPath id)
  else pure ()

/-- The segments one after the other, each with its locations by offset. -/
def checkSegments (settings : LogSettings N P) :
    List (SegmentId × List (LogLocation N)) → LogM N P Unit
  | [] => pure ()
  | (id, locations) :: segments => do
      checkAndShortenSegment settings id
        (locations.insertionSort fun a b => a.frameOffset ≤ b.frameOffset)
      checkSegments settings segments

/-- `recover_files`. -/
def recoverFiles : LogM N P Unit := do
  let lastRemoved ← lastRemovedLogId
  let locations ← allLocations
  if lastRemoved.any fun removed => locations.head?.any fun location =>
      decide (location.logId.index ≤ removed.index) then
    reject (.recordMismatch "removed log entries")
  else do
    let segments := bySegment locations
    removeUnusedFiles settings segments
    checkSegments settings segments.toList

/-- `create_directory` and, when it is new, the sync of its parent. The sync is not made up for if
it fails, since the next `open` finds the directory there. -/
def createDirectory : LogM N P Unit := do
  let existing ← memory fun log => log.directory.created
  perform (.file "create Raft log group directory") fun log =>
    { log with directory := ⟨true, log.directory.createdOnDisk⟩ }
  if existing then pure ()
  else perform (.file "sync Raft log group parent directory") fun log =>
    { log with directory := ⟨log.directory.created, log.directory.created⟩ }

/-- `open_with_file_system`, once the key is loaded. -/
def openLog : LogM N P Unit := do
  createDirectory
  -- The transaction that creates the tables.
  perform .database id
  remember fun log => { log with active := none, pending := [] }
  recoverFiles settings

/-! ## Appending -/

/-- `ensure_active_segment`. -/
def ensureActiveSegment : LogM N P Unit := do
  let active ← memory fun log => log.active
  match active with
  | some _ => pure ()
  | none => do
      let id ← newSegmentId settings
      if settings.maxSegmentBytes ≤ settings.headerBytes then
        reject (.segmentTooSmall (settings.headerBytes + 1) settings.maxSegmentBytes)
      else do
        createSegment "create Raft log segment" (segmentPath id)
        writeAll (.file "write Raft log segment header") (segmentPath id) fun content =>
          { content with header := some id }
        syncAll (.file "sync Raft log segment header") (segmentPath id)
        syncDirectory "sync Raft log segment directory"
        remember fun log =>
          { log with active := some ⟨id, settings.headerBytes, 0, false⟩ }

/-- `self.active = None`. -/
def dropActive : LogM N P Unit := remember fun log => { log with active := none }

/-- Put rows for some locations. -/
def insertRows : EncryptedLog N P :=
  { log with database := { log.database with
      locations := log.database.locations.upsertAll
        (locations.map fun location => (location.logId.index, location)) } }

/-- `save_locations`. -/
def saveLocations : LogM N P Unit := do
  let saved ← query .database fun log => log.database.locations
  match locations.find? fun location => (saved[location.logId.index]?).isSome with
  | some location => reject (.conflictingLogId location.logId.index)
  | none => perform .database fun log => log.insertRows locations

/-- `sync_pending_locations`. -/
def syncPendingLocations : LogM N P Unit := do
  let pending ← memory fun log => log.pending
  if pending.isEmpty then pure ()
  else do
    let active ← memory fun log => log.active
    match active with
    | none => reject (.recordMismatch "active segment")
    | some active => do
        rescue (syncAll .appendResultUnknown (segmentPath active.id)) dropActive
        rescue (saveLocations pending) dropActive
        remember fun log => { log with pending := [] }

/-- One round of the loop that looks for room: none after a full segment was closed. -/
def reserveOnce (frameBytes : ℕ) : LogM N P (Option ActiveSegment) := do
  ensureActiveSegment settings
  let active ← memory fun log => log.active
  match active with
  | none => reject (.recordMismatch "active segment")
  | some active =>
    if settings.maxFrameBytes < frameBytes then
      reject (.frameTooLarge frameBytes settings.maxFrameBytes)
    else if active.bytesWritten + frameBytes ≤ settings.maxSegmentBytes then pure (some active)
    else if !active.hasFrames then
      reject (.segmentTooSmall (active.bytesWritten + frameBytes) settings.maxSegmentBytes)
    else do
      syncPendingLocations
      dropActive
      pure none

/-- The loop: a segment just created has no frames, so there is no third round. -/
def reserve (frameBytes : ℕ) : LogM N P ActiveSegment := do
  let first ← reserveOnce settings frameBytes
  match first with
  | some active => pure active
  | none => do
      let second ← reserveOnce settings frameBytes
      match second with
      | some active => pure active
      | none => reject (.recordMismatch "active segment")

/-- Write the frame of one entry and remember its location. -/
def appendFrame (entry : LogEntry N P) (frameBytes : ℕ) : LogM N P Unit := do
  let active ← reserve settings frameBytes
  rescue (writeAll .appendResultUnknown (segmentPath active.id)
    (SegmentContent.writeFrame ⟨active.id, active.nextFrameNumber, frameBytes, entry⟩)) dropActive
  remember fun log => { log with
    active := some ⟨active.id, active.bytesWritten + frameBytes, active.nextFrameNumber + 1, true⟩
    pending := log.pending ++
      [⟨entry.logId, active.id, active.bytesWritten, frameBytes, active.nextFrameNumber⟩] }

/-- Encode an entry and append it. The header is encoded after the first segment is there, and its
size does not depend on the segment. -/
def encodeAndAppend (entry : LogEntry N P) : LogM N P Unit :=
  match settings.encodeLogEntry entry, settings.frameBytes entry with
  | .error error, _ => reject error
  | .ok _, .error error => do
      ensureActiveSegment settings
      reject error
  | .ok _, .ok frameBytes => appendFrame settings entry frameBytes

/-- The body of the loop of `append_batch`. -/
def appendEntry (removed : Option (LogId N)) (entry : LogEntry N P) : LogM N P Unit :=
  if removed.any fun removed => decide (entry.logId.index ≤ removed.index) then
    reject (.logIndexAlreadyRemoved entry.logId.index)
  else do
    let existing ← location entry.logId.index
    let pending ← memory fun log => log.pending
    match existing.or (pending.find? fun location =>
        decide (location.logId.index = entry.logId.index)) with
    | some existing =>
      if existing.logId = entry.logId then pure ()
      else reject (.conflictingLogId entry.logId.index)
    | none => encodeAndAppend settings entry

/-- The loop of `append_batch`. -/
def appendEntries (settings : LogSettings N P) (removed : Option (LogId N)) :
    List (LogEntry N P) → LogM N P Unit
  | [] => syncPendingLocations
  | entry :: entries => do
      appendEntry settings removed entry
      appendEntries settings removed entries

/-- `append_batch`: an error with frames still pending gives up the segment. -/
def appendBatch (entries : List (LogEntry N P)) : LogM N P Unit := do
  let removed ← lastRemovedLogId
  remember fun log => { log with pending := [] }
  rescue (appendEntries settings removed entries)
    (remember fun log =>
      { log with active := if log.pending.isEmpty then log.active else none, pending := [] })

/-! ## Removing -/

variable (logId : LogId N)

/-- `save_committed`. -/
def saveCommitted : LogM N P Unit := do
  let committed ← committedLogId
  match committed.filter fun current => decide (logId.index ≤ current.index) with
  | some current =>
    if current.index = logId.index ∧ current ≠ logId then
      reject (.conflictingLogId logId.index)
    else pure ()
  | none => do
      let found ← location logId.index
      match found with
      | none => reject (.missingLogIndex logId.index)
      | some location =>
        if location.logId ≠ logId then reject (.conflictingLogId logId.index)
        else perform .database fun log =>
          { log with database := { log.database with committedLogId := some logId } }

variable (removed : List (LogLocation N))

/-- Drop the rows of some locations. -/
def dropRows : EncryptedLog N P :=
  { log with database := { log.database with
      locations := removed.foldl (fun rows location => rows.erase location.logId.index)
        log.database.locations } }

/-- `delete_from`. -/
def deleteFrom (index : ℕ) : LogM N P Unit := do
  let committed ← committedLogId
  match committed.filter fun committed => decide (index ≤ committed.index) with
  | some committed => reject (.committedLogWouldBeRemoved index committed.index)
  | none => do
      dropActive
      recoverFiles settings
      let locations ← allLocations
      let removed := locations.filter fun location => decide (index ≤ location.logId.index)
      if removed.isEmpty then pure ()
      else do
        perform .database fun log => log.dropRows removed
        recoverFiles settings

/-- `remove_if_present`. -/
def removeIfPresent : LogM N P Unit := do
  let file ← memory fun log => log.fileAt name
  match file with
  | some _ => removeFile "remove unused Raft log file" name
  | none => pure ()

/-- The loop of `write_replacement` over the kept locations. -/
def copyFrames (settings : LogSettings N P) (old : SegmentContent (LogEntry N P))
    (oldHeaderBytes : ℕ) (newId : SegmentId) :
    ℕ → ℕ → List (LogLocation N) → LogM N P (List (LogLocation N))
  | _, _, [] => pure []
  | frameOffset, frameNumber, location :: kept => do
      let entry ← readFrame settings old oldHeaderBytes location
      match settings.frameBytes entry with
      | .error error => reject error
      | .ok frameBytes =>
        if settings.maxFrameBytes < frameBytes then
          reject (.frameTooLarge frameBytes settings.maxFrameBytes)
        else if settings.maxSegmentBytes < frameOffset + frameBytes then
          reject (.segmentTooSmall (frameOffset + frameBytes) settings.maxSegmentBytes)
        else do
          writeAll (.file "write replacement Raft log frame") (replacementPath newId)
            (SegmentContent.writeFrame ⟨newId, frameNumber, frameBytes, entry⟩)
          let rest ← copyFrames settings old oldHeaderBytes newId (frameOffset + frameBytes)
            (frameNumber + 1) kept
          pure (⟨location.logId, newId, frameOffset, frameBytes, frameNumber⟩ :: rest)

/-- `write_replacement`. -/
def writeReplacement (oldId newId : SegmentId)
    (kept : List (LogLocation N)) : LogM N P (List (LogLocation N)) := do
  let old ← openSegment "open old Raft log segment" (segmentPath oldId)
  let oldHeaderBytes ← readAndCheckSegmentHeader settings old oldId
  createSegment "create replacement Raft log segment" (replacementPath newId)
  writeAll (.file "write replacement Raft log header") (replacementPath newId) fun content =>
    { content with header := some newId }
  let locations ← copyFrames settings old oldHeaderBytes newId settings.headerBytes 0 kept
  syncAll (.file "sync replacement Raft log segment") (replacementPath newId)
  moveFile "install replacement Raft log segment" (replacementPath newId) (segmentPath newId)
  syncLogDirectory
  pure locations

/-- `prepare_replacement`. -/
def prepareReplacement (oldId : SegmentId)
    (kept : List (LogLocation N)) : LogM N P (SegmentId × List (LogLocation N)) := do
  let newId ← newSegmentId settings
  let locations ← rescue (writeReplacement settings oldId newId kept) (do
    removeIfPresent (replacementPath newId)
    removeIfPresent (segmentPath newId)
    syncLogDirectory)
  pure (newId, locations)

variable (replacements : List (SegmentId × List (LogLocation N)))

/-- `remove_new_files`. -/
def removeNewFiles : LogM N P Unit :=
  if replacements.isEmpty then pure ()
  else do
    removePresent replacements
    syncLogDirectory
where
  removePresent : List (SegmentId × List (LogLocation N)) → LogM N P Unit
    | [] => pure ()
    | (id, _) :: replacements => do
        removeIfPresent (segmentPath id)
        removePresent replacements

/-- The replacements of `delete_through`, for the segments that keep some of their entries. -/
def prepareReplacements (settings : LogSettings N P) (through : ℕ) :
    List (SegmentId × List (LogLocation N)) → List (SegmentId × List (LogLocation N)) →
      LogM N P (List (SegmentId × List (LogLocation N)))
  | [], replacements => pure replacements
  | (id, locations) :: segments, replacements =>
    let removed := locations.filter fun location => decide (location.logId.index ≤ through)
    let kept := locations.filter fun location => decide (through < location.logId.index)
    if removed.isEmpty ∨ kept.isEmpty then
      prepareReplacements settings through segments replacements
    else do
      let replacement ← rescue (prepareReplacement settings id kept)
        (removeNewFiles replacements)
      prepareReplacements settings through segments (replacements ++ [replacement])

/-- Drop rows, put others, and move the removal point. -/
def exchangeRows (committed : Option (LogId N))
    (removed added : List (LogLocation N)) : EncryptedLog N P :=
  let replaced := (log.dropRows removed).insertRows added
  { replaced with database := ⟨replaced.database.locations, some logId, committed⟩ }

/-- `save_removal`. -/
def saveRemoval : LogM N P Unit := do
  let committed ← committedLogId
  perform .database fun log =>
    log.exchangeRows logId committed removed (replacements.flatMap Prod.snd)

/-- `remove_old_segments`. -/
def removeOldSegments (ids : List SegmentId) : LogM N P Unit := do
  let present ← memory fun log =>
    (ids.map segmentPath).filter fun name => (log.fileAt name).isSome
  removeFiles "remove old Raft log segment" present
  if present.isEmpty then pure () else syncLogDirectory

/-- `delete_through`, after its checks. -/
def removeThrough (locations : List (LogLocation N)) : LogM N P Unit := do
  let segments := (bySegment locations).toList
  let replacements ← prepareReplacements settings logId.index segments []
  let removed := locations.filter fun location => decide (location.logId.index ≤ logId.index)
  saveRemoval logId removed replacements
  removeOldSegments ((segments.filter fun segment =>
    segment.2.any fun location => decide (location.logId.index ≤ logId.index)).map Prod.fst)
  recoverFiles settings

/-- `delete_through`. -/
def deleteThrough : LogM N P Unit := do
  let committed ← committedLogId
  match committed with
  | none => reject (.noCommittedLogToRemove logId.index)
  | some committed =>
    if committed.index < logId.index then
      reject (.uncommittedLogWouldBeRemoved logId.index committed.index)
    else do
      dropActive
      recoverFiles settings
      let lastRemoved ← lastRemovedLogId
      match lastRemoved.filter fun removed => decide (logId.index ≤ removed.index) with
      | some removed =>
        if removed.index = logId.index ∧ removed ≠ logId then
          reject (.conflictingLogId logId.index)
        else pure ()
      | none => do
          let locations ← allLocations
          match locations.find? fun location => decide (location.logId.index = logId.index) with
          | none => reject (.missingLogIndex logId.index)
          | some last =>
            if last.logId ≠ logId then reject (.conflictingLogId logId.index)
            else removeThrough settings logId locations

end ReadFrame

/-! ## Crashes -/

/-- What a crash leaves of things that were not synced: directory entries, headers, and whatever
follows the part of a file that was. -/
structure CrashChoice (N P : Type) where
  directory : Bool
  linked : FileName → Bool
  header : FileName → Option SegmentId
  frames : FileName → List (Frame (LogEntry N P))
  tail : FileName → ℕ

/-- The longest common beginning of two lists. -/
def commonStart {α : Type} [DecidableEq α] : List α → List α → List α
  | a :: as, b :: bs => if a = b then a :: commonStart as bs else []
  | _, _ => []

/-- The content of a file after a crash. -/
def crashContent [DecidableEq N] [DecidableEq P] (choice : CrashChoice N P) (name : FileName)
    (file : SegmentFile (LogEntry N P)) : SegmentContent (LogEntry N P) :=
  if file.content = file.onDisk then file.onDisk
  else
    { header := if file.content.header = file.onDisk.header then file.onDisk.header
        else choice.header name
      frames := commonStart file.content.frames file.onDisk.frames ++ choice.frames name
      tail := choice.tail name }

/-- A file after a crash. -/
def crashFile [DecidableEq N] [DecidableEq P] (choice : CrashChoice N P) (directory : Bool)
    (name : FileName) (file : SegmentFile (LogEntry N P)) : SegmentFile (LogEntry N P) :=
  let linked := directory &&
    if file.linked = file.linkedOnDisk then file.linked else choice.linked name
  let content := crashContent choice name file
  ⟨linked, linked, content, content⟩

/-- A crash and a restart: memory is lost, and files are what the crash left. -/
def crash [DecidableEq N] [DecidableEq P] (choice : CrashChoice N P) (log : EncryptedLog N P) :
    EncryptedLog N P :=
  { log with
    directory := log.directory.crash choice.directory
    files := log.files.map (crashFile choice (log.directory.survives choice.directory))
    active := none
    pending := [] }

end EncryptedLog

end Mantissa
