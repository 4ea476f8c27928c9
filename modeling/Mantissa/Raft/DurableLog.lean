import Mantissa.Core.Run
import Mantissa.Raft.LogPurge

/-!
# The durable log is a map from indices to entries

A process opens a group that was never opened before and calls the operations of its log, each under
a script of faults; a crash ends the process, and afterwards the log has to be opened again, which
may fail as well. `EncryptedLog.currentView` is the log as its callers see it, read entry by entry.
Every step relates the views before and after (`step_effect`): an acknowledged operation has its
effect, any other operation has a part of it that is all or nothing for each index, and a crash or
an `open` changes nothing.

There is one exception. If the `open` that creates the group directory fails before its parent is
synced, then no later one makes up for that, and a crash may take the directory away with all that
was acknowledged in the meantime (`unsynced_parent_loses_entries`). After that the log cannot be
opened (`Lost`).
-/

namespace Mantissa

namespace EncryptedLog

variable {N P : Type} [DecidableEq N] {settings : LogSettings N P} {dir : GroupDirectory}
variable {segments : SegmentMap N P} {log : EncryptedLog N P} {view : LogView N P}

/-- What a read of each index returns, and the two points. -/
def currentView (settings : LogSettings N P) (log : EncryptedLog N P) : LogView N P where
  entries index := match (readEntry settings index log []).1 with
    | .ok entry => entry
    | .error _ => none
  lastRemoved := log.database.lastRemovedLogId
  committed := log.database.committedLogId

variable (h : Shows settings dir segments view log)

include h

lemma Shows.readEntry_eq (index : ℕ) :
    readEntry settings index log [] = (.ok (view.entries index), log, []) := by
  obtain ⟨found, log', hrun, rfl, rfl⟩ := (h.readEntry_spec index).run_ok fun _ _ hstop => hstop.1
  exact hrun

/-- A log shows one view only. -/
lemma Shows.view_eq : log.currentView settings = view := by
  have hentries : (log.currentView settings).entries = view.entries := by
    simp [currentView, h.readEntry_eq]
  simp only [currentView, h.lastRemoved, h.committed] at hentries ⊢
  rw [hentries]

omit [DecidableEq N] h in
lemma shows_empty : Shows settings ⟨false, false⟩ (fun _ => []) ⟨fun _ => none, none, none⟩
    (empty : EncryptedLog N P) where
  rows := by
    refine ⟨fun _ hne => absurd rfl hne, ?_, ?_, nofun⟩
    · intro index location hlocation
      simp [empty] at hlocation
    · simp [empty, layout, layoutFrom]
  files := by
    refine ⟨rfl, fun _ hne => absurd rfl hne, ?_⟩
    intro name file hfile
    simp [empty] at hfile
  entries := by simp [SegmentMap.Has]
  lastRemoved := rfl
  committed := rfl

omit [DecidableEq N] in
lemma Shows.setDirectory (dir' : GroupDirectory) :
    Shows settings dir' segments view { log with directory := dir' } :=
  ⟨h.rows, ⟨rfl, h.files.holds, h.files.drawn⟩, h.entries, h.lastRemoved, h.committed⟩

omit h

/-- The directory after `open` has returned. -/
def openedDirectory (dir : GroupDirectory) : GroupDirectory :=
  if dir.created then dir else ⟨true, true⟩

/-- A stopped `open` leaves the view, and a directory that existed. -/
def OpenStopped (settings : LogSettings N P) (dir : GroupDirectory) (segments : SegmentMap N P)
    (view : LogView N P) (log : EncryptedLog N P) : Prop :=
  ∃ dir', (dir.created = true → dir' = dir) ∧ Shows settings dir' segments view log

omit [DecidableEq N] in
lemma createDirectory_spec (h : Shows settings dir segments view log) :
    wp createDirectory log (fun _ => Shows settings (openedDirectory dir) segments view)
      (onFault (OpenStopped settings dir segments view)) := by
  obtain rfl := h.files.directory
  have hcreated := h.setDirectory ⟨true, log.directory.createdOnDisk⟩
  have hsame (hexisting : log.directory.created = true) :
      ⟨true, log.directory.createdOnDisk⟩ = log.directory := by
    rw [← hexisting]
  refine (wp.memory ?_).bind
  refine (wp.perform ?_ (fun _ hstop => ⟨hstop, _, fun _ => rfl, h⟩)
    fun _ hstop => ⟨hstop, _, hsame, hcreated⟩).bind
  cases hexisting : log.directory.created with
  | true =>
    refine wp.pure ?_
    exact hsame hexisting ▸ hcreated
  | false =>
    have hnew {dir' : GroupDirectory} (heq : log.directory.created = true) :
        dir' = log.directory := by
      rw [hexisting] at heq
      cases heq
    have hsynced := hcreated.setDirectory ⟨true, true⟩
    refine wp.perform ?_ (fun _ hstop => ⟨hstop, _, hnew, hcreated⟩)
      fun _ hstop => ⟨hstop, _, hnew, hsynced⟩
    rw [openedDirectory, hexisting]
    exact hsynced

/-- Opening stops only at a fault. -/
lemma openLog_spec (h : Shows settings dir segments view log) :
    wp (openLog settings) log (fun _ => Ready settings (openedDirectory dir) view)
      (onFault (OpenStopped settings dir segments view)) := by
  refine (createDirectory_spec h).next ?_
  intro _ log' h'
  have hopened (hexisting : dir.created = true) : openedDirectory dir = dir := if_pos hexisting
  refine (wp.perform ?_ (fun _ hstop => ⟨hstop, _, hopened, h'⟩)
    fun _ hstop => ⟨hstop, _, hopened, h'⟩).bind
  refine (wp.remember ?_).bind
  have hopen : Shows settings (openedDirectory dir) segments view
      { log' with active := none, pending := [] } :=
    h'.of_files rfl (h'.files.congr rfl rfl le_rfl)
  refine (recoverFiles_spec hopen.rows (hopen.kept_self rfl rfl)).mono ?_ ?_
  · intro _ log'' hkept
    exact hopen.ready_of_kept hkept
  · intro _ log'' hstop
    exact ⟨hstop.1, _, hopened, hopen.kept hstop.2⟩

omit [DecidableEq N] in
lemma Shows.crash [DecidableEq N] [DecidableEq P] (h : Shows settings dir segments view log)
    (choice : CrashChoice N P)
    (hkept : dir.survives choice.directory = true ∨ ∀ id, segments id = []) :
    Shows settings (dir.crash choice.directory) segments view (log.crash choice) :=
  ⟨h.rows, h.files.crash choice hkept, h.entries, h.lastRemoved, h.committed⟩

/-! ## A lost directory -/

/-- There are rows, and no file that they refer to. -/
structure Lost (log : EncryptedLog N P) : Prop where
  files : ∀ (name : FileName) file, log.files[name]? = some file →
    file.linked = false ∧ file.linkedOnDisk = false
  rows : log.database.locations.toList ≠ []

namespace Lost

omit [DecidableEq N] in
lemma crash [DecidableEq N] [DecidableEq P] (h : Lost log) (choice : CrashChoice N P) :
    Lost (log.crash choice) := by
  refine ⟨?_, h.rows⟩
  intro name file hfile
  obtain ⟨file', hfile', rfl⟩ :=
    Option.map_eq_some_iff.mp (Std.ExtTreeMap.getElem?_map.symm.trans hfile)
  obtain ⟨hlinked, honDisk⟩ := h.files name file' hfile'
  simp [crashFile, hlinked, honDisk]

/-- Recovery reads the first segment that has rows, and its file is not there. -/
lemma recoverFiles_spec (h : Lost log) :
    wp (recoverFiles settings) log (fun _ _ => False) fun _ => Lost := by
  have hlinked : (log.files.toList.filter fun row => row.2.linked) = [] := by
    rw [List.filter_eq_nil_iff]
    intro row hrow
    simp [(h.files row.1 row.2 (BTreeMap.mem_toList.mp hrow)).1]
  refine (wp.query ?_ fun _ _ => h).bind
  refine wp.bind ((wp.query ?_ fun _ _ => h).bind)
  split_ifs
  · refine wp.pure ?_
    split_ifs
    · exact wp.reject h
    · refine wp.bind ((wp.query ?_ fun _ _ => h).bind)
      rw [hlinked, List.map_nil, (settings.directoryOrder_perm []).eq_nil]
      refine (wp.pure ?_).bind
      refine wp.pure ?_
      cases hsegments : (bySegment (log.database.locations.toList.map Prod.snd)).toList with
      | nil =>
        obtain ⟨row, rows, hrows⟩ := List.exists_cons_of_ne_nil h.rows
        have hfound := bySegment_getElem? (log.database.locations.toList.map Prod.snd)
            row.2.segmentId
        rw [if_neg (by simp [hrows]), ← BTreeMap.mem_toList, hsegments] at hfound
        exact absurd hfound List.not_mem_nil
      | cons segment segments =>
        refine wp.bind (wp.bind ((wp.query ?_ fun _ _ => h).bind))
        have hnone : log.fileAt (segmentPath segment.1) = none := by
          rw [fileAt, Option.filter_eq_none_iff]
          intro file hfile
          simp [(h.files _ file hfile).1]
        rw [hnone]
        exact wp.reject h
  · exact wp.reject h

/-- A log that lost its directory cannot be opened any more. -/
lemma openLog_spec (h : Lost log) : wp (openLog settings) log (fun _ _ => False) fun _ => Lost := by
  have hcreate : wp createDirectory log (fun _ => Lost) fun _ => Lost := by
    refine (wp.memory ?_).bind
    have hcreated : Lost { log with directory := ⟨true, log.directory.createdOnDisk⟩ } := ⟨h.1, h.2⟩
    refine (wp.perform ?_ (fun _ _ => h) fun _ _ => hcreated).bind
    split_ifs
    · exact wp.pure hcreated
    · exact wp.perform ⟨h.1, h.2⟩ (fun _ _ => hcreated) fun _ _ => ⟨h.1, h.2⟩
  refine hcreate.next ?_
  intro _ log' h'
  refine (wp.perform ?_ (fun _ _ => h') fun _ _ => h').bind
  refine (wp.remember ?_).bind
  exact recoverFiles_spec ⟨h'.1, h'.2⟩

end Lost

end EncryptedLog

/-! ## Operations -/

open EncryptedLog

/-- The operations on an open log. -/
inductive LogOperation (N P : Type)
  | appendBatch (entries : List (LogEntry N P))
  | deleteFrom (index : ℕ)
  | deleteThrough (logId : LogId N)
  | saveCommitted (logId : LogId N)

namespace LogOperation

variable {N P : Type} [DecidableEq N] {settings : LogSettings N P} {log : EncryptedLog N P}

def run (settings : LogSettings N P) : LogOperation N P → LogM N P Unit
  | .appendBatch entries => EncryptedLog.appendBatch settings entries
  | .deleteFrom index => EncryptedLog.deleteFrom settings index
  | .deleteThrough logId => EncryptedLog.deleteThrough settings logId
  | .saveCommitted logId => EncryptedLog.saveCommitted logId

/-- What an operation does to a map from indices to entries. -/
def effect : LogOperation N P → LogView N P → LogView N P
  | .appendBatch entries, view => view.append entries
  | .deleteFrom index, view => view.deleteFrom index
  | .deleteThrough logId, view => view.deleteThrough logId
  | .saveCommitted logId, view => view.commit logId

/-- Entries are appended in index order, above the stored ones. -/
def Allowed (log : EncryptedLog N P) : LogOperation N P → Prop
  | .appendBatch entries => entries.Pairwise (fun a b => a.logId.index < b.logId.index) ∧
      ∀ entry ∈ entries, ∀ row ∈ log.database.locations.toList, row.1 < entry.logId.index
  | _ => True

instance (log : EncryptedLog N P) (operation : LogOperation N P) :
    Decidable (operation.Allowed log) :=
  match operation with
  | .appendBatch _ => inferInstanceAs (Decidable (_ ∧ _))
  | .deleteFrom _ => inferInstanceAs (Decidable True)
  | .deleteThrough _ => inferInstanceAs (Decidable True)
  | .saveCommitted _ => inferInstanceAs (Decidable True)

/-- The operation may remove the entry at an index. -/
def Removes (index : ℕ) : LogOperation N P → Prop
  | .deleteFrom first => first ≤ index
  | .deleteThrough logId => index ≤ logId.index
  | _ => False

/-- The operation may add an entry at an index. -/
def Appends (index : ℕ) : LogOperation N P → Prop
  | .appendBatch entries => ∃ entry ∈ entries, entry.logId.index = index
  | _ => False

/-- What an operation that was not acknowledged may have done: a batch may be there up to some
entry. -/
def Partly (operation : LogOperation N P) (view view' : LogView N P) : Prop :=
  match operation with
  | .appendBatch entries => ∃ saved, saved <+: entries ∧ view' = view.append saved
  | operation => view' = view ∨ view' = operation.effect view

/-- What the checks of an operation say before it has an effect. -/
def Checked (operation : LogOperation N P) (view : LogView N P) : Prop :=
  match operation with
  | .deleteThrough logId => view.Removable logId
  | .saveCommitted logId => view.Committable logId
  | _ => True

omit [DecidableEq N] in
lemma Allowed.follows {segments : SegmentMap N P} {view : LogView N P}
    {entries : List (LogEntry N P)} (h : (appendBatch entries).Allowed log)
    (hshows : Shows settings dir segments view log) : Follows view entries := by
  refine ⟨h.1, ?_⟩
  intro entry hentry index stored hstored
  obtain ⟨location, hlocation, -⟩ := hshows.location_some hstored
  exact h.2 entry hentry _ (BTreeMap.mem_toList.mpr hlocation)

section Partly

variable {operation : LogOperation N P} {view view' : LogView N P} {index : ℕ}

omit [DecidableEq N]

variable (h : operation.Partly view view')

include h

/-- Each index has what it had before, or what it has after the whole operation. -/
lemma Partly.entries (index : ℕ) : view'.entries index = view.entries index ∨
      view'.entries index = (operation.effect view).entries index := by
  cases operation with
  | appendBatch entries =>
    obtain ⟨saved, ⟨rest, rfl⟩, rfl⟩ := h
    simp only [effect, LogView.append, List.find?_append]
    cases saved.find? fun entry => decide (entry.logId.index = index) with
    | none => exact .inl rfl
    | some entry => exact .inr rfl
  | deleteFrom | deleteThrough | saveCommitted =>
    exact h.imp (fun h => by rw [h]) fun h => by rw [h]

/-- The points are what they were before, or after the whole operation. -/
lemma Partly.points : (view'.lastRemoved = view.lastRemoved ∨
        view'.lastRemoved = (operation.effect view).lastRemoved) ∧
      (view'.committed = view.committed ∨ view'.committed = (operation.effect view).committed) := by
  cases operation with
  | appendBatch entries =>
    obtain ⟨saved, -, rfl⟩ := h
    exact ⟨.inl rfl, .inl rfl⟩
  | deleteFrom | deleteThrough | saveCommitted => rcases h with rfl | rfl <;> simp

omit h in
/-- An index stays without an entry where nothing adds one. -/
lemma effect_entries_of_absent (happends : ¬ operation.Appends index)
    (hentry : view.entries index = none) : (operation.effect view).entries index = none := by
  cases operation with
  | appendBatch entries =>
    have hfind : (entries.find? fun entry => decide (entry.logId.index = index)) = none := by
      rw [List.find?_eq_none]
      intro entry hmem heq
      exact happends ⟨entry, hmem, of_decide_eq_true heq⟩
    simp [effect, LogView.append, hfind, hentry]
  | deleteFrom first =>
    simp [effect, LogView.deleteFrom, hentry, ite_self]
  | deleteThrough logId =>
    simp [effect, LogView.deleteThrough, hentry, ite_self]
  | saveCommitted logId =>
    simp only [effect, LogView.commit]
    split_ifs <;> exact hentry

/-- The commit point does not go back. -/
lemma Partly.committed_le {committed : LogId N} (hcommitted : view.committed = some committed) :
    ∃ committed', view'.committed = some committed' ∧ committed.index ≤ committed'.index := by
  rcases h.points.2 with hsame | heffect
  · exact ⟨committed, hsame.trans hcommitted, le_rfl⟩
  · cases operation with
    | appendBatch | deleteFrom | deleteThrough =>
      exact ⟨committed, heffect.trans hcommitted, le_rfl⟩
    | saveCommitted logId =>
      rw [heffect]
      simp only [effect, LogView.commit, hcommitted, Option.any_some, decide_eq_true_eq]
      split_ifs with hle
      · exact ⟨committed, hcommitted, le_rfl⟩
      · exact ⟨logId, rfl, (Nat.not_le.mp hle).le⟩

end Partly

/-- An operation on an open log. -/
lemma run_spec (hids : Function.Injective settings.segmentIds) {view : LogView N P}
    (operation : LogOperation N P) (h : Ready settings dir view log)
    (hallowed : operation.Allowed log) : wp (operation.run settings) log
      (fun _ log' => operation.Checked view ∧ Ready settings dir (operation.effect view) log')
      fun stop log' => ∃ view', operation.Partly view view' ∧
        (view' = view ∨ operation.Checked view) ∧ Stopped settings dir view' stop log' := by
  cases operation with
  | appendBatch entries =>
    obtain ⟨segments, hshows⟩ := h.shows
    refine (appendBatch_spec hids (hallowed.follows hshows) h).mono
      (fun _ _ hdone => ⟨trivial, hdone⟩) ?_
    rintro stop log' ⟨⟨saved, hstart, hstopped⟩, -⟩
    exact ⟨_, ⟨saved, hstart, rfl⟩, .inr trivial, hstopped⟩
  | deleteFrom index =>
    refine (deleteFrom_spec h).mono (fun _ _ hdone => ⟨trivial, hdone⟩) ?_
    rintro stop log' ⟨view', hpartly, hstopped⟩
    exact ⟨view', hpartly, .inr trivial, hstopped⟩
  | deleteThrough logId =>
    refine (deleteThrough_spec hids h).mono (fun _ _ hdone => hdone) ?_
    rintro stop log' ⟨-, view', hpartly, hstopped⟩
    exact ⟨view', hpartly.imp_right And.right, hpartly.imp_right And.left, hstopped⟩
  | saveCommitted logId =>
    refine (saveCommitted_spec h).mono (fun _ _ hdone => hdone) ?_
    rintro stop log' ⟨view', hpartly, hstopped⟩
    exact ⟨view', hpartly.imp_right And.right, hpartly.imp_right And.left, hstopped⟩

end LogOperation

/-! ## Processes -/

/-- A log, whether a process has it open, and whether the last call was acknowledged. -/
structure LogProcess (N P : Type) where
  log : EncryptedLog N P
  running : Bool
  acknowledged : Bool

/-- A call, a crash or an `open`, with the faults of the call and what a crash among them leaves. -/
inductive LogAction (N P : Type)
  | call (operation : LogOperation N P) (faults : List (Option Fault)) (choice : CrashChoice N P)
  | crash (choice : CrashChoice N P)
  | reopen (faults : List (Option Fault)) (choice : CrashChoice N P)

/-- What an action does to the view. -/
def LogAction.Effect {N P : Type} [DecidableEq N] (log : EncryptedLog N P) (acknowledged : Bool)
    (view view' : LogView N P) : LogAction N P → Prop
  | .call operation _ _ => operation.Allowed log ∧ operation.Partly view view' ∧
      (acknowledged = true → view' = operation.effect view)
  | _ => view' = view

namespace LogProcess

variable {N P : Type} [DecidableEq N] [DecidableEq P] {settings : LogSettings N P}
variable {process process' : LogProcess N P} {view : LogView N P} {log : EncryptedLog N P}

/-- A group that was never opened. -/
def initial : LogProcess N P := ⟨EncryptedLog.empty, false, true⟩

/-- What is left after a call: after an error an open log stays open, but `open` returns none. -/
def after (choice : CrashChoice N P) (wasOpen : Bool) :
    Except (Stop LogError) Unit × EncryptedLog N P × List (Option Fault) → LogProcess N P
  | (.ok _, log, _) => ⟨log, true, true⟩
  | (.error .crashed, log, _) => ⟨log.crash choice, false, false⟩
  | (.error _, log, _) => ⟨log, wasOpen, false⟩

def step (settings : LogSettings N P) (process : LogProcess N P) :
    LogAction N P → Option (LogProcess N P)
  | .call operation faults choice =>
    if process.running ∧ operation.Allowed process.log then
      some (after choice true (operation.run settings process.log faults))
    else none
  | .crash choice => some ⟨process.log.crash choice, false, false⟩
  | .reopen faults choice => some (after choice false (openLog settings process.log faults))

/-- The log shows a view, and it has entries only in a directory that exists. -/
def Shown (settings : LogSettings N P) (view : LogView N P) (log : EncryptedLog N P) : Prop :=
  ∃ segments, Shows settings log.directory segments view log ∧
    (log.directory.created = false → ∀ id, segments id = [])

/-- The log shows a view, and it is between two calls if it is open. -/
structure Holds (settings : LogSettings N P) (view : LogView N P) (process : LogProcess N P) :
    Prop where
  shown : Shown settings view process.log
  ready : process.running = true →
    process.log.directory.created = true ∧ Ready settings process.log.directory view process.log

/-- The rows are left without their directory. -/
structure Lost (process : LogProcess N P) : Prop where
  closed : process.running = false
  log : process.log.Lost

/-- A step that loses the directory with what is in it: the entry in the parent was not synced. -/
structure Loses (process process' : LogProcess N P) : Prop where
  unsynced : process.log.directory = ⟨true, false⟩
  directory : process'.log.directory.created = false
  lost : Lost process'

omit [DecidableEq P] in
lemma Shown.view_eq (h : Shown settings view log) : log.currentView settings = view := by
  obtain ⟨segments, hshows, -⟩ := h
  exact hshows.view_eq

omit [DecidableEq N] [DecidableEq P] in
/-- A log in a directory that exists. -/
lemma shown_of_shows {dir : GroupDirectory} (hcreated : dir.created = true)
    (h : ∃ segments, Shows settings dir segments view log) : Shown settings view log := by
  obtain ⟨segments, hshows⟩ := h
  obtain rfl := hshows.files.directory
  refine ⟨segments, hshows, fun hmissing => ?_⟩
  rw [hcreated] at hmissing
  cases hmissing

omit [DecidableEq N] [DecidableEq P] in
lemma holds_of_ready {dir : GroupDirectory} {acknowledged : Bool} (hcreated : dir.created = true)
    (h : Ready settings dir view log) : Holds settings view ⟨log, true, acknowledged⟩ := by
  obtain ⟨segments, hshows⟩ := h.shows
  obtain rfl := hshows.files.directory
  exact ⟨shown_of_shows hcreated ⟨segments, hshows⟩, fun _ => ⟨hcreated, h⟩⟩

omit [DecidableEq N] [DecidableEq P] in
lemma holds_initial : ∃ view, Holds settings view (initial : LogProcess N P) :=
  ⟨_, ⟨_, shows_empty, fun _ _ => rfl⟩, nofun⟩

lemma Shown.crash_of_survives (h : Shown settings view log) {choice : CrashChoice N P}
    (hkept : log.directory.survives choice.directory = true ∨ log.directory.created = false) :
    Shown settings view (log.crash choice) := by
  obtain ⟨segments, hshows, hnil⟩ := h
  refine ⟨segments, hshows.crash choice (hkept.imp_right hnil), ?_⟩
  intro hlost
  rcases hkept with hkept | hmissing
  · exact absurd (hkept.symm.trans hlost) nofun
  · exact hnil hmissing

lemma survives_of_synced {dir : GroupDirectory} (h : dir ≠ ⟨true, false⟩) (kept : Bool) :
    dir.survives kept = true ∨ dir.created = false := by
  rcases dir with ⟨_ | _, _ | _⟩ <;> simp_all [GroupDirectory.survives]

/-- A crash keeps the view or loses the directory. -/
lemma Shown.crash (h : Shown settings view log) (choice : CrashChoice N P) :
    Holds settings view ⟨log.crash choice, false, false⟩ ∨ ∀ process : LogProcess N P,
      process.log.directory = log.directory → Loses process ⟨log.crash choice, false, false⟩ := by
  by_cases hkept : log.directory.survives choice.directory = true ∨ log.directory.created = false
  · exact .inl ⟨h.crash_of_survives hkept, nofun⟩
  have hgone : log.directory.survives choice.directory = false :=
    Bool.eq_false_of_not_eq_true fun hsurvives => hkept (.inl hsurvives)
  obtain ⟨segments, hshows, -⟩ := h
  by_cases hnil : ∀ id, segments id = []
  · exact .inl ⟨⟨segments, hshows.crash choice (.inr hnil), fun _ => hnil⟩, nofun⟩
  refine .inr fun process hsame => ⟨?_, hgone, rfl, ?_, ?_⟩
  · rw [hsame]
    by_contra hsynced
    exact hkept (survives_of_synced hsynced _)
  · intro name file hfile
    obtain ⟨file', -, rfl⟩ :=
      Option.map_eq_some_iff.mp (Std.ExtTreeMap.getElem?_map.symm.trans hfile)
    simp [crashFile, hgone]
  · intro hrows
    obtain ⟨id, hid⟩ := not_forall.mp hnil
    obtain ⟨frame, hframe⟩ := List.exists_mem_of_ne_nil _ hid
    have hentry := (hshows.entries _ frame.entry).mpr ⟨rfl, id, frame, hframe, rfl⟩
    obtain ⟨location, hlocation, -⟩ := hshows.location_some hentry
    have hmem := BTreeMap.mem_toList.mpr hlocation
    rw [show log.database.locations.toList = [] from hrows] at hmem
    exact absurd hmem List.not_mem_nil

variable (hids : Function.Injective settings.segmentIds)

include hids

variable {action : LogAction N P}

/-- **What a step does to the view.** -/
theorem step_effect
    (h : Holds settings view process) (hstep : process.step settings action = some process') :
    (∃ view', Holds settings view' process' ∧
      action.Effect process.log process'.acknowledged view view') ∨ Loses process process' := by
  cases action with
  | crash choice =>
    cases hstep
    exact (h.shown.crash choice).imp (fun hholds => ⟨view, hholds, rfl⟩) fun hloses => hloses _ rfl
  | reopen faults choice =>
    cases hstep
    obtain ⟨segments, hshows, hnil⟩ := h.shown
    obtain ⟨result, log', faults', hrun, -, hpost⟩ := openLog_spec hshows faults
    rw [hrun]
    cases result with
    | ok _ =>
      refine .inl ⟨view, holds_of_ready ?_ hpost, rfl⟩
      unfold openedDirectory
      split_ifs with hexisting
      · exact hexisting
      · rfl
    | error stop =>
      obtain ⟨⟨-, dir, hsame, hshows'⟩, -⟩ := hpost
      obtain rfl := hshows'.files.directory
      have hshown : Shown settings view log' := by
        refine ⟨segments, hshows', fun hmissing => hnil ?_⟩
        by_contra hcreated
        rw [hsame (Bool.eq_true_of_not_eq_false hcreated)] at hmissing
        exact hcreated hmissing
      cases stop with
      | crashed =>
        cases hexisting : process.log.directory.created with
        | true =>
          exact (hshown.crash choice).imp (fun hholds => ⟨view, hholds, rfl⟩)
            fun hloses => hloses _ (hsame hexisting).symm
        | false =>
          have hnil := hnil hexisting
          exact .inl ⟨view, ⟨⟨segments, hshows'.crash choice (.inr hnil), fun _ => hnil⟩, nofun⟩,
            rfl⟩
      | failed | rejected => exact .inl ⟨view, ⟨hshown, nofun⟩, rfl⟩
  | call operation faults choice =>
    simp only [step] at hstep
    split_ifs at hstep with hguard
    cases hstep
    obtain ⟨hcreated, hready⟩ := h.ready hguard.1
    obtain ⟨result, log', faults', hrun, -, hpost⟩ :=
      operation.run_spec hids hready hguard.2 faults
    rw [hrun]
    cases result with
    | ok _ =>
      refine .inl ⟨operation.effect view, holds_of_ready hcreated hpost.2, hguard.2, ?_,
        fun _ => rfl⟩
      cases operation with
      | appendBatch entries => exact ⟨entries, List.prefix_rfl, rfl⟩
      | deleteFrom | deleteThrough | saveCommitted => exact .inr rfl
    | error stop =>
      obtain ⟨⟨view', hpartly, -, hready', hshows'⟩, -⟩ := hpost
      cases stop with
      | crashed =>
        obtain ⟨segments, hshows⟩ := hshows'
        exact ((shown_of_shows hcreated ⟨segments, hshows⟩).crash choice).imp
          (fun hholds => ⟨view', hholds, hguard.2, hpartly, nofun⟩)
          fun hloses => hloses _ hshows.files.directory.symm
      | failed | rejected =>
        exact .inl ⟨view', holds_of_ready hcreated (hready' nofun), hguard.2, hpartly, nofun⟩

omit hids

/-- The log shows a view as long as its directory is not lost. -/
def Tracked (settings : LogSettings N P) (process : LogProcess N P) : Prop :=
  (∃ view, Holds settings view process) ∨ Lost process

omit [DecidableEq N] [DecidableEq P] in
lemma Tracked.holds (h : Tracked settings process) (hrunning : process.running = true) :
    ∃ view, Holds settings view process :=
  h.resolve_right fun hlost => absurd (hrunning.symm.trans hlost.closed) nofun

/-- A lost log stays lost. -/
lemma Lost.step (h : Lost process)
    (hstep : process.step settings action = some process') : Lost process' := by
  cases action with
  | crash choice =>
    cases hstep
    exact ⟨rfl, h.log.crash choice⟩
  | reopen faults choice =>
    cases hstep
    obtain ⟨result, log', faults', hrun, -, hpost⟩ :=
      (h.log.openLog_spec : wp (openLog settings) _ _ _) faults
    rw [hrun]
    cases result with
    | ok _ => exact hpost.elim
    | error stop =>
      cases stop with
      | crashed => exact ⟨rfl, hpost.1.crash choice⟩
      | failed | rejected => exact ⟨rfl, hpost.1⟩
  | call operation faults choice =>
    simp [step, h.closed] at hstep

include hids

lemma Tracked.step (h : Tracked settings process)
    (hstep : process.step settings action = some process') : Tracked settings process' := by
  rcases h with ⟨view, hholds⟩ | hlost
  · exact (step_effect hids hholds hstep).imp (fun ⟨view', hholds', _⟩ =>
      ⟨view', hholds'⟩) Loses.lost
  · exact .inr (hlost.step hstep)

lemma tracked_of_reaches (h : Reaches (step settings) anyStep initial process) :
    Tracked settings process :=
  h.invariant (.inl holds_initial) fun htracked _ hstep => htracked.step hids hstep

/-! ## Runs -/

/-- A step that may remove the entry at an index. -/
def Removing (index : ℕ) (_ : LogProcess N P) : LogAction N P → Prop
  | .call operation _ _ => operation.Removes index
  | _ => False

/-- A step that may add an entry at an index. -/
def Appending (index : ℕ) (_ : LogProcess N P) : LogAction N P → Prop
  | .call operation _ _ => operation.Appends index
  | _ => False

/-- The step leaves no directory whose entry in the parent is not on the disk. -/
def ParentSynced (settings : LogSettings N P) (process : LogProcess N P) (action : LogAction N P) :
    Prop :=
  ∀ next ∈ process.step settings action, next.log.directory ≠ ⟨true, false⟩

instance (action : LogAction N P) : Decidable (process.ParentSynced settings action) :=
  Option.decidableForallMem _

/-- A log that shows a view in a directory that no crash can take away. -/
structure Durable (settings : LogSettings N P) (view : LogView N P) (process : LogProcess N P) :
    Prop where
  holds : Holds settings view process
  synced : process.log.directory ≠ ⟨true, false⟩

/-- From a durable log a step has its effect on the view. -/
lemma Durable.step_effect (h : Durable settings view process)
    (hstep : process.step settings action = some process') :
    ∃ view', Holds settings view' process' ∧
      action.Effect process.log process'.acknowledged view view' :=
  (LogProcess.step_effect hids h.holds hstep).resolve_right fun hloses => h.synced hloses.unsynced

lemma exists_durable (h : Reaches (step settings) (ParentSynced settings) initial process) :
    ∃ view, Durable settings view process := by
  refine h.invariant (P := fun process => ∃ view, Durable settings view process) ?_ ?_
  · exact holds_initial.imp fun _ hholds => ⟨hholds, nofun⟩
  · rintro process process' action ⟨view, hdurable⟩ hsynced hstep
    obtain ⟨view', hholds', -⟩ := hdurable.step_effect hids hstep
    exact ⟨view', hholds', hsynced process' hstep⟩

/-- What is at an index stays along a run whose calls keep it there. -/
lemma entries_of_reaches {index : ℕ}
    {kept : Option (LogEntry N P)} {ok : LogProcess N P → LogAction N P → Prop}
    (h : Durable settings view process) (hentry : view.entries index = kept)
    (hreach : Reaches (step settings)
      (fun process action => process.ParentSynced settings action ∧ ok process action)
      process process')
    (hkeeps : ∀ process view operation faults choice, Holds settings view process →
      ok process (.call operation faults choice) → operation.Allowed process.log →
      view.entries index = kept → (operation.effect view).entries index = kept) :
    (process'.log.currentView settings).entries index = kept := by
  have hlater : ∃ view', Durable settings view' process' ∧ view'.entries index = kept := by
    refine hreach.invariant (P := fun process => ∃ view, Durable settings view process ∧
      view.entries index = kept) ⟨view, h, hentry⟩ ?_
    rintro process process' action ⟨view, hdurable, hentry⟩ ⟨hsynced, hok⟩ hstep
    obtain ⟨view', hholds', heffect⟩ := hdurable.step_effect hids hstep
    refine ⟨view', ⟨hholds', hsynced process' hstep⟩, ?_⟩
    cases action with
    | call operation faults choice =>
      obtain ⟨hallowed, hpartly, -⟩ := heffect
      rcases hpartly.entries index with heq | heq
      · exact heq.trans hentry
      · exact heq.trans (hkeeps _ _ _ _ _ hdurable.holds hok hallowed hentry)
    | crash | reopen => exact heffect ▸ hentry
  obtain ⟨view', hdurable', hentry'⟩ := hlater
  rw [hdurable'.holds.shown.view_eq]
  exact hentry'

omit hids

omit [DecidableEq P] in
/-- Opening a log that shows a view, without faults. -/
lemma Shown.openLog (h : Shown settings view log) :
    ∃ reopened, openLog settings log [] = (.ok (), reopened, []) ∧
      reopened.currentView settings = view := by
  obtain ⟨segments, hshows, -⟩ := h
  obtain ⟨_, reopened, hrun, hready⟩ := (openLog_spec hshows).run_ok fun _ _ hstop => hstop.1
  obtain ⟨segments', hshows'⟩ := hready.shows
  exact ⟨reopened, hrun, hshows'.view_eq⟩

/-- **The durable log is a map from indices to entries**, if every `open` that creates the group
directory also syncs its parent. After such a run, with faults and crashes:

* the log can be opened, as it is or after a crash, and then shows the same map;
* every index reads as the map has it;
* an acknowledged operation has its effect on the map, any other has none or all of it at each
  index, and nothing else changes the map;
* an entry stays until an operation may remove it, and an index without an entry stays so until an
  operation may add one;
* the removal point is not above the commit point, which does not go back. -/
theorem durable_log_refines_map (hids : Function.Injective settings.segmentIds)
    (hreach : Reaches (step settings) (ParentSynced settings) initial process) :
    (∀ log, (log = process.log ∨ ∃ choice, log = process.log.crash choice) →
      ∃ reopened, openLog settings log [] = (.ok (), reopened, []) ∧
        reopened.currentView settings = process.log.currentView settings) ∧
    (∀ index, readEntry settings index process.log [] =
      (.ok ((process.log.currentView settings).entries index), process.log, [])) ∧
    (∀ operation faults choice process',
      process.step settings (.call operation faults choice) = some process' →
        (process'.acknowledged = true → process'.log.currentView settings =
          operation.effect (process.log.currentView settings)) ∧
        ∀ index, (process'.log.currentView settings).entries index =
            (process.log.currentView settings).entries index ∨
          (process'.log.currentView settings).entries index =
            (operation.effect (process.log.currentView settings)).entries index) ∧
    (∀ action process', (∀ operation faults choice, action ≠ .call operation faults choice) →
      process.step settings action = some process' →
        process'.log.currentView settings = process.log.currentView settings) ∧
    (∀ index entry, (process.log.currentView settings).entries index = some entry →
      ∀ later, Reaches (step settings) (fun process action =>
          process.ParentSynced settings action ∧ ¬ Removing index process action) process later →
        (later.log.currentView settings).entries index = some entry) ∧
    (∀ index, (process.log.currentView settings).entries index = none →
      ∀ later, Reaches (step settings) (fun process action =>
          process.ParentSynced settings action ∧ ¬ Appending index process action) process later →
        (later.log.currentView settings).entries index = none) ∧
    (∀ removed, process.log.database.lastRemovedLogId = some removed →
      ∃ committed, process.log.database.committedLogId = some committed ∧
        removed.index ≤ committed.index) ∧
    ∀ action process' committed, process.step settings action = some process' →
      process.log.database.committedLogId = some committed →
        ∃ committed', process'.log.database.committedLogId = some committed' ∧
          committed.index ≤ committed'.index := by
  obtain ⟨view, hdurable⟩ := exists_durable hids hreach
  have hshown := hdurable.holds.shown
  have hview := hshown.view_eq
  obtain ⟨segments, hshows, -⟩ := id hshown
  rw [hview]
  refine ⟨?_, hshows.readEntry_eq, ?_, ?_, ?_, ?_, ?_, ?_⟩
  · rintro log (rfl | ⟨choice, rfl⟩)
    · exact hshown.openLog
    · exact (hshown.crash_of_survives (survives_of_synced hdurable.synced _)).openLog
  · intro operation faults choice process' hstep
    obtain ⟨view', hholds', -, hpartly, hacknowledged⟩ := hdurable.step_effect hids hstep
    rw [hholds'.shown.view_eq]
    exact ⟨hacknowledged, hpartly.entries⟩
  · intro action process' hcall hstep
    obtain ⟨view', hholds', heffect⟩ := hdurable.step_effect hids hstep
    rw [hholds'.shown.view_eq]
    cases action with
    | call operation faults choice => exact absurd rfl (hcall operation faults choice)
    | crash | reopen => exact heffect
  · intro index entry hentry later hlater
    refine entries_of_reaches hids hdurable hentry hlater ?_
    rintro _ _ operation _ _ ⟨⟨segments, hshows, -⟩, -⟩ hremoving hallowed hentry
    cases operation with
    | appendBatch entries =>
      exact (append_entries_iff (hallowed.follows hshows)).mpr (.inr hentry)
    | deleteFrom first =>
      simp only [Removing, LogOperation.Removes, Nat.not_le] at hremoving
      simp [LogOperation.effect, LogView.deleteFrom, if_pos hremoving, hentry]
    | deleteThrough logId =>
      simp only [Removing, LogOperation.Removes, Nat.not_le] at hremoving
      simp [LogOperation.effect, LogView.deleteThrough, if_pos hremoving, hentry]
    | saveCommitted logId =>
      simp only [LogOperation.effect, LogView.commit]
      split_ifs <;> exact hentry
  · intro index hentry later hlater
    exact entries_of_reaches hids hdurable hentry hlater fun _ _ _ _ _ _ happending _ hentry =>
      LogOperation.effect_entries_of_absent happending hentry
  · intro removed hremoved
    exact (hshows.rows.removed removed hremoved).2
  · intro action process' committed hstep hcommitted
    rw [hshows.committed] at hcommitted
    obtain ⟨view', ⟨⟨segments', hshows', -⟩, -⟩, heffect⟩ := hdurable.step_effect hids hstep
    rw [hshows'.committed]
    cases action with
    | call operation faults choice => exact heffect.2.1.committed_le hcommitted
    | crash | reopen => exact ⟨committed, heffect ▸ hcommitted, le_rfl⟩

end LogProcess

/-- Segments for two frames of 16 bytes, behind a header of 16 bytes. -/
def sampleLogSettings : LogSettings ℕ ℕ where
  maxFrameBytes := 32
  maxSegmentBytes := 48
  segmentIds := id
  directoryOrder := id
  directoryOrder_perm _ := List.Perm.refl _
  headerBytes := 16
  encodeLogEntry _ := .ok ()
  frameBytes _ := .ok 16
  frameBytes_pos := by
    intro entry bytes h
    cases h
    decide

def sampleLogEntry (index : ℕ) : LogEntry ℕ ℕ := ⟨⟨1, 0, index⟩, 10 * index⟩

/-- A crash that keeps what was not synced where it can. -/
def sampleCrash : CrashChoice ℕ ℕ := ⟨true, fun _ => true, fun _ => none, fun _ => [], fun _ => 3⟩

namespace LogProcess

/-- Three entries in two segments; the first one is removed, which rewrites its segment; a crash
follows. The group directory is created by an `open` that fails at the database. -/
theorem durable_log_refines_map_after_crash :
    ∃ process : LogProcess ℕ ℕ,
      Reaches (step sampleLogSettings) (ParentSynced sampleLogSettings) initial process ∧
      (process.log.currentView sampleLogSettings).entries 2 = some (sampleLogEntry 2) ∧
      ∃ reopened, openLog sampleLogSettings (process.log.crash sampleCrash) [] =
          (.ok (), reopened, []) ∧
        (reopened.currentView sampleLogSettings).entries 2 = some (sampleLogEntry 2) := by
  refine (exists_reaches_of_runActions
    [.reopen [none, none, some (.error false)] sampleCrash, .reopen [] sampleCrash,
      .call (.appendBatch ([1, 2, 3].map sampleLogEntry)) [] sampleCrash,
      .call (.saveCommitted (sampleLogEntry 2).logId) [] sampleCrash,
      .call (.deleteThrough (sampleLogEntry 1).logId) [] sampleCrash] (by decide +kernel)).imp
    fun process ⟨hreach, hentry⟩ => ⟨hreach, hentry, ?_⟩
  obtain ⟨hopen, -⟩ := durable_log_refines_map Function.injective_id hreach
  obtain ⟨reopened, hrun, hsame⟩ := hopen _ (.inr ⟨sampleCrash, rfl⟩)
  exact ⟨reopened, hrun, hsame ▸ hentry⟩

/-- **A sync that fails once is not made up for.** The `open` that creates the group directory
returns an error because its parent is not synced; the next one finds the directory there and
returns a log, which acknowledges an entry. A crash takes the directory away, and the log cannot be
opened again. -/
theorem unsynced_parent_loses_entries :
    ∃ process : LogProcess ℕ ℕ, Reaches (step sampleLogSettings) anyStep initial process ∧
      process.acknowledged = true ∧
      (process.log.currentView sampleLogSettings).entries 1 = some (sampleLogEntry 1) ∧
      (openLog sampleLogSettings (process.log.crash { sampleCrash with directory := false }) []).1 =
        .error (.rejected (.file "open Raft log segment for recovery")) :=
  exists_reaches_of_runActions
    [.reopen [none, some (.error false)] sampleCrash, .reopen [] sampleCrash,
      .call (.appendBatch [sampleLogEntry 1]) [] sampleCrash] (by decide +kernel)

end LogProcess

end Mantissa
