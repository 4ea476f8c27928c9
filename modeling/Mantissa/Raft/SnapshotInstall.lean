import Mantissa.Raft.StateMachine

/-!
# Installing a snapshot and purging the log

A snapshot replaces the entries through its last log id, so after `install_snapshot` the log is
purged through that id. But `install_snapshot` changes the application and the group catalog only,
and `delete_through` removes nothing above the saved commit point and nothing that it does not
store. The purge therefore succeeds exactly for a snapshot that the log had reached by itself
(`purge_after_install_iff`), never for one that a lagging member needs.
-/

namespace Mantissa.VolumeGroup

open EncryptedLog

variable {N C M S : Type} [LinearOrder N] [DecidableEq M] {group : VolumeGroup N C M S}
variable {view : LogView N (EntryPayload C M)} {settings : LogSettings N (EntryPayload C M)}
variable {logId : LogId N} {dir : GroupDirectory}

/-! ## What an install leaves alone -/

/-- `install_snapshot` does not touch the log. -/
lemma installSnapshot_log (snapshot : ReceivedSnapshot N M S) :
    wp (installSnapshot snapshot) group (fun _ group' => group'.log = group.log) fun _ _ =>
      True := by
  unfold installSnapshot
  cases snapshot.lastLogId with
  | none => exact wp.reject trivial
  | some logId =>
    cases snapshot.state with
    | none => exact wp.reject trivial
    | some state =>
      refine (wp.perform ?_ (fun _ _ => trivial) fun _ _ => trivial).bind
      refine (wp.remember ?_).bind
      refine (saveMembership_spec _).seq (fun _ _ _ => trivial) ?_
      rintro _ _ ⟨stored, rfl⟩
      refine (saveAppliedLogId_spec logId).seq (fun _ _ _ => trivial) ?_
      rintro _ _ rfl
      exact wp.remember rfl

/-! ## The purge -/

omit [DecidableEq M] in
lemma purge_spec (hids : Function.Injective settings.segmentIds)
    (h : Ready settings dir view group.log) : wp (purge settings logId) group
      (fun _ group' => view.Removable logId ∧
        Ready settings dir (view.deleteThrough logId) group'.log)
      fun stop _ => view.Removable logId → stop.Injected := by
  refine (deleteThrough_spec hids h).zoom (fun _ _ hdone => hdone) ?_
  rintro stop log' ⟨hinjected, -⟩ hremovable
  exact Stop.injected_map.mpr (hinjected hremovable)

variable (settings)

/-- What has to hold of a log after the snapshot: it ends below the log id or goes on right after
it, and it takes the entry that follows if it has none. -/
def PurgedThrough (logId : LogId N) (group : VolumeGroup N C M S) : Prop :=
  group.log.database.lastRemovedLogId = some logId ∧
    (∀ index ≤ logId.index, (group.log.currentView settings).entries index = none) ∧
    ((∀ index, (group.log.currentView settings).entries index = none) →
      ∀ entry : LogEntry N (EntryPayload C M), entry.logId.index = logId.index + 1 →
        Storable settings entry → ∃ appended : VolumeGroup N C M S,
          onLog (appendBatch settings [entry]) group [] = (.ok (), appended, []) ∧
          (appended.log.currentView settings).entries (logId.index + 1) = some entry)

/-- The log has reached the snapshot by itself: its last log id is committed, and it is where the
log begins or it is stored. -/
def ReachedByLog (logId : LogId N) (group : VolumeGroup N C M S) : Prop :=
  (∃ committed, group.log.database.committedLogId = some committed ∧
    logId.index ≤ committed.index) ∧
  (group.log.database.lastRemovedLogId = some logId ∨
    (∀ removed, group.log.database.lastRemovedLogId = some removed → removed.index < logId.index) ∧
      ∃ entry, (group.log.currentView settings).entries logId.index = some entry ∧
        entry.logId = logId)

variable {settings}

omit [DecidableEq M] in
lemma append_after_purge (hids : Function.Injective settings.segmentIds)
    (h : Ready settings dir view group.log) (hremoved : view.lastRemoved = some logId)
    (hnone : ∀ index, view.entries index = none) {entry : LogEntry N (EntryPayload C M)}
    (hindex : entry.logId.index = logId.index + 1) (hstorable : Storable settings entry) :
    ∃ appended : VolumeGroup N C M S,
      onLog (appendBatch settings [entry]) group [] = (.ok (), appended, []) ∧
      (appended.log.currentView settings).entries (logId.index + 1) = some entry := by
  have hfollows : Follows view [entry] := by
    refine ⟨List.pairwise_singleton _ _, ?_⟩
    intro _ _ index stored hstored
    rw [hnone] at hstored
    cases hstored
  have haccept : ∀ entry' ∈ [entry], Acceptable settings view entry' := by
    intro entry' hmem
    rw [List.mem_singleton.mp hmem]
    refine ⟨hstorable, ?_⟩
    intro removed hsome
    obtain rfl := Option.some.inj (hremoved.symm.trans hsome)
    omega
  have hspec : wp (onLog (S := S) (appendBatch settings [entry])) group
      (fun _ group' => Ready settings dir (view.append [entry]) group'.log)
      fun stop _ => stop.Injected :=
    (appendBatch_spec hids hfollows h).zoom (fun _ _ hdone => hdone)
      fun _ _ hstop => Stop.injected_map.mpr (hstop.2 haccept)
  obtain ⟨_, appended, hrun, hready⟩ := hspec.run_ok fun _ _ hstop => hstop
  obtain ⟨segments, hshows⟩ := hready.shows
  refine ⟨appended, hrun, ?_⟩
  rw [hshows.view_eq, ← hindex]
  exact (append_entries_iff hfollows).mpr (.inl ⟨List.mem_singleton_self _, rfl⟩)

omit [DecidableEq M] in
/-- The log has reached the log id if it may be removed and is the removal point then. -/
lemma reachedByLog_iff {segments : SegmentMap N (EntryPayload C M)}
    (h : Shows settings dir segments view group.log) : ReachedByLog settings logId group ↔
      view.Removable logId ∧ (view.deleteThrough logId).lastRemoved = some logId := by
  unfold ReachedByLog LogView.Removable LogView.deleteThrough
  rw [h.committed, h.lastRemoved, h.view_eq]
  cases hfilter : view.lastRemoved.filter fun removed => decide (logId.index ≤ removed.index) with
  | some removed =>
    obtain ⟨hremoved, hle⟩ := Option.filter_eq_some_iff.mp hfilter
    have hle := of_decide_eq_true hle
    simp only [hremoved, Option.any_some, hle, decide_true, if_true, Option.some.injEq]
    constructor
    · rintro ⟨⟨committed, hcommitted, hbelow⟩, rfl | ⟨hlt, -⟩⟩
      · exact ⟨⟨committed, hcommitted, hbelow, fun _ => rfl⟩, rfl⟩
      · exact absurd (hlt removed rfl) (Nat.not_lt.mpr hle)
    · rintro ⟨⟨committed, hcommitted, hbelow, -⟩, rfl⟩
      exact ⟨⟨committed, hcommitted, hbelow⟩, .inl rfl⟩
  | none =>
    have hlt : ∀ removed, view.lastRemoved = some removed → removed.index < logId.index := by
      intro removed hremoved
      by_contra hnot
      rw [hremoved, Option.filter_some, if_pos (decide_eq_true (Nat.not_lt.mp hnot))] at hfilter
      cases hfilter
    have hany : ¬ (view.lastRemoved.any fun removed =>
        decide (logId.index ≤ removed.index)) = true := by
      rw [Option.any_eq_true]
      rintro ⟨removed, hremoved, hle⟩
      exact absurd (hlt removed hremoved) (Nat.not_lt.mpr (of_decide_eq_true hle))
    simp only [if_neg hany, and_true]
    constructor
    · rintro ⟨⟨committed, hcommitted, hbelow⟩, hremoved | ⟨-, hentry⟩⟩
      · exact absurd (hlt logId hremoved) (lt_irrefl _)
      · exact ⟨committed, hcommitted, hbelow, hentry⟩
    · rintro ⟨committed, hcommitted, hbelow, hentry⟩
      exact ⟨⟨committed, hcommitted, hbelow⟩, .inr ⟨hlt, hentry⟩⟩

/-- **The purge after a snapshot was installed succeeds exactly when the log had reached the
snapshot by itself**, for the log of every run and every snapshot. -/
theorem purge_after_install_iff [DecidableEq C] (hids : Function.Injective settings.segmentIds)
    {process : LogProcess N (EntryPayload C M)}
    (hreach : Reaches (LogProcess.step settings) anyStep LogProcess.initial process)
    (hrunning : process.running = true) (hlog : group.log = process.log)
    {membership : StoredMembership N M} {state : Option S} {faults faults' : List (Option Fault)}
    {installed : VolumeGroup N C M S} (hinstall :
      installSnapshot ⟨some logId, membership, state⟩ group faults = (.ok (), installed, faults')) :
    (∃ purged, purge settings logId installed [] = (.ok (), purged, []) ∧
      PurgedThrough settings logId purged) ↔ ReachedByLog settings logId group := by
  obtain ⟨view, hholds⟩ := (LogProcess.tracked_of_reaches hids hreach).holds hrunning
  obtain ⟨-, hgroup⟩ := hholds.ready hrunning
  rw [← hlog] at hgroup
  have hready : Ready settings group.log.directory view installed.log := by
    rw [(installSnapshot_log _).of_run hinstall]
    exact hgroup
  obtain ⟨segments, hshows⟩ := hgroup.shows
  rw [reachedByLog_iff hshows]
  constructor
  · rintro ⟨purged, hrun, hremoved, -⟩
    obtain ⟨hremovable, hready'⟩ := (purge_spec hids hready).of_run hrun
    obtain ⟨segments', hshows'⟩ := hready'.shows
    exact ⟨hremovable, hshows'.lastRemoved.symm.trans hremoved⟩
  · rintro ⟨hremovable, hremoved⟩
    have hspec := (purge_spec (S := S) hids hready).mono (fun _ _ hdone => hdone)
      fun _ _ hstop => hstop hremovable
    obtain ⟨_, purged, hrun, -, hready'⟩ := hspec.run_ok fun _ _ hstop => hstop
    obtain ⟨segments', hshows'⟩ := hready'.shows
    refine ⟨purged, hrun, hshows'.lastRemoved.trans hremoved, ?_, ?_⟩
    · intro index hle
      rw [hshows'.view_eq]
      exact if_neg (Nat.not_lt.mpr hle)
    · rw [hshows'.view_eq]
      intro hnone entry hindex hstorable
      exact append_after_purge hids hready' hremoved hnone hindex hstorable

/-! ## Samples -/

/-- Segments for two frames of 16 bytes, behind a header of 16 bytes. -/
def sampleGroupLog : LogSettings ℕ (EntryPayload ℕ ℕ) where
  maxFrameBytes := 32
  maxSegmentBytes := 48
  segmentIds := id
  directoryOrder := id
  directoryOrder_perm := sampleLogSettings.directoryOrder_perm
  headerBytes := 16
  encodeLogEntry _ := .ok ()
  frameBytes _ := .ok 16
  frameBytes_pos := by
    intro entry bytes h
    cases h
    decide

def sampleGroupEntry (index : ℕ) (payload : EntryPayload ℕ ℕ) : LogEntry ℕ (EntryPayload ℕ ℕ) :=
  ⟨⟨1, 0, index⟩, payload⟩

/-- A crash that keeps nothing that was not synced. -/
def sampleGroupCrash : CrashChoice ℕ (EntryPayload ℕ ℕ) :=
  ⟨true, fun _ => false, fun _ => none, fun _ => [], fun _ => 0⟩

/-- The group is opened, a membership and two commands are appended, and the first two entries are
committed. -/
def sampleLogCalls : List (LogAction ℕ (EntryPayload ℕ ℕ)) :=
  [.reopen [] sampleGroupCrash,
    .call (.appendBatch [sampleGroupEntry 0 (.membership 7), sampleGroupEntry 1 (.normal 10),
      sampleGroupEntry 2 (.normal 20)]) [] sampleGroupCrash,
    .call (.saveCommitted ⟨1, 0, 1⟩) [] sampleGroupCrash]

/-- A member that has applied nothing, with a given log. -/
def groupWithLog (log : EncryptedLog ℕ (EntryPayload ℕ ℕ)) : VolumeGroup ℕ ℕ ℕ ℕ :=
  ⟨log, ⟨none, none⟩, none, 0, none⟩

/-- The snapshot of entry 1 on a log that has committed it. -/
theorem purge_after_install_reached :
    ∃ process, Reaches (LogProcess.step sampleGroupLog) anyStep LogProcess.initial process ∧
      ∃ installed purged, installSnapshot ⟨some ⟨1, 0, 1⟩, ⟨some ⟨1, 0, 0⟩, 7⟩, some 10⟩
          (groupWithLog process.log) [] = (.ok (), installed, []) ∧
        purge sampleGroupLog ⟨1, 0, 1⟩ installed [] = (.ok (), purged, []) ∧
        PurgedThrough sampleGroupLog ⟨1, 0, 1⟩ purged := by
  have hreach : Reaches (LogProcess.step sampleGroupLog) anyStep LogProcess.initial _ :=
    reaches_of_runActions sampleLogCalls rfl
  obtain ⟨purged, hrun, hpurged⟩ := (purge_after_install_iff Function.injective_id hreach rfl
    (rfl : (groupWithLog _).log = _)
      (show installSnapshot ⟨some ⟨1, 0, 1⟩, ⟨some ⟨1, 0, 0⟩, 7⟩, some 10⟩
      _ [] = (.ok (), _, []) from rfl)).mpr
    ⟨⟨_, rfl, le_rfl⟩, .inr ⟨fun _ => nofun, sampleGroupEntry 1 (.normal 10), rfl, rfl⟩⟩
  exact ⟨_, hreach, _, purged, rfl, hrun, hpurged⟩

/-- **A lagging member cannot purge.** Its log ends at 2 and is committed through 1; a snapshot of
entry 5 is installed, and the purge that follows is rejected. -/
theorem lagging_purge_rejected :
    ∃ process, Reaches (LogProcess.step sampleGroupLog) anyStep LogProcess.initial process ∧
      process.running = true ∧
      (∀ row ∈ process.log.database.locations.toList, row.1 < 5) ∧
      process.log.database.committedLogId = some ⟨1, 0, 1⟩ ∧
      ∃ installed, installSnapshot ⟨some ⟨1, 0, 5⟩, ⟨some ⟨1, 0, 0⟩, 7⟩, some 60⟩
          (groupWithLog process.log) [] = (.ok (), installed, []) ∧
        purge sampleGroupLog ⟨1, 0, 5⟩ installed [] =
          (.error (.rejected (.log (.uncommittedLogWouldBeRemoved 5 1))), installed, []) := by
  exact ⟨_, reaches_of_runActions sampleLogCalls rfl, rfl, by decide +kernel, rfl, _, rfl, rfl⟩

end Mantissa.VolumeGroup
