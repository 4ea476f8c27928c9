import Mantissa.Raft.DurableLog

/-!
# Batches out of order

`append_batch` passes over an entry whose log id is stored already, or comes earlier in the batch;
it refuses one whose index has another log id, and takes any other one wherever it stands. When the
log is opened, `check_and_shorten_segment` wants the indices of a segment to rise. So a batch that
goes down is acknowledged, and afterwards the log cannot be opened. In runs whose new entries come
in index order an acknowledged batch is there after every `open`.
-/

namespace Mantissa

open EncryptedLog List

namespace LogProcess

variable {N P : Type} [DecidableEq N] [DecidableEq P] (settings : LogSettings N P)
variable (process : LogProcess N P)

/-- A step that passes any batch on to `append_batch`. -/
def callStep : LogAction N P → Option (LogProcess N P)
  | .call (.appendBatch entries) faults choice =>
    if process.running then some
      (after choice true (appendBatch settings entries process.log faults))
    else none
  | action => process.step settings action

/-- There is no row for the index of the entry. -/
def isNew (entry : LogEntry N P) : Bool := process.log.database.locations[entry.logId.index]?.isNone

/-- The new entries of a batch, without those that repeat an index, have rising indices above the
stored ones; and a log id stands for one entry. -/
def InOrder : LogAction N P → Prop
  | .call (.appendBatch entries) _ _ =>
    (LogOperation.appendBatch (firstNew process.isNew [] entries)).Allowed process.log ∧
      ∀ entry ∈ entries, (∀ other ∈ entries, other.logId = entry.logId → other = entry) ∧
        ∀ stored ∈ (process.log.currentView settings).entries entry.logId.index,
          stored.logId = entry.logId → stored = entry
  | _ => True

instance (action : LogAction N P) : Decidable (process.InOrder settings action) := by
  rcases action with ⟨_ | _ | _ | _, _, _⟩ | _ | _ <;> dsimp only [InOrder] <;> infer_instance

variable {settings process} {process' : LogProcess N P} {entries : List (LogEntry N P)}
variable {faults : List (Option Fault)} {choice : CrashChoice N P}

/-- Only a batch is not taken as `step` takes it, and that on an open log. -/
lemma callStep_cases {action : LogAction N P} (h : process.callStep settings action =
    some process') : process.step settings action = some process' ∨ ∃ entries faults choice,
      action = .call (.appendBatch entries) faults choice ∧ process.running = true := by
  match action with
  | .call (.appendBatch entries) faults choice =>
    refine .inr ⟨_, _, _, rfl, ?_⟩
    by_contra hclosed
    simp [callStep, hclosed] at h
  | .call (.deleteFrom _) _ _ | .call (.deleteThrough _) _ _ | .call (.saveCommitted _) _ _
  | .crash _ | .reopen _ _ => exact .inl h

section Runs

variable (hids : Function.Injective settings.segmentIds)

include hids

/-- After a batch the log shows a view, with the entries of the batch if it was acknowledged, unless
a crash has taken the directory away. -/
lemma batch_effect {view : LogView N P} (h : Holds settings view process)
    (hok : process.InOrder settings (.call (.appendBatch entries) faults choice))
    (hstep : process.callStep settings (.call (.appendBatch entries) faults choice) =
      some process') :
    (∃ view', Holds settings view' process' ∧ (process'.acknowledged = true →
      ∀ entry ∈ entries, view'.entries entry.logId.index = some entry)) ∨
        Loses process process' := by
  obtain ⟨hallowed, hunique⟩ := hok
  rw [h.shown.view_eq] at hunique
  simp only [callStep] at hstep
  split_ifs at hstep with hrunning
  cases hstep
  obtain ⟨hcreated, hready⟩ := h.ready hrunning
  obtain ⟨segments, hshows, -⟩ := h.shown
  have hfollows := hallowed.follows hshows
  have hknown : ∀ entry ∈ entries, process.isNew entry = false →
      ∃ stored, view.entries entry.logId.index = some stored := by
    intro entry _ hold
    rw [← Option.ne_none_iff_exists', ne_eq, ← hshows.location_none]
    simpa [isNew] using hold
  obtain ⟨result, log', rest, hrun, -, hpost⟩ :=
    appendNew_spec hids process.isNew hfollows hknown hready faults
  rw [hrun]
  cases result with
  | ok _ =>
    refine .inl ⟨_, holds_of_ready hcreated hpost.1, fun _ entry hentry => ?_⟩
    obtain ⟨stored, hstored, hlogId⟩ := hpost.2 entry hentry
    obtain ⟨hbatch, hview⟩ := hunique entry hentry
    obtain rfl : stored = entry := by
      rcases (append_entries_iff hfollows).mp hstored with ⟨hmem, -⟩ | hbase
      · exact hbatch stored (mem_of_mem_firstNew hmem) hlogId
      · exact hview stored hbase hlogId
    exact hstored
  | error stop =>
    obtain ⟨⟨⟨saved, -, hready', segments', hshows'⟩, -⟩, -⟩ := hpost
    cases stop with
    | crashed =>
      exact ((shown_of_shows hcreated ⟨segments', hshows'⟩).crash choice).imp
        (fun hholds => ⟨_, hholds, nofun⟩) fun hloses => hloses _ hshows'.files.directory.symm
    | failed | rejected => exact .inl ⟨_, holds_of_ready hcreated (hready' nofun), nofun⟩

lemma tracked_of_inOrder (h : Reaches (callStep settings) (InOrder settings) initial process) :
    Tracked settings process := by
  refine h.invariant (.inl holds_initial) ?_
  intro process process' action htracked hok hstep
  rcases callStep_cases hstep with hplain | ⟨entries, faults, choice, rfl, hrunning⟩
  · exact htracked.step hids hplain
  · obtain ⟨view, hholds⟩ := htracked.holds hrunning
    exact (batch_effect hids hholds hok hstep).imp (fun ⟨view', hholds', _⟩ => ⟨view', hholds'⟩)
      Loses.lost

/-- **Batches in index order can be read back.** After a run whose batches are all in order, and
one more: the log can be opened, as it is or after a crash that keeps the group directory, and
returns every entry of the batch if that was acknowledged. -/
theorem acknowledged_batch_reopened
    (hreach : Reaches (callStep settings) (InOrder settings) initial process)
    (hok : process.InOrder settings (.call (.appendBatch entries) faults choice))
    (hstep : process.callStep settings (.call (.appendBatch entries) faults choice) = some process')
    (log : EncryptedLog N P)
    (hlog : log = process'.log ∨ ∃ choice, log = process'.log.crash choice)
    (hdirectory : log.directory.created = true) :
    ∃ reopened, openLog settings log [] = (.ok (), reopened, []) ∧
      (process'.acknowledged = true → ∀ entry ∈ entries,
        readEntry settings entry.logId.index reopened [] = (.ok (some entry), reopened, [])) := by
  have hrunning : process.running = true := by
    by_contra hclosed
    simp [callStep, hclosed] at hstep
  obtain ⟨view, hholds⟩ := (tracked_of_inOrder hids hreach).holds hrunning
  have hkept : process'.log.directory.created = true := by
    rcases hlog with rfl | ⟨choice, rfl⟩
    · exact hdirectory
    · exact (Bool.and_eq_true_iff.mp hdirectory).1
  obtain ⟨view', hholds', hentries⟩ := (batch_effect hids hholds hok hstep).resolve_right
    fun hloses => absurd (hkept.symm.trans hloses.directory) nofun
  have hshown : Shown settings view' log := by
    rcases hlog with rfl | ⟨choice, rfl⟩
    · exact hholds'.shown
    · exact hholds'.shown.crash_of_survives (.inl hdirectory)
  obtain ⟨segments, hshows, -⟩ := hshown
  obtain ⟨_, reopened, hrun, hready⟩ := (openLog_spec hshows).run_ok fun _ _ hstop => hstop.1
  obtain ⟨_, hreopened⟩ := hready.shows
  refine ⟨reopened, hrun, fun hacknowledged entry hentry => ?_⟩
  rw [hreopened.readEntry_eq, hentries hacknowledged entry hentry]

end Runs

/-- Three entries in two segments, of which the first is stored and the second comes twice, after a
batch that was refused. -/
theorem rising_batch_reopened : ∃ process process' : LogProcess ℕ ℕ,
    Reaches (callStep sampleLogSettings) (InOrder sampleLogSettings) initial process ∧
      process.acknowledged = false ∧ process.callStep sampleLogSettings
        (.call (.appendBatch ([1, 2, 3, 2].map sampleLogEntry)) [] sampleCrash) = some process' ∧
      process'.acknowledged = true ∧
      ∃ reopened, openLog sampleLogSettings (process'.log.crash sampleCrash) [] =
          (.ok (), reopened, []) ∧
        readEntry sampleLogSettings 3 reopened [] =
          (.ok (some (sampleLogEntry 3)), reopened, []) := by
  have hreach : Reaches (callStep sampleLogSettings) (InOrder sampleLogSettings) initial _ :=
    reaches_of_runActions [.reopen [] sampleCrash,
      .call (.appendBatch [sampleLogEntry 1]) [] sampleCrash,
      .call (.appendBatch [sampleLogEntry 2, ⟨⟨2, 0, 1⟩, 0⟩]) [] sampleCrash] rfl
  refine ⟨_, _, hreach, rfl, rfl, by decide +kernel, ?_⟩
  obtain ⟨reopened, hrun, hread⟩ := acknowledged_batch_reopened Function.injective_id hreach
    (show InOrder sampleLogSettings _
      (.call (.appendBatch ([1, 2, 3, 2].map sampleLogEntry)) [] sampleCrash) by decide +kernel)
    rfl _ (.inr ⟨sampleCrash, rfl⟩) rfl
  exact ⟨reopened, hrun, hread (by decide +kernel) (sampleLogEntry 3) (by decide)⟩

/-- The second entry comes before the first. -/
theorem falling_batch_not_reopened : ∃ process : LogProcess ℕ ℕ,
    Reaches (callStep sampleLogSettings) anyStep initial process ∧ process.acknowledged = true ∧
      (openLog sampleLogSettings process.log []).1 =
        .error (.rejected (.recordMismatch "log index order")) :=
  exists_reaches_of_runActions
    [.reopen [] sampleCrash,
      .call (.appendBatch [sampleLogEntry 2, sampleLogEntry 1]) [] sampleCrash] (by decide +kernel)

end LogProcess

end Mantissa
