import Mantissa.Core.SharedCell
import Mantissa.Scheduler.Lifecycle
import Mantissa.Store.MvReg

/-!
# Operations that overlap

Every operation of the scheduler loads the published state, builds the next snapshot, swaps it in,
writes it to the node's row, and swaps the old state back if the write fails. So a scheduler is a
shared cell (`SharedCell`) whose rounds are the attempts of `SchedulerOp`; the row is a register
that only this node writes.

The version is a rank that every attempt raises by one (`attempt_version`). What the shared cell
says about failures on top and below, and about rows that are written in order, becomes a statement
about the scheduler; the three runs at the end show what happens otherwise.
-/

namespace Mantissa.Scheduler

open SharedCell

/-! ## The scheduler as a shared cell -/

variable (settings : SchedulerSettings)

/-- The rounds of the operations. A row is written as this node. -/
def schedulerProgram : CellProgram SchedulerSnapshot SchedulerOp ℕ SchedulerError SchedulerResponse
      (MvReg SchedulerSnapshot Uuid) where
  attempt op now round current :=
    match op.attempt settings.storeKey now (settings.leaseIds round) current with
    | .error error => .finish (.error error)
    | .ok (.keep response) => .finish (.ok response)
    | .ok (.publish next response) => .publish next response
  storeError := .store
  store snapshot row := row.write settings.storeKey snapshot

variable (row : MvReg SchedulerSnapshot Uuid)

/-- What `Scheduler::new` starts from. -/
def loadSnapshot : Option SchedulerSnapshot :=
  row.readValues.getLast?

abbrev ConcurrentScheduler :=
  SharedCell SchedulerSnapshot SchedulerOp ℕ SchedulerError SchedulerResponse
    (MvReg SchedulerSnapshot Uuid)

/-- A scheduler whose row has the snapshot it starts with. -/
def ConcurrentScheduler.start (snapshot : SchedulerSnapshot)
    (row : MvReg SchedulerSnapshot Uuid) : ConcurrentScheduler :=
  initial snapshot (row.write settings.storeKey snapshot)

lemma loadSnapshot_write (actor : Uuid)
    (snapshot : SchedulerSnapshot) : loadSnapshot (row.write actor snapshot) = some snapshot := by
  rw [loadSnapshot, MvReg.readValues, MvReg.entries_write]
  rfl

/-- The version is a rank. -/
lemma schedulerProgram_raises : (schedulerProgram settings).Raises SchedulerSnapshot.version := by
  intro op now round current next answer h
  simp only [schedulerProgram] at h
  split at h
  · cases h
  · cases h
  · next published response hattempt =>
      cases h
      rw [attempt_version hattempt]
      exact Nat.lt_succ_self _

section Runs

variable {settings : SchedulerSettings} {snapshot : SchedulerSnapshot}
variable {row : MvReg SchedulerSnapshot Uuid} {scheduler : ConcurrentScheduler}

/-- **Failed operations.** When writes only fail while their snapshot is the published one, the
published snapshot is what operations built that have not failed. When writes only fail after
another operation has published on top, a version belongs to one snapshot. -/
theorem failed_operations_without_effect :
    (Reaches (step (schedulerProgram settings)) (fun cell act => cell.failsOnTop act = true)
        (ConcurrentScheduler.start settings snapshot row) scheduler →
      ∃ top, scheduler.published[scheduler.current]? = some top ∧
        (schedulerProgram settings).replay snapshot top.applied = some top.value ∧
        ∀ round ∈ top.applied, ∃ phase, scheduler.calls[round.call]? = some (round.op, phase) ∧
          ∀ error, phase ≠ .returned (.error error)) ∧
    (Reaches (step (schedulerProgram settings))
        (fun cell act => cell.failsCovered act = true)
        (ConcurrentScheduler.start settings snapshot row) scheduler →
      ∀ earlier ∈ scheduler.published, ∀ later ∈ scheduler.published,
        earlier.value.version = later.value.version → earlier.value = later.value) := by
  refine ⟨fun h => ?_, fun h => ?_⟩
  · obtain ⟨top, htop, hreplay, hkept⟩ := current_kept_of_reaches h
    refine ⟨top, htop, hreplay, ?_⟩
    intro round hmem
    obtain ⟨phase, hphase, hcases⟩ := hkept round hmem
    refine ⟨phase, hphase, ?_⟩
    rintro error rfl
    rcases hcases with ⟨_, h⟩ | ⟨_, _, _, h⟩ <;> cases h
  · intro earlier hearlier later hlater hversion
    have hlinear := linear_of_reaches (schedulerProgram_raises settings) h
    rw [hlinear.eq_of_rank_eq hearlier hlater hversion]

/-- **The row after overlapping operations**, all of whose writes succeed and arrive in the order of
their versions. -/
theorem row_current_when_all_returned (h : Reaches (step (schedulerProgram settings))
      (fun cell act => cell.storesNewer SchedulerSnapshot.version loadSnapshot act = true)
      (ConcurrentScheduler.start settings snapshot row) scheduler)
    (hreturned : ∀ entry ∈ scheduler.calls, ∃ result, entry.2 = .returned result) :
    ∃ top, scheduler.published[scheduler.current]? = some top ∧
      loadSnapshot scheduler.row = some top.value :=
  row_current_of_reaches (schedulerProgram_raises settings)
    (fun value row => loadSnapshot_write row settings.storeKey value)
    (loadSnapshot_write row settings.storeKey snapshot) h hreturned

end Runs

/-! ## Runs -/

/-- The sample scheduler, with an empty row before it starts. -/
def sampleConcurrent : ConcurrentScheduler :=
  ConcurrentScheduler.start sampleScheduler (initResources sampleSlots []) MvReg.new

/-- Reserve a slot for a workload. -/
def sampleReserve (version slot task : ℕ) : SchedulerOp :=
  .reserve version [⟨slot, 1, some task, none⟩] []

/-- One operation up to its swap. -/
def samplePublish (call version slot task : ℕ) : List (CellAction SchedulerOp ℕ) :=
  [.start (sampleReserve version slot task), .load call, .attempt call 0]

variable (scheduler : ConcurrentScheduler)

/-- The states of the slots in the published snapshot. -/
def publishedStates : Option (List ResourceState) :=
  (scheduler.published[scheduler.current]?).map fun top => top.value.slots.map Resource.state

/-- The result of a call. -/
def resultOf (call : ℕ) : Option (Except SchedulerError SchedulerResponse) :=
  match scheduler.calls[call]? with
  | some (_, .returned result) => some result
  | _ => none

/-- A failed write is rolled back, and a second operation goes on from there; a failed write under a
published snapshot leaves the versions apart. -/
theorem failed_operations_without_effect_sample :
    (∃ scheduler : ConcurrentScheduler,
      (resultOf scheduler 0 = some (.error .store) ∧
        publishedStates scheduler = some [.reserved ⟨1, some 8, none⟩, .free]) ∧
      ∃ top, scheduler.published[scheduler.current]? = some top ∧
        ∀ round ∈ top.applied, ∃ phase, scheduler.calls[round.call]? = some (round.op, phase) ∧
          ∀ error, phase ≠ .returned (.error error)) ∧
    ∃ scheduler : ConcurrentScheduler,
      (resultOf scheduler 0 = some (.error .store) ∧ scheduler.published.length = 3) ∧
      ∀ earlier ∈ scheduler.published, ∀ later ∈ scheduler.published,
        earlier.value.version = later.value.version → earlier.value = later.value := by
  constructor
  · exact (exists_reaches_of_runActions (s := sampleConcurrent)
      (samplePublish 0 0 0 7 ++ [.failed 0] ++ samplePublish 1 0 0 8) (by decide +kernel)).imp
      fun scheduler ⟨hreach, hsample⟩ =>
        have ⟨top, htop, _, hkept⟩ := failed_operations_without_effect.1 hreach
        ⟨hsample, top, htop, hkept⟩
  · exact (exists_reaches_of_runActions (s := sampleConcurrent)
      (samplePublish 0 0 0 7 ++ samplePublish 1 1 1 8 ++ [.failed 0]) (by decide +kernel)).imp
      fun scheduler ⟨hreach, hsample⟩ => ⟨hsample, failed_operations_without_effect.2 hreach⟩

/-- A reservation that failed stays in the snapshot when another operation has published on top of
it; and after a roll back the next operation publishes another snapshot under the version that was
taken. -/
theorem failed_reservation_stays :
    (∃ scheduler : ConcurrentScheduler,
      Reaches (step (schedulerProgram sampleScheduler)) anyStep sampleConcurrent scheduler ∧
      resultOf scheduler 0 = some (.error .store) ∧
      publishedStates scheduler = some [.reserved ⟨1, some 7, none⟩, .reserved ⟨1, some 8, none⟩]) ∧
    ∃ scheduler : ConcurrentScheduler,
      Reaches (step (schedulerProgram sampleScheduler)) anyStep sampleConcurrent scheduler ∧
      (scheduler.published.map fun published => published.value.version) = [0, 1, 1] ∧
      ((scheduler.published.map fun published => published.value.slots.map Resource.state) =
        [[.free, .free], [.reserved ⟨1, some 7, none⟩, .free],
          [.free, .reserved ⟨1, some 8, none⟩]]) := by
  refine ⟨exists_reaches_of_runActions
      (samplePublish 0 0 0 7 ++ samplePublish 1 1 1 8 ++ [.failed 0]) (by decide +kernel),
    exists_reaches_of_runActions
      (samplePublish 0 0 0 7 ++ [.failed 0] ++ samplePublish 1 0 1 8) (by decide +kernel)⟩

/-- Two operations whose writes arrive in order. -/
theorem row_current_when_all_returned_sample :
    ∃ scheduler : ConcurrentScheduler, scheduler.published.length = 3 ∧
      ∃ top, scheduler.published[scheduler.current]? = some top ∧
        loadSnapshot scheduler.row = some top.value := by
  have hreach : Reaches (step (schedulerProgram sampleScheduler))
      (fun cell act => cell.storesNewer SchedulerSnapshot.version loadSnapshot act = true)
      sampleConcurrent _ :=
    reaches_of_runActions
      (samplePublish 0 0 0 7 ++ samplePublish 1 1 1 8 ++ [.stored 0, .stored 1]) rfl
  refine ⟨_, rfl, row_current_when_all_returned hreach ?_⟩
  intro entry hmem
  rcases List.mem_cons.mp hmem with rfl | hmem
  · exact ⟨_, rfl⟩
  · rw [List.mem_singleton.mp hmem]
    exact ⟨_, rfl⟩

/-- The writes of two operations arrive the other way round: both have returned, the published
snapshot has both reservations, and the row has one. -/
theorem older_snapshot_stored_last : ∃ scheduler : ConcurrentScheduler,
      Reaches (step (schedulerProgram sampleScheduler)) anyStep sampleConcurrent scheduler ∧
      ((resultOf scheduler 0).isSome ∧ (resultOf scheduler 1).isSome ∧ scheduler.calls.length = 2) ∧
      publishedStates scheduler = some [.reserved ⟨1, some 7, none⟩, .reserved ⟨1, some 8, none⟩] ∧
      (loadSnapshot scheduler.row).map (fun snapshot => snapshot.slots.map Resource.state) =
        some [.reserved ⟨1, some 7, none⟩, .free] :=
  exists_reaches_of_runActions
    (samplePublish 0 0 0 7 ++ samplePublish 1 1 1 8 ++ [.stored 1, .stored 0]) (by decide +kernel)

end Mantissa.Scheduler
