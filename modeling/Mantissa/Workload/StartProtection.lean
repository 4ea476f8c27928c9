import Mantissa.Workload.Sweeps

/-!
# What a start has reserved

Between its reservation and its rows, what a start has reserved looks to a sweep like something
leaked. The version protects it from a sweep that took its snapshot before the reservation, and from
no other.

So the invariant (`Protected`) compares versions: what sweeps have seen is never newer than the
current snapshot, and older than it while a start is in flight. `start_keeps_reservations` says
that it is enough if sweeps take their snapshots outside of that time, and `sweep_frees_start` that
otherwise a start loses its slots.
-/

namespace Mantissa.Workload

open Scheduler List Option

/-! ## Reservations that stay -/

section Holding

variable {I D : Type} [LinearOrder I]

/-- Every request is a reservation. -/
def HoldsAll (requests : List (ReservationRequest I)) (resources : List (Resource I D)) : Prop :=
  ∀ request ∈ requests, ∃ resource ∈ resources, resource.id = request.id ∧
    resource.state = .reserved ⟨request.owner, request.taskId, request.groupId⟩

/-- After the loop of `reserve_resources`, when every id is known and named once. -/
lemma holdsAll_reserveAll {requests : List (ReservationRequest I)} {resources : List (Resource I D)}
    (hnodup : (resources.map Resource.id).Nodup)
    (honce : duplicates (requests.map ReservationRequest.id) = [])
    (hknown : unknown resources (requests.map ReservationRequest.id) = []) :
    HoldsAll requests (reserveAll requests resources) := by
  have hids : (requests.map ReservationRequest.id).Nodup := by
    rw [duplicates, sortedSet_eq_nil, filter_eq_nil_iff] at honce
    rw [nodup_iff_count_le_one]
    intro id
    by_cases hmem : id ∈ requests.map ReservationRequest.id
    · have := honce id hmem
      simp only [decide_eq_true_eq] at this
      omega
    · rw [count_eq_zero_of_not_mem hmem]
      omega
  have hmoved := moved_assignAll ReservationRequest.id
    (fun request => .reserved ⟨request.owner, request.taskId, request.groupId⟩) requests resources
    hnodup fun a ha b hb hab => by rw [inj_on_of_nodup_map hids ha hb hab]
  intro request hmem
  rw [unknown, sortedSet_eq_nil, filter_eq_nil_iff] at hknown
  obtain ⟨before, hbefore, hid⟩ : ∃ before ∈ resources, before.id = request.id := by
    have := hknown request.id (mem_map_of_mem hmem)
    rw [Bool.not_eq_true, isNone_eq_false_iff, isSome_iff_exists] at this
    obtain ⟨position, hposition⟩ := this
    obtain ⟨resource, hat, hid⟩ := (getElem?_buildIndex hnodup).mp hposition
    exact ⟨resource, mem_of_getElem? hat, hid⟩
  obtain ⟨after, hafter, hafterId, hset, -⟩ := hmoved.exists_after hbefore
  exact ⟨after, hafter, hafterId.trans hid, hset request hmem hid.symm⟩

end Holding

/-- What a start has asked for is reserved. -/
def BatchStart.Holds (settings : SchedulerSettings) (start : BatchStart)
    (snapshot : SchedulerSnapshot) : Prop :=
  HoldsAll (start.slotRequests settings.storeKey) snapshot.slots ∧
    HoldsAll (start.gpuRequests settings.storeKey) snapshot.gpuDevices

/-- A start without requests holds everything. -/
def BatchStart.AsksNothing (settings : SchedulerSettings) (start : BatchStart) : Prop :=
  start.slotRequests settings.storeKey = [] ∧ start.gpuRequests settings.storeKey = []

section Scheduling

variable {settings : SchedulerSettings} {origin : SchedulerSnapshot} {start : BatchStart}
variable {scheduler scheduler' : SequentialScheduler} {op : SchedulerOp} {now : ℕ}

/-- Operations that do not free by id take nothing from a start. -/
lemma BatchStart.Holds.step (hinv : SequentialScheduler.Invariant settings origin scheduler)
    (hholds : start.Holds settings scheduler.snapshot) (hop : freesById op = false)
    (h : scheduler.step settings (op, now) = some scheduler') :
    start.Holds settings scheduler'.snapshot := by
  have hmoves := hinv.moves h
  have hslotFrees : ∀ id, ¬ (op.slotNames id).frees := by
    intro id hfrees
    cases op <;> first | exact hfrees | cases hop
  have hgpuFrees : ∀ id, ¬ (op.gpuNames id).frees := by
    intro id hfrees
    cases op <;> first | exact hfrees | cases hop
  constructor
  · intro request hmem
    obtain ⟨resource, hresource, hid, hstate⟩ := hholds.1 request hmem
    obtain ⟨after, hafter, hafterId, hmove⟩ := hmoves.slots.exists_after hresource
    rw [hstate] at hmove
    obtain ⟨plan, -, hplan⟩ := mem_flatMap.mp hmem
    obtain ⟨slot, -, rfl⟩ := mem_map.mp hplan
    exact ⟨after, hafter, hafterId.trans hid, hmove.rules.stays (hslotFrees _) rfl⟩
  · intro request hmem
    obtain ⟨resource, hresource, hid, hstate⟩ := hholds.2 request hmem
    obtain ⟨after, hafter, hafterId, hmove⟩ := hmoves.gpuDevices.exists_after hresource
    rw [hstate] at hmove
    obtain ⟨plan, -, hplan⟩ := mem_flatMap.mp hmem
    obtain ⟨device, -, rfl⟩ := mem_map.mp hplan
    exact ⟨after, hafter, hafterId.trans hid, hmove.rules.stays (hgpuFrees _) rfl⟩

/-- After its reservation a start holds everything, at a new version unless it asks for nothing. -/
lemma holds_of_reserve (hinv : SequentialScheduler.Invariant settings origin scheduler)
    {decision : Decision}
    (hok : reserveResources now start.expectedVersion (start.slotRequests settings.storeKey)
      (start.gpuRequests settings.storeKey) scheduler.snapshot = .ok decision)
    (h : scheduler.step settings (.reserve start.expectedVersion
      (start.slotRequests settings.storeKey) (start.gpuRequests settings.storeKey), now) =
        some scheduler') : start.Holds settings scheduler'.snapshot ∧ (start.AsksNothing settings ∨
      scheduler.snapshot.version < scheduler'.snapshot.version) := by
  rw [reserveResources] at hok
  split_ifs at hok with hempty
  · simp only [Bool.and_eq_true, List.isEmpty_iff] at hempty
    rw [BatchStart.Holds, hempty.1, hempty.2]
    exact ⟨⟨forall_mem_nil _, forall_mem_nil _⟩, .inl hempty⟩
  obtain ⟨_, hversion, hok⟩ := bind_eq_ok.mp hok
  obtain ⟨_, hfree, hok⟩ := bind_eq_ok.mp hok
  obtain ⟨next, hnext, -⟩ := bind_eq_ok.mp hok
  have hpublish : publishNext _ SchedulerResponse.snapshot = .ok (.publish next (.snapshot next)) :=
    bind_eq_ok.mpr ⟨next, hnext, rfl⟩
  have hattempt : reserveResources now start.expectedVersion (start.slotRequests settings.storeKey)
      (start.gpuRequests settings.storeKey) scheduler.snapshot =
        .ok (.publish next (.snapshot next)) := by
    rw [reserveResources, if_neg hempty]
    exact bind_eq_ok.mpr ⟨_, hversion, bind_eq_ok.mpr ⟨_, hfree, hpublish⟩⟩
  have hscheduler : scheduler'.snapshot = next := by
    simp only [SequentialScheduler.step, SchedulerOp.attempt, hattempt, Option.some.injEq] at h
    rw [← h]
  obtain ⟨hslots, hgpus, hnextVersion⟩ := publishNext_eq_ok hpublish
  have hcleared := (change_clearExpired (.reserve start.expectedVersion
    (start.slotRequests settings.storeKey) (start.gpuRequests settings.storeKey)) now (fun _ h => h)
    scheduler.snapshot).uniqueIds hinv.uniqueIds
  simp only [checkFree, bind_eq_ok, require_eq_ok] at hfree
  obtain ⟨-, hslotsOnce, -, hslotsKnown, -, -, -, hgpusOnce, -, hgpusKnown, -⟩ := hfree
  rw [hscheduler, BatchStart.Holds, hslots, hgpus, hnextVersion]
  exact ⟨⟨holdsAll_reserveAll hcleared.slots hslotsOnce hslotsKnown,
    holdsAll_reserveAll hcleared.gpuDevices hgpusOnce hgpusKnown⟩, .inr (Nat.lt_succ_self _)⟩

end Scheduling

/-! ## Whole runs -/

/-- What sweeps have seen is not newer than the current snapshot, and older than what a start in
flight has reserved. -/
structure Protected (settings : SchedulerSettings) (origin : SchedulerSnapshot)
    (node : StartingNode) : Prop where
  scheduler : SequentialScheduler.Invariant settings origin node.scheduler
  seen : ∀ sweep ∈ node.sweeps, ∀ snapshot, sweep.snapshot? = some snapshot →
    snapshot.version ≤ node.scheduler.snapshot.version
  reserved : ∀ start, node.start = some start → start.phase = .reserved →
    start.Holds settings node.scheduler.snapshot ∧ (start.AsksNothing settings ∨
      ∀ sweep ∈ node.sweeps, ∀ snapshot, sweep.snapshot? = some snapshot →
        snapshot.version < node.scheduler.snapshot.version)

namespace Protected

variable {settings : SchedulerSettings} {origin : SchedulerSnapshot} {node node' : StartingNode}
variable {op : SchedulerOp} {now : ℕ}

variable (hinv : Protected settings origin node)

include hinv

/-- Nothing happens to the scheduler, no start gets its reservation, and no sweep takes a snapshot.
-/
lemma frame (hscheduler : node'.scheduler = node.scheduler)
    (hstart : ∀ start, node'.start = some start → start.phase = .reserved → node.start = some start)
    (hsweeps : ∀ sweep ∈ node'.sweeps, ∀ snapshot, sweep.snapshot? = some snapshot →
      ∃ old ∈ node.sweeps, old.snapshot? = some snapshot) : Protected settings origin node' := by
  refine ⟨hscheduler ▸ hinv.scheduler, ?_, ?_⟩
  · intro sweep hmem snapshot hsnapshot
    obtain ⟨old, hold, hseen⟩ := hsweeps sweep hmem snapshot hsnapshot
    rw [hscheduler]
    exact hinv.seen old hold snapshot hseen
  · intro start hsome hphase
    obtain ⟨hholds, hbehind⟩ := hinv.reserved start (hstart start hsome hphase) hphase
    rw [hscheduler]
    refine ⟨hholds, hbehind.imp_right fun hbehind => ?_⟩
    intro sweep hmem snapshot hsnapshot
    obtain ⟨old, hold, hseen⟩ := hsweeps sweep hmem snapshot hsnapshot
    exact hbehind old hold snapshot hseen

omit hinv in
/-- The scheduler runs an operation: not a free by id, or a free for a start that is not in flight,
or a free of a sweep. -/
lemma operate (hids : Function.Injective2 settings.leaseIds) (hinv : Protected settings origin node)
    (hop : freesById op = false ∨ (∀ start, node.start = some start → start.phase ≠ .reserved) ∨
      ∃ sweep ∈ node.sweeps, ∃ snapshot, sweep.snapshot? = some snapshot ∧ ∃ slots gpuDeviceIds,
        op = .free snapshot.version slots gpuDeviceIds)
    (h : node.operate settings op now = some node') :
    Protected settings origin node' ∧ node'.start = node.start ∧ node'.sweeps = node.sweeps := by
  obtain ⟨scheduler, hstep, rfl⟩ := map_eq_some_iff.mp h
  have hversion : node.scheduler.snapshot.version ≤ scheduler.snapshot.version := by
    rcases SequentialScheduler.step_cases hstep with rfl | ⟨answer, hattempt, -⟩
    · exact le_rfl
    · rw [attempt_version hattempt]
      omega
  refine ⟨⟨hinv.scheduler.step hids hstep, ?_, ?_⟩, rfl, rfl⟩
  · intro sweep hmem snapshot hsnapshot
    exact (hinv.seen sweep hmem snapshot hsnapshot).trans hversion
  · intro start hsome hphase
    obtain ⟨hholds, hbehind⟩ := hinv.reserved start hsome hphase
    refine ⟨?_, hbehind.imp_right fun hbehind sweep hmem snapshot hsnapshot =>
      (hbehind sweep hmem snapshot hsnapshot).trans_le hversion⟩
    rcases hop with hop | hnone | ⟨sweep, hmem, snapshot, hsnapshot, slots, gpuDeviceIds, rfl⟩
    · exact hholds.step hinv.scheduler hop hstep
    · exact absurd hphase (hnone start hsome)
    · rcases hbehind with hnothing | hbehind
      · rw [BatchStart.Holds, hnothing.1, hnothing.2]
        exact ⟨forall_mem_nil _, forall_mem_nil _⟩
      · -- The sweep is behind the reservation, so its free is refused.
        have hstale := (hbehind sweep hmem snapshot hsnapshot).ne
        rcases SequentialScheduler.step_cases hstep with rfl | ⟨answer, hattempt, -⟩
        · exact hholds
        · refine absurd hattempt (not_published_of_refused (.inl ?_))
          rw [checkVersion, require, if_neg (Ne.symm hstale)]
          exact fun h => by cases h

/-- The start gets another phase than `reserved`. -/
lemma setStart (start : BatchStart) (phase : StartPhase)
    (hphase : phase ≠ .reserved) : Protected settings origin (node.setStart start phase) := by
  refine hinv.frame rfl ?_ fun sweep hmem snapshot hsnapshot => ⟨sweep, hmem, hsnapshot⟩
  rintro _ hsome hreserved
  cases hsome
  exact absurd hreserved hphase

/-- A sweep moves on and takes no new snapshot. -/
lemma setSweep {i : ℕ} {old : Sweep} (sweep : Sweep) (hold : node.sweeps[i]? = some old)
    (hsweep : ∀ snapshot, sweep.snapshot? = some snapshot → old.snapshot? = some snapshot) :
    Protected settings origin (node.setSweep i sweep) := by
  refine hinv.frame rfl (fun _ hsome _ => hsome) ?_
  intro other hmem snapshot hsnapshot
  rcases mem_or_eq_of_mem_set hmem with hmem | rfl
  · exact ⟨other, hmem, hsnapshot⟩
  · exact ⟨old, mem_of_getElem? hold, hsweep snapshot hsnapshot⟩

/-- A sweep takes a snapshot while no start is in flight. -/
lemma read (houtside : node.inFlight = false) {i : ℕ}
    {sweep : Sweep} (hsweep : ∀ snapshot, sweep.snapshot? = some snapshot →
      snapshot = node.scheduler.snapshot) : Protected settings origin (node.setSweep i sweep) := by
  refine ⟨hinv.scheduler, ?_, ?_⟩
  · intro other hmem snapshot hsnapshot
    rcases mem_or_eq_of_mem_set hmem with hmem | rfl
    · exact hinv.seen other hmem snapshot hsnapshot
    · rw [hsweep snapshot hsnapshot]
      rfl
  · rintro start hsome hphase
    have hsome : node.start = some start := hsome
    simp [StartingNode.inFlight, hsome, hphase] at houtside

end Protected

namespace Sweep

variable (sweep : Sweep)

lemma snapshot?_retry : sweep.retry.snapshot? = none := by
  rw [retry]
  split_ifs <;> rfl

lemma snapshot?_afterFree (answer : Attempt) : (sweep.afterFree answer).snapshot? = none := by
  rw [afterFree.eq_def]
  split
  · split <;> rfl
  all_goals first | exact sweep.snapshot?_retry | rfl | skip
  all_goals split_ifs <;> first | exact sweep.snapshot?_retry | rfl

lemma snapshot?_afterReserve (answer : Attempt) : (sweep.afterReserve answer).snapshot? = none := by
  rw [afterReserve.eq_def]
  split <;> first | exact sweep.snapshot?_retry | rfl

variable {node : Uuid} {snapshot seen : SchedulerSnapshot}

lemma snapshot?_afterRead {sweep : Sweep}
    (h : (sweep.afterRead node snapshot).snapshot? = some seen) : seen = snapshot := by
  rw [afterRead] at h
  split at h
  · split_ifs at h
    · cases h
    · exact (Option.some.inj h).symm
  · exact (Option.some.inj h).symm

end Sweep

section Runs

variable {settings : SchedulerSettings} {origin : SchedulerSnapshot} {node node' : StartingNode}

variable (hids : Function.Injective2 settings.leaseIds)

include hids

variable (hinv : Protected settings origin node)

include hinv

lemma Protected.sweepStep {i now : ℕ} {sweep : Sweep} (hsweep : node.sweeps[i]? = some sweep)
    (hok : sweep.phase = .reading → node.inFlight = false)
    (h : node.sweepStep settings i sweep now = some node') : Protected settings origin node' := by
  obtain ⟨kind, attempts, phase⟩ := sweep
  cases phase with
  | reading =>
    cases h
    exact hinv.read (hok rfl) fun _ hseen => Sweep.snapshot?_afterRead hseen
  | collecting seen =>
    cases h
    refine hinv.setSweep _ hsweep fun _ h => ?_
    rw [Sweep.afterRows] at h
    split at h <;> exact h
  | collected seen activeSlots =>
    cases h
    refine hinv.setSweep _ hsweep fun _ h => ?_
    simp only [Sweep.afterDevices] at h
    split_ifs at h
    · cases h
    · exact h
  | reconciling seen rows =>
    cases h
    have hset := hinv.setSweep (Sweep.afterPlan settings.storeKey seen
      (reconcilePlan settings.storeKey seen rows node.groups) ⟨kind, attempts,
        .reconciling seen rows⟩)
      hsweep fun _ h => by
        simp only [Sweep.afterPlan] at h
        split_ifs at h
        · exact h
        · cases h
        · exact h
    exact hset.frame rfl (fun _ hsome _ => hsome) fun sweep hmem _ hseen => ⟨sweep, hmem, hseen⟩
  | freeing seen slots gpuDeviceIds =>
    obtain ⟨middle, hoperate, rfl⟩ := map_eq_some_iff.mp h
    obtain ⟨hmiddle, -, hsweeps⟩ := hinv.operate hids (.inr (.inr ⟨_,
      mem_of_getElem? hsweep, seen, rfl, slots, gpuDeviceIds, rfl⟩)) hoperate
    refine hmiddle.setSweep _ (hsweeps ▸ hsweep) fun snapshot hseen => ?_
    rw [Sweep.snapshot?_afterFree] at hseen
    cases hseen
  | reserving seen slotRequests gpuRequests =>
    obtain ⟨middle, hoperate, rfl⟩ := map_eq_some_iff.mp h
    obtain ⟨hmiddle, -, hsweeps⟩ := hinv.operate hids (.inl rfl) hoperate
    refine hmiddle.setSweep _ (hsweeps ▸ hsweep) fun snapshot hseen => ?_
    rw [Sweep.snapshot?_afterReserve] at hseen
    cases hseen
  | returned => cases h

variable {start : BatchStart}

lemma Protected.reserveStep {now : ℕ}
    (h : node.reserveStep settings start now = some node') : Protected settings origin node' := by
  simp only [StartingNode.reserveStep] at h
  split at h
  · cases h
    exact hinv.setStart _ _ nofun
  · next decision hok =>
      obtain ⟨middle, hoperate, rfl⟩ := map_eq_some_iff.mp h
      obtain ⟨hmiddle, -, hsweeps⟩ := hinv.operate hids (.inl rfl) hoperate
      obtain ⟨scheduler, hstep, rfl⟩ := map_eq_some_iff.mp hoperate
      obtain ⟨hholds, hnewer⟩ := holds_of_reserve hinv.scheduler hok hstep
      refine ⟨hmiddle.scheduler, hmiddle.seen, ?_⟩
      intro reserved hsome _
      cases hsome
      refine ⟨hholds, hnewer.imp_right fun hnewer => ?_⟩
      intro sweep hmem snapshot hsnapshot
      exact (hinv.seen sweep hmem snapshot hsnapshot).trans_lt hnewer

lemma Protected.releaseStep {call : ReleaseCall}
    {calls : List ReleaseCall} {now : ℕ} (hstart : node.start = some start)
    (hphase : start.phase ≠ .reserved)
    (h : node.releaseStep settings start call calls now = some node') :
    Protected settings origin node' := by
  simp only [StartingNode.releaseStep] at h
  split at h
  · obtain ⟨middle, hoperate, rfl⟩ := map_eq_some_iff.mp h
    have hnone : ∀ other, node.start = some other → other.phase ≠ .reserved := by
      intro other hother
      rw [hstart] at hother
      cases hother
      exact hphase
    exact (hinv.operate hids (.inr (.inl hnone)) hoperate).1.setStart _ _ nofun
  · cases h

lemma Protected.step {act : StartAction}
    (hok : node.readsOutside act = true) (h : node.step settings act = some node') :
    Protected settings origin node' := by
  cases act with
  | operate op now =>
    simp only [StartingNode.step] at h
    split_ifs at h with hop
    exact (hinv.operate hids (.inl (Bool.not_eq_true _ ▸ hop)) h).1
  | setRow | setGroup =>
    cases h
    exact hinv.frame rfl (fun _ hsome _ => hsome) fun sweep hmem _ hseen => ⟨sweep, hmem, hseen⟩
  | begin plans expectedVersion =>
    simp only [StartingNode.step] at h
    split_ifs at h
    cases h
    refine hinv.frame rfl ?_ fun sweep hmem _ hseen => ⟨sweep, hmem, hseen⟩
    rintro _ hsome hphase
    cases hsome
    cases hphase
  | reserve now =>
    simp only [StartingNode.step] at h
    split at h
    · exact hinv.reserveStep hids h
    · cases h
  | remoteFailed | storeFailed =>
    simp only [StartingNode.step] at h
    split at h
    · cases h
      exact hinv.setStart _ _ nofun
    · cases h
  | storeRows epochs =>
    simp only [StartingNode.step] at h
    split at h
    · next plans expectedVersion _ =>
        cases h
        have hset := hinv.setStart ⟨plans, expectedVersion, .reserved⟩ .stored nofun
        exact hset.frame rfl (fun _ hsome _ => hsome) fun sweep hmem _ hseen => ⟨sweep, hmem, hseen⟩
    · cases h
  | releaseRead =>
    simp only [StartingNode.step] at h
    split at h
    · cases h
      exact hinv.setStart _ _ nofun
    · split at h
      · cases h
        exact hinv.setStart _ _ nofun
      · cases h
        exact hinv.setStart _ _ nofun
      · cases h
    · cases h
  | releaseFree now =>
    simp only [StartingNode.step] at h
    split at h
    · next hstart => exact hinv.releaseStep hids hstart nofun h
    · cases h
  | sweep kind =>
    cases h
    refine hinv.frame rfl (fun _ hsome _ => hsome) ?_
    intro sweep hmem snapshot hseen
    rcases mem_append.mp hmem with hmem | hmem
    · exact ⟨sweep, hmem, hseen⟩
    · obtain rfl := mem_singleton.mp hmem
      cases hseen
  | sweepStep i now =>
    simp only [StartingNode.step] at h
    split at h
    · next sweep hsweep =>
        refine hinv.sweepStep hids hsweep ?_ h
        rintro hreading
        obtain ⟨kind, attempts, phase⟩ := sweep
        obtain rfl : phase = .reading := hreading
        simpa [StartingNode.readsOutside, hsweep] using hok
    · cases h

omit hids

omit hinv

/-- **A start keeps what it has reserved** until it fails or its rows are stored, when sweeps take
their snapshots outside of that time. -/
theorem start_keeps_reservations {slots : List (SlotId × SlotCapacity)}
    {gpuDevices : List (GpuDeviceId × GpuDetails)} {rows : BTreeMap Uuid WorkloadValue}
    {groups : BTreeMap Uuid WorkloadAdmissionGroupPhase} {start : BatchStart}
    (hids : Function.Injective2 settings.leaseIds)
    (h : Reaches (StartingNode.step settings) (fun node act => node.readsOutside act = true)
      (StartingNode.initial slots gpuDevices rows groups) node)
    (hstart : node.start = some start) (hphase : start.phase = .reserved) :
    start.Holds settings node.scheduler.snapshot := by
  have hinv : Protected settings (initResources slots gpuDevices) node := by
    refine h.invariant (P := Protected settings (initResources slots gpuDevices)) ?_
      fun hinv hok hstep => hinv.step hids hok hstep
    refine ⟨SequentialScheduler.invariant_of_reaches hids .refl, ?_, ?_⟩
    · exact nofun
    · exact fun _ => nofun
  exact (hinv.reserved start hstart hphase).1

end Runs

/-! ## Samples -/

/-- Workload 7 on node 1, with slot 0. -/
def sampleSpec : WorkloadSpec where
  status :=
    { id := 7, name := "web", image := "web:1", executionPlatform := .oci, isolationMode :=
      .standard
      isolationProfile := none, state := .pending, phaseReason := none, phaseProgress := none
      createdAt := "2026-01-01T00:00:00Z", updatedAt := "2026-01-01T00:00:00Z", nodeId := 1
      nodeName := "one", owner := none, taskEpoch := 0, phaseVersion := 0, launchAttempt := 0
      lastTerminalObservedLaunch := none }
  definition := { WorkloadDefinition.placeholder with
    command := ["serve"], slotIds := [0], slotId := some 0, cpuMillis := 1000, memoryBytes := 1024 }

def sampleStart : List StartAction := [.begin [⟨sampleSpec, false⟩] 0, .reserve 0]

def sampleStarting : StartingNode := StartingNode.initial sampleSlots [] ∅ ∅

/-- A sweep that took its snapshot before the reservation comes too late. -/
theorem start_keeps_reservations_sample :
    ∃ (node : StartingNode) (start : BatchStart), node.start = some start ∧
      start.slotRequests 1 = [⟨0, 1, some 7, none⟩] ∧
      start.Holds sampleScheduler node.scheduler.snapshot := by
  have hids : Function.Injective2 sampleScheduler.leaseIds := fun _ _ _ _ h => Nat.pair_eq_pair.mp h
  have hreach : Reaches (StartingNode.step sampleScheduler)
      (fun node act => node.readsOutside act = true) sampleStarting _ := reaches_of_runActions
    [.operate (.reserve 0 [⟨1, 1, some 8, none⟩] []) 0, .sweep .orphans, .sweepStep 0 0,
      .sweepStep 0 0, .sweepStep 0 0, .begin [⟨sampleSpec, false⟩] 1, .reserve 0,
        .sweepStep 0 0] rfl
  exact ⟨_, _, rfl, rfl, start_keeps_reservations hids hreach rfl rfl⟩

/-- A sweep of this kind has freed the slot of a start that goes on, and workload 8 got it. -/
def SweepFreesStart (kind : SweepKind) : Prop :=
  ∃ node : StartingNode,
    Reaches (StartingNode.step sampleScheduler) anyStep sampleStarting node ∧
    node.sweeps.map Sweep.kind = [kind] ∧ node.inFlight = true ∧
    node.start.map (BatchStart.slotRequests 1) = some [⟨0, 1, some 7, none⟩] ∧
    node.scheduler.snapshot.slots.map Resource.state = [.reserved ⟨1, some 8, none⟩, .free]

/-- A sweep of either kind takes its snapshot after a start has reserved its slot, finds no row, and
frees the slot; workload 8 gets it while the start goes on. -/
theorem sweep_frees_start : SweepFreesStart .orphans ∧ SweepFreesStart .reconcile := by
  refine ⟨?_, ?_⟩
  · exact exists_reaches_of_runActions
      (sampleStart ++ [.sweep .orphans, .sweepStep 0 0, .sweepStep 0 0, .sweepStep 0 0,
        .sweepStep 0 0, .operate (.reserve 2 [⟨0, 1, some 8, none⟩] []) 0]) (by decide +kernel)
  · exact exists_reaches_of_runActions
      (sampleStart ++ [.sweep .reconcile, .sweepStep 0 0, .sweepStep 0 0, .sweepStep 0 0,
        .sweepStep 0 0, .operate (.reserve 2 [⟨0, 1, some 8, none⟩] []) 0]) (by decide +kernel)

end Mantissa.Workload
