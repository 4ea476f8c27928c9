import Mantissa.Scheduler.Lifecycle

/-!
# Giving resources back

`release_slot` and `release_local_resources` know the ids a workload has, not what the scheduler
holds under them. Each round reads the version of the latest snapshot and asks for the ids to be
freed at that version, so the version only rules out changes between those two steps: what was freed
and given out again before the round began is freed once more.

A node is a scheduler with some releases under way. Anything else that happens on the node reaches
the scheduler as one of its operations. `free_exact` says what a free does to every entry; from
there it is read off which releases spare the other workloads, and that the ids once belonged to the
workload does not help.
-/

namespace Mantissa.Workload

open Scheduler List

/-! ## The loops -/

/-- Which of the two functions runs. -/
inductive ReleaseKind
  | slot
  | localResources
  deriving DecidableEq

inductive ReleaseResult
  | released
  | failed (error : SchedulerError)
  | exhausted
  deriving DecidableEq

inductive ReleasePhase
  | reading
  | freeing (version : ℕ)
  | returned (result : ReleaseResult)
  deriving DecidableEq

/-- A release for a workload, with the rounds it has left. -/
structure ReleaseCall where
  kind : ReleaseKind
  task : Uuid
  slots : List SlotId
  gpuDeviceIds : List GpuDeviceId
  attempts : ℕ
  phase : ReleasePhase

/-- `MAX_ATTEMPTS` of both functions. -/
def maxAttempts : ℕ := 10

/-- `release_slot`. -/
def releaseSlot (task : Uuid) (slot : SlotId) : ReleaseCall :=
  ⟨.slot, task, [slot], [], maxAttempts, .reading⟩

/-- `release_local_resources`. -/
def releaseLocalResources (task : Uuid) (slots : List SlotId) (gpuDeviceIds : List GpuDeviceId) :
    ReleaseCall :=
  ⟨.localResources, task, slots.eraseDups, gpuDeviceIds.eraseDups, maxAttempts,
    if slots.isEmpty && gpuDeviceIds.isEmpty then .returned .released else .reading⟩

/-- What an error other than a version mismatch means. A slot that is unknown or free needs no
release; `release_local_resources` logs every error. -/
def ReleaseKind.result (error : SchedulerError) : ReleaseKind → ReleaseResult
  | .slot =>
    match error with
    | .unknownSlots .. => .released
    | .slotsNotReserved .. => .released
    | error => .failed error
  | .localResources => .failed error

/-- Where a release goes on after `free_resources` has answered. -/
def ReleaseCall.answered (call : ReleaseCall) : Attempt → ReleaseCall
  | .ok _ => { call with phase := .returned .released }
  | .error (.snapshotMismatch ..) =>
    if call.attempts ≤ 1 then { call with phase := .returned .exhausted }
    else { call with attempts := call.attempts - 1, phase := .reading }
  | .error error => { call with phase := .returned (call.kind.result error) }

/-! ## A node -/

/-- A scheduler, the snapshots it has had, and the releases under way. -/
structure ReleasingNode where
  scheduler : SequentialScheduler
  history : List SchedulerSnapshot
  releases : List ReleaseCall

/-- The workload of an entry. -/
def taskOf : ResourceState → Option Uuid
  | .free => none
  | .leased lease => some lease.taskId
  | .reserved reservation => reservation.taskId

/-- Some snapshot had an entry under this id for the workload. -/
def onceHeld {I D : Type} [DecidableEq I] (entries : List (List (Resource I D)))
    (task : Uuid) (id : I) : Bool :=
  entries.any fun resources => resources.any fun resource =>
    decide (resource.id = id ∧ taskOf resource.state = some task)

inductive NodeAction
  | operate (op : SchedulerOp) (now : ℕ)
  | releaseSlot (task : Uuid) (slot : SlotId)
  | releaseLocalResources (task : Uuid) (slots : List SlotId) (gpuDeviceIds : List GpuDeviceId)
  | readVersion (release : ℕ)
  | free (release now : ℕ)

namespace ReleasingNode

def initial (slots : List (SlotId × SlotCapacity)) (gpuDevices : List (GpuDeviceId × GpuDetails)) :
    ReleasingNode :=
  ⟨SequentialScheduler.initial slots gpuDevices, [initResources slots gpuDevices], []⟩

/-- The scheduler takes a step. -/
def operate (settings : SchedulerSettings) (node : ReleasingNode) (op : SchedulerOp) (now : ℕ)
    (releases : List ReleaseCall) : Option ReleasingNode :=
  (node.scheduler.step settings (op, now)).map fun scheduler =>
    ⟨scheduler, scheduler.snapshot :: node.history, releases⟩

/-- One step. A release is for ids that its workload once held. -/
def step (settings : SchedulerSettings) (node : ReleasingNode) : NodeAction → Option ReleasingNode
  | .operate op now => node.operate settings op now node.releases
  | .releaseSlot task slot =>
    if onceHeld (node.history.map SchedulerSnapshot.slots) task slot then
      some { node with releases := node.releases ++ [Workload.releaseSlot task slot] }
    else none
  | .releaseLocalResources task slots gpuDeviceIds =>
    if slots.all (onceHeld (node.history.map SchedulerSnapshot.slots) task) &&
        gpuDeviceIds.all (onceHeld (node.history.map SchedulerSnapshot.gpuDevices) task) then
      some { node with
        releases := node.releases ++ [Workload.releaseLocalResources task slots gpuDeviceIds] }
    else none
  | .readVersion release =>
    match node.releases[release]? with
    | none => none
    | some call =>
      match call.phase with
      | .reading =>
        let reading := { call with phase := .freeing node.scheduler.snapshot.version }
        some { node with releases := node.releases.set release reading }
      | _ => none
  | .free release now =>
    match node.releases[release]? with
    | none => none
    | some call =>
      match call.phase with
      | .freeing version =>
        node.operate settings (.free version call.slots call.gpuDeviceIds) now
          (node.releases.set release (call.answered
            (freeResources now version call.slots call.gpuDeviceIds node.scheduler.snapshot)))
      | _ => none

variable {settings : SchedulerSettings} {node node' : ReleasingNode}

/-- The scheduler of a node does what a scheduler does. -/
lemma scheduler_reaches {slots : List (SlotId × SlotCapacity)}
    {gpuDevices : List (GpuDeviceId × GpuDetails)}
    (h : Reaches (step settings) anyStep (initial slots gpuDevices) node) :
    Reaches (SequentialScheduler.step settings) anyStep
      (SequentialScheduler.initial slots gpuDevices) node.scheduler := by
  refine h.invariant (P := fun node => Reaches (SequentialScheduler.step settings) anyStep
    (SequentialScheduler.initial slots gpuDevices) node.scheduler) .refl ?_
  intro node node' act hreach _ hstep
  -- Either the scheduler stays as it is, or it runs one operation.
  have hoperate : ∀ op now releases, node.operate settings op now releases = some node' →
      Reaches (SequentialScheduler.step settings) anyStep
        (SequentialScheduler.initial slots gpuDevices) node'.scheduler := by
    intro op now releases hop
    obtain ⟨scheduler, hscheduler, rfl⟩ := Option.map_eq_some_iff.mp hop
    exact hreach.tail trivial hscheduler
  cases act with
  | operate op now => exact hoperate op now _ hstep
  | releaseSlot | releaseLocalResources =>
    simp only [step] at hstep
    split_ifs at hstep
    cases hstep
    exact hreach
  | readVersion release =>
    simp only [step] at hstep
    split at hstep
    · cases hstep
    · split at hstep
      · cases hstep
        exact hreach
      · cases hstep
  | free release now =>
    simp only [step] at hstep
    split at hstep
    · cases hstep
    · split at hstep
      · exact hoperate _ now _ hstep
      · cases hstep

end ReleasingNode

/-! ## What a free does -/

/-- The checks of `free_resources` fail, or versions have run out. -/
def FreeRefused (now version : ℕ) (slots : List SlotId) (gpuDeviceIds : List GpuDeviceId)
    (snapshot : SchedulerSnapshot) : Prop :=
  checkVersion version snapshot ≠ .ok () ∨
  checkTaken (clearExpiredLeases now snapshot).1 snapshot slots gpuDeviceIds ≠ .ok () ∨
  checkedAdd snapshot.version 1 = none

variable (now : ℕ)

/-- What a free leaves of an entry. -/
def Freed {I : Type} (now : ℕ) (ids : List I) (id : I) (before after : ResourceState) : Prop :=
  (id ∈ ids → after = .free) ∧ (id ∉ ids → after = before.clearExpired now)

lemma moved_freeAll {I D : Type} [LinearOrder I] (ids : List I) (resources : List (Resource I D))
    (hnodup : (resources.map Resource.id).Nodup) :
    Moved (fun id before after => (id ∈ ids → after = .free) ∧
      (id ∉ ids → after = before)) resources (freeAll ids resources) := by
  refine (moved_assignAll id (fun _ => .free) ids resources hnodup fun _ _ _ _ _ => rfl).mono ?_
  rintro id s t ⟨hset, hkeep⟩
  exact ⟨fun hmem => hset id hmem rfl, fun hmem => hkeep fun named hnamed heq =>
    hmem (heq ▸ hnamed)⟩

/-- A free that is not refused publishes, and this is what it leaves. -/
lemma free_exact {now version : ℕ} {slots : List SlotId} {gpuDeviceIds : List GpuDeviceId}
    {current : SchedulerSnapshot} (hunique : UniqueIds current)
    (hnamed : slots ≠ [] ∨ gpuDeviceIds ≠ [])
    (h : ¬ FreeRefused now version slots gpuDeviceIds current) :
    ∃ next answer, freeResources now version slots gpuDeviceIds current =
      .ok (.publish next answer) ∧
      Change (Freed now slots) (Freed now gpuDeviceIds) current next := by
  simp only [FreeRefused, not_or, not_not] at h
  obtain ⟨hversion, htaken, hnext⟩ := h
  obtain ⟨nextVersion, hnext⟩ := Option.ne_none_iff_exists'.mp hnext
  have hempty : ¬ (slots.isEmpty && gpuDeviceIds.isEmpty) = true := by
    rw [Bool.and_eq_true, List.isEmpty_iff, List.isEmpty_iff]
    rintro ⟨rfl, rfl⟩
    rcases hnamed with h | h <;> exact h rfl
  let next : SchedulerSnapshot :=
    ⟨nextVersion, freeAll (sortedSet slots) (clearExpiredLeases now current).1.slots,
      freeAll (sortedSet gpuDeviceIds) (clearExpiredLeases now current).1.gpuDevices⟩
  refine ⟨next, .snapshot next, ?_, ?_⟩
  · rw [freeResources, if_neg hempty, hversion]
    simp only [bind, Except.bind, htaken, publishNext, nextSnapshot]
    rw [show checkedAdd (clearExpiredLeases now current).1.version 1 = some nextVersion from hnext]
    rfl
  · have hclear : Change (fun _ before after => after = before.clearExpired now)
        (fun _ before after => after = before.clearExpired now) current
          (clearExpiredLeases now current).1 :=
      ⟨moved_mapStates _, moved_mapStates _⟩
    have hcleared := hclear.uniqueIds hunique
    refine ⟨hclear.slots.trans (moved_freeAll _ _ hcleared.slots) ?_,
      hclear.gpuDevices.trans (moved_freeAll _ _ hcleared.gpuDevices) ?_⟩
    all_goals
      rintro id s t u rfl ⟨hfree, hkeep⟩
      exact ⟨fun h => hfree (mem_sortedSet.mpr h), fun h => hkeep (mt mem_sortedSet.mp h)⟩

/-- A free that is refused keeps the snapshot. -/
lemma not_published_of_refused {now version : ℕ} {slots : List SlotId}
    {gpuDeviceIds : List GpuDeviceId} {current next : SchedulerSnapshot}
    {answer : SchedulerResponse}
    (h : FreeRefused now version slots gpuDeviceIds current) :
    freeResources now version slots gpuDeviceIds current ≠ .ok (.publish next answer) := by
  intro hpublish
  rw [freeResources] at hpublish
  split_ifs at hpublish
  · cases hpublish
  obtain ⟨_, hversion, hpublish⟩ := bind_eq_ok.mp hpublish
  obtain ⟨_, htaken, hpublish⟩ := bind_eq_ok.mp hpublish
  obtain ⟨next', hnext, -⟩ := bind_eq_ok.mp hpublish
  rcases h with h | h | h
  · exact h hversion
  · exact h htaken
  · rw [nextSnapshot] at hnext
    split at hnext
    · next hsome =>
        rw [show checkedAdd (clearExpiredLeases now current).1.version 1 = none from h] at hsome
        cases hsome
    · cases hnext

/-! ## Other workloads -/

/-- The workload an entry is kept for: a reservation's, or a lease's until it runs out. -/
def heldFor : ResourceState → Option Uuid
  | .free => none
  | .leased lease => if now < lease.expiresAtUnixMs then some lease.taskId else none
  | .reserved reservation => reservation.taskId

/-- What is kept for another workload does not become free. -/
def Spares (task : Uuid) (before after : ResourceState) : Prop :=
  ∀ other, heldFor now before = some other → other ≠ task → after ≠ .free

lemma Spares.refl (task : Uuid) (state : ResourceState) : Spares now task state state := by
  rintro other hheld - rfl
  cases hheld

/-- Clearing leases that have run out takes nothing from a workload. -/
lemma spares_clearExpired (task : Uuid) (state : ResourceState) :
    Spares now task state (state.clearExpired now) := by
  intro other hheld _ hfree
  cases state with
  | free => cases hheld
  | reserved reservation => cases hfree
  | leased lease =>
    simp only [heldFor] at hheld
    split_ifs at hheld with hlt
    rw [ResourceState.clearExpired, if_neg (by omega)] at hfree
    cases hfree

/-- Nothing that is named is kept for another workload. -/
def OwnedBy {I D : Type} (now : ℕ) (task : Uuid) (ids : List I) (resources : List (Resource I D)) :
    Prop :=
  ∀ resource ∈ resources, resource.id ∈ ids →
    ∀ other, heldFor now resource.state = some other → other = task

/-- A free spares the other workloads if and only if it names nothing of theirs. -/
lemma spares_iff_ownedBy {I D : Type} {now : ℕ} {task : Uuid} {ids : List I}
    {before after : List (Resource I D)} (h : Moved (Freed now ids) before after) :
    Moved (fun _ => Spares now task) before after ↔ OwnedBy now task ids before := by
  constructor
  · intro hspares resource hmem hid other hheld
    by_contra hne
    obtain ⟨i, hi⟩ := mem_iff_getElem?.mp hmem
    have hlength := (moved_iff_getElem.mp h).1
    obtain ⟨hlt, -⟩ := List.getElem?_eq_some_iff.mp hi
    have hafter : after[i]? = some after[i] := getElem?_eq_getElem (by omega)
    obtain ⟨-, -, hfreed⟩ := (moved_iff_getElem.mp h).2 i _ _ hi hafter
    obtain ⟨-, -, hspare⟩ := (moved_iff_getElem.mp hspares).2 i _ _ hi hafter
    exact hspare other hheld hne (hfreed.1 hid)
  · intro howned
    refine h.with_mem.mono ?_
    rintro id s t ⟨⟨hfree, hkeep⟩, resource, hmem, rfl, rfl⟩
    by_cases hid : resource.id ∈ ids
    · intro other hheld hne
      exact absurd (howned resource hmem hid other hheld) hne
    · rw [hkeep hid]
      exact spares_clearExpired now task resource.state

/-- **Which releases spare the other workloads.** In every state of the node, a release frees
nothing that is kept for another workload just when its free is refused or all it names is kept for
its own workload or for none. -/
theorem release_spares_iff {settings : SchedulerSettings} {slots : List (SlotId × SlotCapacity)}
    {gpuDevices : List (GpuDeviceId × GpuDetails)} {node node' : ReleasingNode}
    {release now version : ℕ} {call : ReleaseCall} (hids : Function.Injective2 settings.leaseIds)
    (h : Reaches (ReleasingNode.step settings) anyStep (ReleasingNode.initial slots gpuDevices)
      node)
    (hcall : node.releases[release]? = some call) (hphase : call.phase = .freeing version)
    (hstep : node.step settings (.free release now) = some node') :
    Change (fun _ => Spares now call.task) (fun _ => Spares now call.task) node.scheduler.snapshot
        node'.scheduler.snapshot ↔
      FreeRefused now version call.slots call.gpuDeviceIds node.scheduler.snapshot ∨
      OwnedBy now call.task call.slots node.scheduler.snapshot.slots ∧
        OwnedBy now call.task call.gpuDeviceIds node.scheduler.snapshot.gpuDevices := by
  have hinv := SequentialScheduler.invariant_of_reaches hids (ReleasingNode.scheduler_reaches h)
  have hscheduler : node.scheduler.step settings (.free version call.slots call.gpuDeviceIds, now) =
      some node'.scheduler := by
    simp only [ReleasingNode.step, hcall, hphase] at hstep
    obtain ⟨scheduler, hscheduler, rfl⟩ := Option.map_eq_some_iff.mp hstep
    exact hscheduler
  have hkept : node'.scheduler.snapshot = node.scheduler.snapshot →
      Change (fun _ => Spares now call.task) (fun _ => Spares now call.task) node.scheduler.snapshot
        node'.scheduler.snapshot := by
    intro heq
    rw [heq]
    exact ⟨Moved.refl fun _ state => Spares.refl now call.task state,
      Moved.refl fun _ state => Spares.refl now call.task state⟩
  by_cases hrefused : FreeRefused now version call.slots call.gpuDeviceIds node.scheduler.snapshot
  · refine ⟨fun _ => .inl hrefused, fun _ => hkept ?_⟩
    rcases SequentialScheduler.step_cases hscheduler with heq | ⟨answer, hattempt, -⟩
    · rw [heq]
    · exact absurd hattempt (not_published_of_refused hrefused)
  by_cases hnamed : call.slots ≠ [] ∨ call.gpuDeviceIds ≠ []
  · obtain ⟨next, answer, hpublish, hfreed⟩ := free_exact hinv.uniqueIds hnamed hrefused
    have hnext : node'.scheduler.snapshot = next := by
      simp only [SequentialScheduler.step, SchedulerOp.attempt, hpublish, Option.some.injEq]
        at hscheduler
      rw [← hscheduler]
    rw [hnext]
    constructor
    · rintro ⟨hslots, hgpus⟩
      exact .inr ⟨(spares_iff_ownedBy hfreed.slots).mp hslots,
        (spares_iff_ownedBy hfreed.gpuDevices).mp hgpus⟩
    · rintro (h | ⟨hslots, hgpus⟩)
      · exact absurd h hrefused
      · exact ⟨(spares_iff_ownedBy hfreed.slots).mpr hslots,
          (spares_iff_ownedBy hfreed.gpuDevices).mpr hgpus⟩
  · -- Nothing is named: the snapshot stays, and there is nothing to check.
    simp only [not_or, not_not] at hnamed
    refine ⟨fun _ => .inr ⟨?_, ?_⟩, fun _ => hkept ?_⟩
    · simp [OwnedBy, hnamed.1]
    · simp [OwnedBy, hnamed.2]
    · simp only [SequentialScheduler.step, SchedulerOp.attempt, hnamed.1, hnamed.2, freeResources,
        isEmpty_nil, Bool.and_self, if_true, Option.some.injEq] at hscheduler
      rw [← hscheduler]

/-- Workload 7 has a slot and gives it back. -/
def sampleRelease : List NodeAction :=
  [.operate (.reserve 0 [⟨0, 1, some 7, none⟩] []) 0, .releaseSlot 7 0, .readVersion 0]

theorem release_spares_iff_sample :
    ∃ node node' : ReleasingNode,
      Reaches (ReleasingNode.step sampleScheduler) anyStep (ReleasingNode.initial sampleSlots [])
        node ∧
      node.step sampleScheduler (.free 0 0) = some node' ∧
      (node.scheduler.snapshot.slots.map Resource.state = [.reserved ⟨1, some 7, none⟩, .free] ∧
        node'.scheduler.snapshot.slots.map Resource.state = [.free, .free]) ∧
      Change (fun _ => Spares 0 7) (fun _ => Spares 0 7) node.scheduler.snapshot
        node'.scheduler.snapshot := by
  have hids : Function.Injective2 sampleScheduler.leaseIds := fun _ _ _ _ h => Nat.pair_eq_pair.mp h
  have hreach : Reaches (ReleasingNode.step sampleScheduler) anyStep
      (ReleasingNode.initial sampleSlots []) _ := reaches_of_runActions sampleRelease rfl
  have hiff := release_spares_iff hids hreach (rfl : _[0]? = some _) rfl
    (rfl : ReleasingNode.step sampleScheduler _ (.free 0 0) = some _)
  refine ⟨_, _, hreach, rfl, ⟨by decide +kernel, by decide +kernel⟩,
    hiff.mpr (.inr ⟨?_, fun _ => nofun⟩)⟩
  intro slot hslot _ other hother
  rcases mem_cons.mp hslot with rfl | hslot
  · exact (Option.some.inj hother).symm
  · cases mem_singleton.mp hslot
    cases hother

/-- Workload 7 gives slot 0 back twice. Between the two, workload 8 gets the slot, and the second
release frees it. -/
theorem second_release_frees_other :
    ∃ node node' : ReleasingNode,
      Reaches (ReleasingNode.step sampleScheduler) anyStep (ReleasingNode.initial sampleSlots [])
        node ∧
      node.step sampleScheduler (.free 1 0) = some node' ∧
      node.releases.map (fun call => (call.task, call.slots)) = [(7, [0]), (7, [0])] ∧
      node.scheduler.snapshot.slots.map Resource.state = [.reserved ⟨1, some 8, none⟩, .free] ∧
      node'.scheduler.snapshot.slots.map Resource.state = [.free, .free] := by
  exact ⟨_, _, reaches_of_runActions (sampleRelease ++
    [.free 0 0, .operate (.reserve 2 [⟨0, 1, some 8, none⟩] []) 0, .releaseSlot 7 0,
      .readVersion 1]) rfl,
    rfl, by decide +kernel, by decide +kernel, by decide +kernel⟩

end Mantissa.Workload
