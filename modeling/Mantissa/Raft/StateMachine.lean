import Mantissa.Raft.DurableLog
import Mantissa.Volume.AppliedState

/-!
# Applying committed entries

A group keeps three things besides its log: the application's state, saved together with the term
and the index of the command it stands after; and in the group catalog the latest membership and the
log id of the last applied entry. Each of them is saved by a transaction of its own, so a crash can
separate them: a normal entry counts as applied once the application has saved it, although the
catalog is one entry behind, and the application says nothing about blank entries and memberships.
Where applying stops, the row is that of the first entries, and the catalog is not ahead
(`apply_durable`).

The application is a total function on states and commands. A state that cannot be encoded is one
more way for its save to fail.
-/

namespace Mantissa

/-- `openraft::EntryPayload`. -/
inductive EntryPayload (C M : Type)
  | blank
  | normal (command : C)
  | membership (membership : M)
  deriving DecidableEq

/-- `ApplyContext::new`, of a log id. -/
def LogId.context {N : Type} (logId : LogId N) : ApplyContext := ⟨logId.term, logId.index⟩

/-- `EntryResponse`. -/
inductive EntryResponse (R : Type)
  | internal
  | application (response : R)

/-- `openraft::StoredMembership`. -/
structure StoredMembership (N M : Type) where
  logId : Option (LogId N)
  membership : M
  deriving DecidableEq

/-- The fields of `GroupRecord` that applying changes. -/
structure GroupRecord (N M : Type) where
  membership : Option (StoredMembership N M)
  appliedLogId : Option (LogId N)

/-- `CatalogError`, as far as the row of a group that exists causes it. -/
inductive CatalogError
  | staleMembership
  | conflictingMembership
  | staleAppliedLogId
  | conflictingAppliedLogId
  | database
  deriving DecidableEq

/-- `VolumeGroupError`, as far as applying and installing cause it, and the error of a snapshot
without a position. -/
inductive VolumeGroupError
  | log (error : LogError)
  | catalog (error : CatalogError)
  | storage
  | missingSnapshotLogId
  deriving DecidableEq

/-- The application's states, commands and responses: `VolumeControlState::default` and
`VolumeControlState::evaluate`. -/
structure Application (S C R : Type) where
  initial : S
  evaluate : S → C → S × R

/-- A group on one member. `state` and `lastApplied` are in memory. -/
structure VolumeGroup (N C M S : Type) where
  log : EncryptedLog N (EntryPayload C M)
  record : GroupRecord N M
  saved : Option (ApplyContext × S)
  state : S
  lastApplied : Option (LogId N)

abbrev GroupM (N C M S : Type) := Prog (VolumeGroup N C M S) VolumeGroupError

namespace LogId

variable {N : Type} [LinearOrder N]

/-- Log ids are ordered by term, then by node, then by index. -/
def key (logId : LogId N) : ℕ ×ₗ N ×ₗ ℕ := toLex (logId.term, toLex (logId.nodeId, logId.index))

/-- `Option<LogId>` in its order, where nothing comes first. -/
def before : Option (LogId N) → Option (LogId N) → Bool
  | _, none => false
  | none, some _ => true
  | some a, some b => decide (a.key < b.key)

end LogId

namespace VolumeGroup

variable {N C M S R : Type}

/-! ## The group catalog -/

section Catalog

variable [LinearOrder N] [DecidableEq M] (membership : StoredMembership N M)

/-- The check of `save_membership`. -/
def checkMembership : Option (StoredMembership N M) → Except CatalogError Unit
  | none => .ok ()
  | some stored =>
    if LogId.before membership.logId stored.logId then .error .staleMembership
    else if membership.logId = stored.logId ∧ membership ≠ stored then .error .conflictingMembership
    else .ok ()

/-- `save_membership`. -/
def saveMembership : GroupM N C M S Unit := do
  let stored ← Prog.query (.catalog .database) fun group => group.record.membership
  match checkMembership membership stored with
  | .error error => Prog.reject (.catalog error)
  | .ok () => Prog.perform (.catalog .database) fun group =>
    { group with record := { group.record with membership := some membership } }

omit [DecidableEq M] in
/-- The check of `save_applied_log_id`. -/
def checkAppliedLogId (logId : LogId N) : Option (LogId N) → Except CatalogError Unit
  | none => .ok ()
  | some stored =>
    if logId.index < stored.index ∨ stored.index < logId.index ∧ logId.term < stored.term then
      .error .staleAppliedLogId
    else if logId.index = stored.index ∧ logId ≠ stored then .error .conflictingAppliedLogId
    else .ok ()

omit [DecidableEq M] in
/-- `save_applied_log_id`. -/
def saveAppliedLogId (logId : LogId N) : GroupM N C M S Unit := do
  let stored ← Prog.query (.catalog .database) fun group => group.record.appliedLogId
  match checkAppliedLogId logId stored with
  | .error error => Prog.reject (.catalog error)
  | .ok () => Prog.perform (.catalog .database) fun group =>
    { group with record := { group.record with appliedLogId := some logId } }

end Catalog

/-! ## The state machine -/

section Apply

variable (app : Application S C R) (entry : LogEntry N (EntryPayload C M))

/-- `VolumeControlStateMachine::apply`: the state and its position are saved in one transaction. -/
def applyCommand (logId : LogId N) (command : C) : GroupM N C M S R := do
  let state ← Prog.memory state
  let plan := app.evaluate state command
  Prog.perform .storage fun group => { group with saved := some (logId.context, plan.1) }
  Prog.remember fun group => { group with state := plan.1 }
  pure plan.2

variable [LinearOrder N] [DecidableEq M]

/-- The payload's part of the loop of `DurableStateMachine::apply`. -/
def applyPayload : GroupM N C M S (EntryResponse R) :=
  match entry.payload with
  | .blank => pure .internal
  | .membership membership => do
      saveMembership ⟨some entry.logId, membership⟩
      pure .internal
  | .normal command => do
      let response ← applyCommand app entry.logId command
      pure (.application response)

/-- The body of that loop. -/
def applyEntry : GroupM N C M S (EntryResponse R) := do
  let response ← applyPayload app entry
  saveAppliedLogId entry.logId
  Prog.remember fun group => { group with lastApplied := some entry.logId }
  pure response

/-- `DurableStateMachine::apply`. -/
def apply : List (LogEntry N (EntryPayload C M)) → GroupM N C M S (List (EntryResponse R))
  | [] => pure []
  | entry :: entries => do
      let response ← applyEntry app entry
      let responses ← apply entries
      pure (response :: responses)

/-! ## What applying leaves on disk -/

open List

/-- The state that `VolumeControlStateMachine::open` finds. -/
def openState (saved : Option (ApplyContext × S)) : S := (saved.map Prod.snd).getD app.initial

variable (group group' : VolumeGroup N C M S) (entries : List (LogEntry N (EntryPayload C M)))

/-- The application's row after the commands of these entries. -/
def replay (saved : Option (ApplyContext × S)) : Option (ApplyContext × S) :=
  entries.foldl (fun saved entry =>
    match entry.payload with
    | .normal command => some (entry.logId.context, (app.evaluate (openState app saved) command).1)
    | _ => saved) saved

/-- What is on disk of the second group is what these entries make of the first: the row is that of
their commands, and the catalog's position is none beyond them. -/
def Applied : Prop :=
  group'.saved = replay app entries group.saved ∧
    (group'.record.appliedLogId = group.record.appliedLogId ∨
      ∃ entry ∈ entries, group'.record.appliedLogId = some entry.logId)

variable {app entry group group' entries}

omit [LinearOrder N] [DecidableEq M] in
lemma Applied.cons {group₁ : VolumeGroup N C M S} (h : Applied app group group₁ [entry])
    (h' : Applied app group₁ group' entries) : Applied app group group' (entry :: entries) := by
  refine ⟨by rw [h'.1, h.1]; rfl, ?_⟩
  rcases h'.2 with heq | ⟨last, hlast, heq⟩
  · rw [heq]
    exact h.2.imp_right fun ⟨last, hlast, hsome⟩ => ⟨last, mem_append_left entries hlast, hsome⟩
  · exact .inr ⟨last, mem_cons_of_mem _ hlast, heq⟩

lemma saveMembership_spec (membership : StoredMembership N M) :
    wp (saveMembership membership) group
      (fun _ group' => ∃ stored, group' = { group with record.membership := stored })
      fun _ group' => ∃ stored, group' = { group with record.membership := stored } := by
  refine wp.bind (wp.query ?_ fun _ _ => ⟨_, rfl⟩)
  cases checkMembership membership group.record.membership with
  | error error => exact wp.reject ⟨_, rfl⟩
  | ok _ => exact wp.perform ⟨_, rfl⟩ (fun _ _ => ⟨_, rfl⟩) fun _ _ => ⟨_, rfl⟩

omit [DecidableEq M] in
lemma saveAppliedLogId_spec (logId : LogId N) :
    let saved := { group with record.appliedLogId := some logId }
    wp (saveAppliedLogId logId) group (fun _ group' => group' = saved) fun _ group' =>
      group' = group ∨ group' = saved := by
  refine wp.bind (wp.query ?_ fun _ _ => .inl rfl)
  cases checkAppliedLogId logId group.record.appliedLogId with
  | error error => exact wp.reject (.inl rfl)
  | ok _ => exact wp.perform rfl (fun _ _ => .inl rfl) fun _ _ => .inr rfl

/-- One entry is on disk or not, and never half. -/
lemma applyEntry_spec (h : group.state = openState app group.saved) :
    wp (applyEntry app entry) group
      (fun _ group' => Applied app group group' [entry] ∧ group'.state = openState app group'.saved)
      fun _ group' => ∃ first, first <+: [entry] ∧ Applied app group group' first := by
  have hnone : ∃ first, first <+: [entry] ∧ Applied app group group first :=
    ⟨[], nil_prefix, rfl, .inl rfl⟩
  -- before the catalog takes the position, the row is that of the entry
  refine wp.next (Q := fun _ group' => group'.saved = replay app [entry] group.saved ∧
    group'.record.appliedLogId = group.record.appliedLogId ∧
    group'.state = openState app group'.saved) ?_ ?_
  · obtain ⟨logId, payload⟩ := entry
    cases payload with
    | blank => exact wp.pure ⟨rfl, rfl, h⟩
    | membership membership =>
      refine (saveMembership_spec _).seq ?_ ?_
      · rintro _ _ ⟨stored, rfl⟩
        exact hnone
      · rintro _ _ ⟨stored, rfl⟩
        exact wp.pure ⟨rfl, rfl, h⟩
    | normal command =>
      have hrow : some (logId.context, (app.evaluate group.state command).1) =
          replay app [⟨logId, .normal (M := M) command⟩] group.saved := by
        rw [h]
        rfl
      refine wp.bind (wp.bind (wp.memory ?_))
      refine wp.bind (wp.perform ?_ (fun _ _ => hnone) fun _ _ => ⟨_, prefix_rfl, hrow, .inl rfl⟩)
      exact wp.bind (wp.remember (wp.pure (wp.pure ⟨hrow, rfl, rfl⟩)))
  · rintro response group' ⟨hsaved, hposition, hstate⟩
    have hlast : ∃ last ∈ [entry], some entry.logId = some last.logId :=
      ⟨entry, mem_singleton_self _, rfl⟩
    refine (saveAppliedLogId_spec entry.logId).seq ?_ ?_
    · rintro _ _ (rfl | rfl)
      · exact ⟨_, prefix_rfl, hsaved, .inl hposition⟩
      · exact ⟨_, prefix_rfl, hsaved, .inr hlast⟩
    · rintro _ _ rfl
      exact wp.bind (wp.remember (wp.pure ⟨⟨hsaved, .inr hlast⟩, hstate⟩))

/-- **Applying leaves the row of a run of entries**: of all of them when it returns, and of the
first ones wherever it stops. No command is skipped, saved twice, or evaluated on another state
than the commands before it left, and the catalog never names an entry that the row lacks. -/
theorem apply_durable (h : group.state = openState app group.saved) :
    wp (apply app entries) group
      (fun _ group' => Applied app group group' entries ∧ group'.state = openState app group'.saved)
      fun _ group' => ∃ first, first <+: entries ∧ Applied app group group' first := by
  induction entries generalizing group with
  | nil => exact wp.pure ⟨⟨rfl, .inl rfl⟩, h⟩
  | cons entry entries ih =>
    refine (applyEntry_spec h).seq ?_ ?_
    · rintro _ group' ⟨first, hfirst, happlied⟩
      exact ⟨first, hfirst.trans (prefix_append [entry] entries), happlied⟩
    · rintro response group₁ ⟨happlied, hstate⟩
      refine (ih hstate).seq ?_ ?_
      · rintro _ group' ⟨first, hfirst, hrest⟩
        exact ⟨entry :: first, cons_prefix_cons.mpr ⟨rfl, hfirst⟩, happlied.cons hrest⟩
      · rintro responses group' ⟨hrest, hstate'⟩
        exact wp.pure ⟨happlied.cons hrest, hstate'⟩

/-- Two commands. -/
theorem apply_durable_two_commands :
    wp (apply ⟨0, fun total n => (total + n, total)⟩
        [⟨⟨1, 0, 1⟩, .normal 2⟩, ⟨⟨1, 0, 3⟩, .normal 5⟩])
      (⟨.empty, ⟨none, none⟩, none, 0, none⟩ : VolumeGroup ℕ ℕ ℕ ℕ)
      (fun _ group' => group'.saved = some (⟨1, 3⟩, 7)) fun _ _ => True :=
  wp.mono (apply_durable rfl) (fun _ _ hdone => hdone.1.1) fun _ _ _ => trivial

/-! ## Snapshots -/

/-- `openraft::SnapshotMeta`, and the application state that was received, if it can be decoded. -/
structure ReceivedSnapshot (N M S : Type) where
  lastLogId : Option (LogId N)
  lastMembership : StoredMembership N M
  state : Option S

/-- `DurableStateMachine::install_snapshot`. -/
def installSnapshot (snapshot : ReceivedSnapshot N M S) : GroupM N C M S Unit :=
  match snapshot.lastLogId with
  | none => Prog.reject .missingSnapshotLogId
  | some logId =>
    match snapshot.state with
    | none => Prog.reject .storage
    | some state => do
        Prog.perform .storage fun group => { group with saved := some (logId.context, state) }
        Prog.remember fun group => { group with state := state }
        saveMembership snapshot.lastMembership
        saveAppliedLogId logId
        Prog.remember fun group => { group with lastApplied := some logId }

end Apply

/-! ## The log -/

/-- A call of the log. -/
def onLog {α : Type} (m : LogM N (EntryPayload C M) α) : GroupM N C M S α :=
  Prog.zoom log (fun log group => { group with log := log }) .log m

/-- `DurableLogStore::purge`. -/
def purge [DecidableEq N] (settings : LogSettings N (EntryPayload C M)) (logId : LogId N) :
    GroupM N C M S Unit :=
  onLog (EncryptedLog.deleteThrough settings logId)

end VolumeGroup

end Mantissa
