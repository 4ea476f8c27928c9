import Mantissa.Core.GraphSearch
import Mantissa.Core.Run
import Mantissa.Store.SecretKeySync

/-!
# The local store of master keys

A node keeps its master keys wrapped in a table, with a pointer to the current one and a flag that
says whether that one is still a bootstrap key. A bootstrap key may be replaced by whatever the
cluster offers; once it has been committed, `activateCurrent` accepts only keys that descend from it
or were made by a cluster operation.

All calls write in the same few ways (`Change`): the table only gains keys, the pointer only moves
to a stored key, and the flag is raised only where there was no current key. `kept_exec` says so
once for all of them, and what every run keeps follows from it.
-/

namespace Mantissa.Secrets

/-! ## Errors -/

/-- The kinds of `io::Error` the store reports. -/
inductive ErrorKind
  | notFound
  | permissionDenied
  | invalidInput
  | invalidData
  | other
  deriving DecidableEq

/-- `io::Error` with its message. -/
structure IoError where
  kind : ErrorKind
  message : String
  deriving DecidableEq

namespace IoError

def generationZero : IoError := ⟨.invalidInput, "secret master key generation must be positive"⟩

def generationOverflow : IoError := ⟨.other, "master key generation overflow"⟩

def keyMissing : IoError := ⟨.notFound, "secret master key missing"⟩

def envelopeMissing : IoError :=
  ⟨.invalidData, "secret master key envelope missing for recorded key id"⟩

def conflictingEnvelope : IoError :=
  ⟨.permissionDenied, "conflicting secret master key envelope rejected"⟩

def conflictingTransitionEnvelope : IoError :=
  ⟨.permissionDenied, "conflicting deterministic transition master key envelope rejected"⟩

def conflictingCurrent : IoError :=
  ⟨.permissionDenied, "conflicting replicated secret master key current rejected"⟩

def scopeMismatch : IoError :=
  ⟨.invalidInput, "transition master key scope does not match target view"⟩

def keyChanged : IoError :=
  ⟨.permissionDenied, "secret master key changed before grant publication"⟩

end IoError

/-! ## Keys and envelopes -/

/-- `MasterKeyPlaintext`. -/
abbrev MasterKeyPlaintext := ByteArrayOf 32

/-- `Provider`, and the two derivations of a split child. What a provider wraps it unwraps again.
-/
structure KeyCrypto where
  /-- What an envelope holds besides the descriptor. -/
  Ciphertext : Type
  /-- `wrap`; the first argument is the randomness drawn. -/
  wrap : ℕ → MasterKeyDescriptor → MasterKeyPlaintext → Ciphertext
  /-- `unwrap`. -/
  unwrap : MasterKeyDescriptor → Ciphertext → Except IoError MasterKeyPlaintext
  unwrap_wrap : ∀ entropy descriptor key,
    unwrap descriptor (wrap entropy descriptor key) = .ok key
  /-- `split_child_key_id`. -/
  splitChildKeyId : MasterKeyDescriptor → ClusterViewId → UuidKey → UuidKey → UuidKey
  /-- `derive_split_child`. -/
  deriveSplitChild : MasterKeyPlaintext → MasterKeyDescriptor → ClusterViewId → UuidKey → UuidKey →
    MasterKeyPlaintext

/-- `WrappedMasterKeyRecord`. -/
structure WrappedMasterKeyRecord (C : KeyCrypto) where
  descriptor : MasterKeyDescriptor
  ciphertext : C.Ciphertext

/-- `MasterKeyRecord`. -/
structure MasterKeyRecord where
  descriptor : MasterKeyDescriptor
  key : MasterKeyPlaintext
  deriving DecidableEq

/-- `key_id`. -/
def MasterKeyRecord.keyId (record : MasterKeyRecord) : UuidKey := record.descriptor.keyId

/-- `MasterKeyRecord::new`. -/
def MasterKeyRecord.new (descriptor : MasterKeyDescriptor) (key : MasterKeyPlaintext) :
    Except IoError MasterKeyRecord :=
  if descriptor.generation = 0 then .error .generationZero else .ok ⟨descriptor, key⟩

/-- What a call that makes a key draws: its id, its bytes, the time, and randomness for the
provider. -/
structure Draw where
  keyId : UuidKey
  key : MasterKeyPlaintext
  now : ℕ
  entropy : ℕ

/-- `MasterKeyDescriptor::initial`. -/
def initialDescriptor (draw : Draw) (scopeView : ClusterViewId) (createdByNodeId : UuidKey) :
    MasterKeyDescriptor :=
  ⟨draw.keyId, 1, scopeView, scopeView, createdByNodeId, ⊥, [], draw.now⟩

/-- `MasterKeyDescriptor::child`. -/
def childDescriptor (parent : MasterKeyDescriptor) (draw : Draw) (scopeView : ClusterViewId)
    (createdByNodeId : UuidKey) (operationId : WithBot UuidKey) :
    Except IoError MasterKeyDescriptor :=
  match checkedAdd parent.generation 1 with
  | none => .error .generationOverflow
  | some generation => .ok ⟨draw.keyId, generation, scopeView, scopeView,
      createdByNodeId, operationId, [parent.keyId], draw.now⟩

/-- `MasterKeyDescriptor::split_child`. -/
def splitChildDescriptor (C : KeyCrypto) (parent : MasterKeyDescriptor) (scopeView : ClusterViewId)
    (createdByNodeId operationId : UuidKey) : Except IoError MasterKeyDescriptor :=
  match checkedAdd parent.generation 1 with
  | none => .error .generationOverflow
  | some generation => .ok ⟨C.splitChildKeyId parent scopeView createdByNodeId operationId,
    generation,
      scopeView, scopeView, createdByNodeId, (operationId : WithBot UuidKey), [parent.keyId],
      parent.createdAtUnixSecs⟩

/-! ## The store -/

/-- `SecretMasterStore`: the table of envelopes and the two metadata rows. -/
structure SecretMasterStore (C : KeyCrypto) where
  envelopes : BTreeMap UuidKey (WrappedMasterKeyRecord C)
  currentKeyId : Option UuidKey
  bootstrapPending : Option Bool

variable {C : KeyCrypto}

namespace SecretMasterStore

/-- `SecretMasterStore::new` on a new database. -/
def empty : SecretMasterStore C := ⟨∅, none, none⟩

variable (s : SecretMasterStore C) (keyId : UuidKey)

/-- `load_wrapped_key`. -/
def loadWrappedKey : Option (WrappedMasterKeyRecord C) := s.envelopes[keyId]?

/-- `load_key`. -/
def loadKey : Except IoError (Option MasterKeyRecord) :=
  match s.loadWrappedKey keyId with
  | none => .ok none
  | some wrapped =>
    match C.unwrap wrapped.descriptor wrapped.ciphertext with
    | .error e => .error e
    | .ok key => (MasterKeyRecord.new wrapped.descriptor key).map some

/-- `load_current`. -/
def loadCurrent : Except IoError (Option MasterKeyRecord) :=
  match s.currentKeyId with
  | none => .ok none
  | some keyId =>
    match s.loadKey keyId with
    | .error e => .error e
    | .ok none => .error .envelopeMissing
    | .ok (some record) => .ok (some record)

/-- `bootstrap_replacement_pending`. -/
def bootstrapReplacementPending : Bool := s.bootstrapPending.getD false

/-- The parents a stored descriptor names. -/
def storedParents : List UuidKey :=
  match s.loadWrappedKey keyId with
  | none => []
  | some parent => parent.descriptor.parentKeyIds

/-- `descriptor_descends_from`; `none` while the loop has not ended. -/
def descriptorDescendsFrom (fuel : ℕ) (candidate : MasterKeyDescriptor) (ancestorKeyId : UuidKey) :
    Option Bool :=
  GraphSearch.loop s.storedParents ancestorKeyId fuel candidate.parentKeyIds.reverse ∅

/-- `ensure_replicated_current_allowed`. -/
def ensureReplicatedCurrentAllowed (fuel : ℕ) (record : MasterKeyRecord) :
    Option (Except IoError Unit) :=
  match s.currentKeyId with
  | none => some (.ok ())
  | some currentKeyId =>
    if currentKeyId = record.keyId then some (.ok ())
    else if s.bootstrapReplacementPending then some (.ok ())
    else
      match s.loadWrappedKey currentKeyId with
      | none => some (.error .envelopeMissing)
      | some current =>
        (s.descriptorDescendsFrom fuel record.descriptor current.descriptor.keyId).map fun found =>
          if found then .ok ()
          else if record.descriptor.createdByOperationId ≠ ⊥ then .ok ()
          else .error .conflictingCurrent

/-- `update_metadata`. -/
def updateMetadata (makeCurrent : Bool) (bootstrapPending : Option Bool) : SecretMasterStore C :=
  { s with
    currentKeyId := if makeCurrent then some keyId else s.currentKeyId
    bootstrapPending := bootstrapPending.or s.bootstrapPending }

variable (entropy : ℕ) (descriptor : MasterKeyDescriptor) (key : MasterKeyPlaintext)

/-- The row `persist_record` adds. -/
def insertEnvelope : SecretMasterStore C :=
  { s with envelopes :=
      s.envelopes.insert descriptor.keyId ⟨descriptor, C.wrap entropy descriptor key⟩ }

/-- `persist_record`. -/
def persistRecord (makeCurrent : Bool) (bootstrapPending : Option Bool) :
    Except IoError (SecretMasterStore C) :=
  if descriptor.generation = 0 then .error .generationZero
  else
    match s.loadKey descriptor.keyId with
    | .error e => .error e
    | .ok (some existing) =>
      if existing.descriptor = descriptor ∧ existing.key = key then
        .ok (s.updateMetadata descriptor.keyId makeCurrent bootstrapPending)
      else .error .conflictingEnvelope
    | .ok none =>
      .ok ((s.insertEnvelope entropy descriptor key).updateMetadata descriptor.keyId makeCurrent
        bootstrapPending)

variable (record : MasterKeyRecord)

/-- `activate_current_locked`. -/
def activateCurrentLocked : Except IoError (SecretMasterStore C) :=
  match s.loadWrappedKey record.keyId with
  | some existing =>
    if existing.descriptor ≠ record.descriptor then .error .conflictingEnvelope
    else .ok (s.updateMetadata record.keyId true (some false))
  | none => s.persistRecord entropy record.descriptor record.key true (some false)

/-! ## Calls -/

/-- What a call returns, and the store it leaves. Only some calls return a key. -/
abbrev Outcome (C : KeyCrypto) := Except IoError (Option MasterKeyRecord) × SecretMasterStore C

/-- A call that returns no key writes on success only. -/
def conclude : Except IoError (SecretMasterStore C) → Outcome C
  | .error e => (.error e, s)
  | .ok t => (.ok none, t)

/-- A call that persists a key it has made, and returns it. -/
def persistMade (makeCurrent : Bool) (bootstrapPending : Option Bool) : Outcome C :=
  match s.persistRecord entropy descriptor key makeCurrent bootstrapPending with
  | .error e => (.error e, s)
  | .ok t => ((MasterKeyRecord.new descriptor key).map some, t)

/-- `ensure_current_for_node`. -/
def ensureCurrentForNode (draw : Draw) (scopeView : ClusterViewId) (createdByNodeId : UuidKey) :
    Outcome C :=
  match s.loadCurrent with
  | .error e => (.error e, s)
  | .ok (some existing) => (.ok (some existing), s)
  | .ok none => s.persistMade draw.entropy (initialDescriptor draw scopeView createdByNodeId)
      draw.key true (some true)

/-- `import_key`. -/
def importKey : Outcome C :=
  s.conclude (s.persistRecord entropy record.descriptor record.key false none)

/-- `activate_current`; `none` while the search for the current key has not ended. -/
def activateCurrent (fuel entropy : ℕ) (record : MasterKeyRecord) : Option (Outcome C) :=
  (s.ensureReplicatedCurrentAllowed fuel record).map fun
    | .error e => (.error e, s)
    | .ok () => s.conclude (s.activateCurrentLocked entropy record)

/-- `activate_transition_current`. -/
def activateTransitionCurrent (targetView : ClusterViewId) : Outcome C :=
  if record.descriptor.scopeView ≠ targetView then (.error .scopeMismatch, s)
  else s.conclude (s.activateCurrentLocked entropy record)

/-- `commit_current_for_replication`. -/
def commitCurrentForReplication (expectedKeyId : UuidKey) : Outcome C :=
  match s.currentKeyId with
  | none => (.error .keyMissing, s)
  | some currentKeyId =>
    if currentKeyId ≠ expectedKeyId then (.error .keyChanged, s)
    else (.ok none, { s with bootstrapPending := some false })

/-- `rotate`. -/
def rotate (draw : Draw) (scopeView : ClusterViewId) (createdByNodeId : UuidKey) : Outcome C :=
  match s.loadCurrent with
  | .error e => (.error e, s)
  | .ok none => s.persistMade draw.entropy (initialDescriptor draw scopeView createdByNodeId)
      draw.key true (some true)
  | .ok (some parent) =>
    match childDescriptor parent.descriptor draw scopeView createdByNodeId ⊥ with
    | .error e => (.error e, s)
    | .ok descriptor => s.persistMade draw.entropy descriptor draw.key true (some false)

/-- `prepare_rotation`. -/
def prepareRotation (draw : Draw) (scopeView : ClusterViewId) (createdByNodeId : UuidKey)
    (operationId : WithBot UuidKey) : Outcome C :=
  match s.loadCurrent with
  | .error e => (.error e, s)
  | .ok none => (.error .keyMissing, s)
  | .ok (some parent) =>
    match childDescriptor parent.descriptor draw scopeView createdByNodeId operationId with
    | .error e => (.error e, s)
    | .ok descriptor => s.persistMade draw.entropy descriptor draw.key false none

/-- `prepare_transition_child`. -/
def prepareTransitionChild (scopeView : ClusterViewId)
    (createdByNodeId operationId : UuidKey) : Outcome C :=
  match s.loadCurrent with
  | .error e => (.error e, s)
  | .ok none => (.error .keyMissing, s)
  | .ok (some parent) =>
    match splitChildDescriptor C parent.descriptor scopeView createdByNodeId operationId with
    | .error e => (.error e, s)
    | .ok descriptor =>
      match s.loadKey descriptor.keyId with
      | .error e => (.error e, s)
      | .ok (some existing) =>
        if existing.descriptor ≠ descriptor then (.error .conflictingTransitionEnvelope, s)
        else (.ok (some existing), s)
      | .ok none => s.persistMade entropy descriptor
          (C.deriveSplitChild parent.key parent.descriptor scopeView createdByNodeId operationId)
          false none

end SecretMasterStore

/-- The calls on a store. -/
inductive Call
  | ensureCurrentForNode (draw : Draw) (scopeView : ClusterViewId) (createdByNodeId : UuidKey)
  | importKey (entropy : ℕ) (record : MasterKeyRecord)
  | activateCurrent (entropy : ℕ) (record : MasterKeyRecord)
  | activateTransitionCurrent (entropy : ℕ) (record : MasterKeyRecord) (targetView : ClusterViewId)
  | commitCurrentForReplication (expectedKeyId : UuidKey)
  | rotate (draw : Draw) (scopeView : ClusterViewId) (createdByNodeId : UuidKey)
  | prepareRotation (draw : Draw) (scopeView : ClusterViewId) (createdByNodeId : UuidKey)
      (operationId : WithBot UuidKey)
  | prepareTransitionChild (entropy : ℕ) (scopeView : ClusterViewId)
      (createdByNodeId operationId : UuidKey)

/-- The calls after which the current key is no longer a bootstrap key. -/
def Call.commits : Call → Bool
  | .activateCurrent .. | .activateTransitionCurrent .. | .commitCurrentForReplication _ => true
  | _ => false

open SecretMasterStore

/-- A call; `none` if it has not returned with this much fuel. -/
def exec (fuel : ℕ) (s : SecretMasterStore C) : Call → Option (Outcome C)
  | .ensureCurrentForNode draw scopeView node => some (s.ensureCurrentForNode draw scopeView node)
  | .importKey entropy record => some (s.importKey entropy record)
  | .activateCurrent entropy record => s.activateCurrent fuel entropy record
  | .activateTransitionCurrent entropy record targetView =>
    some (s.activateTransitionCurrent entropy record targetView)
  | .commitCurrentForReplication expectedKeyId => some (s.commitCurrentForReplication expectedKeyId)
  | .rotate draw scopeView node => some (s.rotate draw scopeView node)
  | .prepareRotation draw scopeView node operationId =>
    some (s.prepareRotation draw scopeView node operationId)
  | .prepareTransitionChild entropy scopeView node operationId =>
    some (s.prepareTransitionChild entropy scopeView node operationId)

/-- The record a call is given. -/
def Call.given : Call → Option MasterKeyRecord
  | .importKey _ record | .activateCurrent _ record | .activateTransitionCurrent _ record _ =>
    some record
  | _ => none

/-- A step of a run: one call, and the fuel it is given. -/
def step (s : SecretMasterStore C) (act : ℕ × Call) : Option (SecretMasterStore C) :=
  (exec act.1 s act.2).map Prod.snd

/-! ## What a call writes -/

namespace SecretMasterStore

/-- What a call may do to the store. -/
inductive Change (s : SecretMasterStore C) : SecretMasterStore C → Prop
  | refl : Change s s
  | metadata {keyId : UuidKey} {makeCurrent : Bool} {pending : Option Bool}
      (hstored : (s.loadWrappedKey keyId).isSome = true)
      (hpending : pending = some true → s.currentKeyId = none) :
      Change s (s.updateMetadata keyId makeCurrent pending)
  | insert {entropy : ℕ} {descriptor : MasterKeyDescriptor} {key : MasterKeyPlaintext}
      {makeCurrent : Bool} {pending : Option Bool}
      (hnew : s.loadWrappedKey descriptor.keyId = none) (hgeneration : descriptor.generation ≠ 0)
      (hpending : pending = some true → s.currentKeyId = none) :
      Change s ((s.insertEnvelope entropy descriptor key).updateMetadata
        descriptor.keyId makeCurrent pending)

/-- What holds of a store that only the calls have written. -/
structure Intact (s : SecretMasterStore C) : Prop where
  keyed : ∀ {keyId wrapped}, s.loadWrappedKey keyId = some wrapped →
    wrapped.descriptor.keyId = keyId
  positive : ∀ {keyId wrapped}, s.loadWrappedKey keyId = some wrapped →
    wrapped.descriptor.generation ≠ 0
  sealed : ∀ {keyId wrapped}, s.loadWrappedKey keyId = some wrapped →
    ∃ entropy key, wrapped.ciphertext = C.wrap entropy wrapped.descriptor key
  current : ∀ {keyId}, s.currentKeyId = some keyId → (s.loadWrappedKey keyId).isSome = true

/-- The current key is no longer a bootstrap key. -/
structure Committed (s : SecretMasterStore C) : Prop where
  decided : s.bootstrapPending ≠ some true
  current : s.currentKeyId.isSome = true

variable {s t : SecretMasterStore C} {keyId : UuidKey} {descriptor : MasterKeyDescriptor}
  {key : MasterKeyPlaintext} {entropy : ℕ} {makeCurrent : Bool} {pending : Option Bool}
  {record : MasterKeyRecord} {wrapped : WrappedMasterKeyRecord C} {out : Outcome C}

@[simp] lemma loadWrappedKey_updateMetadata :
    (s.updateMetadata keyId makeCurrent pending).loadWrappedKey = s.loadWrappedKey := rfl

lemma loadWrappedKey_insertEnvelope :
    (s.insertEnvelope entropy descriptor key).loadWrappedKey keyId =
    if descriptor.keyId = keyId then some ⟨descriptor, C.wrap entropy descriptor key⟩
    else s.loadWrappedKey keyId := by
  unfold loadWrappedKey insertEnvelope
  rw [BTreeMap.getElem?_insert_eq]
  congr

lemma loadKey_of_none (h : s.loadWrappedKey keyId = none) : s.loadKey keyId = .ok none := by
  unfold loadKey
  rw [h]

lemma loadKey_of_wrap (hload : s.loadWrappedKey keyId = some wrapped)
    (hsealed : wrapped.ciphertext = C.wrap entropy wrapped.descriptor key)
    (hgeneration : wrapped.descriptor.generation ≠ 0) :
    s.loadKey keyId = .ok (some ⟨wrapped.descriptor, key⟩) := by
  unfold loadKey
  simp only [hload, hsealed, C.unwrap_wrap, MasterKeyRecord.new, if_neg hgeneration]
  rfl

/-- A key that loads has an envelope. -/
lemma isSome_of_loadKey (h : s.loadKey keyId = .ok (some record)) :
    (s.loadWrappedKey keyId).isSome = true := by
  rw [Option.isSome_iff_ne_none]
  intro hnone
  rw [loadKey_of_none hnone] at h
  cases h

/-- **Every envelope can be opened.** -/
lemma Intact.exists_loadKey (hs : Intact s) (hload : s.loadWrappedKey keyId = some wrapped) :
    ∃ key, s.loadKey keyId = .ok (some ⟨wrapped.descriptor, key⟩) := by
  obtain ⟨entropy, key, hsealed⟩ := hs.sealed hload
  exact ⟨key, loadKey_of_wrap hload hsealed (hs.positive hload)⟩

lemma Intact.loadKey_of_isSome (hs : Intact s) (hstored : (s.loadWrappedKey keyId).isSome = true) :
    ∃ record, s.loadKey keyId = .ok (some record) ∧ record.keyId = keyId := by
  obtain ⟨wrapped, hload⟩ := Option.isSome_iff_exists.mp hstored
  obtain ⟨key, hkey⟩ := hs.exists_loadKey hload
  exact ⟨_, hkey, hs.keyed hload⟩

lemma Intact.keyId_of_loadKey (hs : Intact s) (h : s.loadKey keyId = .ok (some record)) :
    record.keyId = keyId := by
  obtain ⟨record', hload, hkeyId⟩ := hs.loadKey_of_isSome (isSome_of_loadKey h)
  obtain rfl : record' = record := by simpa [h] using hload.symm
  exact hkeyId

/-- The table only gains keys. -/
lemma Change.loadWrappedKey_eq (h : Change s t) (hload : s.loadWrappedKey keyId = some wrapped) :
    t.loadWrappedKey keyId = some wrapped := by
  cases h with
  | refl => exact hload
  | metadata => exact hload
  | insert hnew =>
    rw [loadWrappedKey_updateMetadata, loadWrappedKey_insertEnvelope, if_neg ?_]
    · exact hload
    · rintro rfl
      rw [hnew] at hload
      cases hload

lemma Change.loadKey_eq (h : Change s t) (hload : s.loadKey keyId = .ok (some record)) :
    t.loadKey keyId = .ok (some record) := by
  obtain ⟨wrapped, hwrapped⟩ := Option.isSome_iff_exists.mp (isSome_of_loadKey hload)
  rw [← hload, loadKey, loadKey, h.loadWrappedKey_eq hwrapped, hwrapped]

lemma Intact.updateMetadata (hs : Intact s) (hstored : (s.loadWrappedKey keyId).isSome = true) :
    Intact (s.updateMetadata keyId makeCurrent pending) where
  keyed := hs.keyed
  positive := hs.positive
  sealed := hs.sealed
  current := by
    intro keyId' hcurrent
    cases makeCurrent with
    | false => exact hs.current hcurrent
    | true =>
      cases hcurrent
      exact hstored

/-- What an envelope added to the table may be. -/
lemma loadWrappedKey_insertEnvelope_eq
    (h : (s.insertEnvelope entropy descriptor key).loadWrappedKey keyId = some wrapped) :
    s.loadWrappedKey keyId = some wrapped ∨
      descriptor.keyId = keyId ∧ wrapped = ⟨descriptor, C.wrap entropy descriptor key⟩ := by
  rw [loadWrappedKey_insertEnvelope] at h
  split_ifs at h with heq
  · exact .inr ⟨heq, (Option.some.inj h).symm⟩
  · exact .inl h

lemma Intact.insertEnvelope (hs : Intact s) (hgeneration : descriptor.generation ≠ 0) :
    Intact (s.insertEnvelope entropy descriptor key) where
  keyed := by
    intro keyId wrapped h
    rcases loadWrappedKey_insertEnvelope_eq h with h | ⟨rfl, rfl⟩
    · exact hs.keyed h
    · rfl
  positive := by
    intro keyId wrapped h
    rcases loadWrappedKey_insertEnvelope_eq h with h | ⟨-, rfl⟩
    · exact hs.positive h
    · exact hgeneration
  sealed := by
    intro keyId wrapped h
    rcases loadWrappedKey_insertEnvelope_eq h with h | ⟨-, rfl⟩
    · exact hs.sealed h
    · exact ⟨entropy, key, rfl⟩
  current := by
    intro keyId hcurrent
    rw [loadWrappedKey_insertEnvelope]
    split_ifs with heq
    · rfl
    · exact hs.current hcurrent

lemma Change.intact (h : Change s t) (hs : Intact s) : Intact t := by
  cases h with
  | refl => exact hs
  | metadata hstored => exact hs.updateMetadata hstored
  | insert hnew hgeneration =>
    refine (hs.insertEnvelope hgeneration).updateMetadata ?_
    rw [loadWrappedKey_insertEnvelope, if_pos rfl]
    rfl

lemma Committed.updateMetadata (hs : Committed s) (hpending : pending ≠ some true) :
    Committed (s.updateMetadata keyId makeCurrent pending) where
  decided := by
    cases pending with
    | none => exact hs.decided
    | some flag => exact hpending
  current := by
    cases makeCurrent with
    | false => exact hs.current
    | true => rfl

/-- A decided store stays so: the flag is raised only where there is no current key. -/
lemma Change.committed (h : Change s t) (hs : Committed s) : Committed t := by
  have hflag : ∀ {pending : Option Bool}, (pending = some true → s.currentKeyId = none) →
      pending ≠ some true := by
    intro pending hpending heq
    have hcurrent := hs.current
    rw [hpending heq] at hcurrent
    cases hcurrent
  cases h with
  | refl => exact hs
  | metadata _ hpending => exact hs.updateMetadata (hflag hpending)
  | insert _ _ hpending =>
    exact Committed.updateMetadata ⟨hs.decided, hs.current⟩ (hflag hpending)

/-! ## What the calls do -/

/-- **Persisting a key**, stored already or not. -/
lemma persistRecord_spec (hs : Intact s) (hpending : pending = some true → s.currentKeyId = none)
    (h : s.persistRecord entropy descriptor key makeCurrent pending = .ok t) :
    Change s t ∧ t.loadKey descriptor.keyId = .ok (some ⟨descriptor, key⟩) := by
  unfold persistRecord at h
  split_ifs at h with hgeneration
  split at h
  · cases h
  · rename_i existing hload
    split_ifs at h with hsame
    obtain ⟨rfl, rfl⟩ := hsame
    cases h
    exact ⟨.metadata (isSome_of_loadKey hload) hpending, hload⟩
  · rename_i hload
    cases h
    have hnew : s.loadWrappedKey descriptor.keyId = none := by
      rw [← Option.not_isSome_iff_eq_none]
      intro hstored
      obtain ⟨record, hrecord, -⟩ := hs.loadKey_of_isSome hstored
      rw [hrecord] at hload
      cases hload
    refine ⟨.insert hnew hgeneration hpending, ?_⟩
    have hinsert : (s.insertEnvelope entropy descriptor key).loadWrappedKey descriptor.keyId =
        some ⟨descriptor, C.wrap entropy descriptor key⟩ := by
      rw [loadWrappedKey_insertEnvelope, if_pos rfl]
    exact loadKey_of_wrap hinsert rfl hgeneration

lemma metadata_persistRecord {flag : Bool}
    (h : s.persistRecord entropy descriptor key true (some flag) = .ok t) :
    t.currentKeyId = some descriptor.keyId ∧ t.bootstrapPending = some flag := by
  unfold persistRecord at h
  split_ifs at h
  split at h
  · cases h
  · split_ifs at h
    cases h
    exact ⟨rfl, rfl⟩
  · cases h
    exact ⟨rfl, rfl⟩

/-- The record may become current: it is stored with this descriptor, or can be. -/
def Storable (s : SecretMasterStore C) (record : MasterKeyRecord) : Prop :=
  match s.loadWrappedKey record.keyId with
  | some existing => existing.descriptor = record.descriptor
  | none => record.descriptor.generation ≠ 0

lemma activateCurrentLocked_of_storable (entropy : ℕ) (h : s.Storable record) :
    ∃ t, s.activateCurrentLocked entropy record = .ok t := by
  unfold Storable at h
  unfold activateCurrentLocked
  cases hload : s.loadWrappedKey record.keyId with
  | some existing =>
    simp only [hload] at h
    exact ⟨_, if_neg (not_not.mpr h)⟩
  | none =>
    simp only [hload] at h
    have hkey : s.loadKey record.descriptor.keyId = .ok none := loadKey_of_none hload
    simp only [persistRecord, if_neg h, hkey]
    exact ⟨_, rfl⟩

/-- **Moving the pointer.** -/
lemma activateCurrentLocked_spec (hs : Intact s)
    (h : s.activateCurrentLocked entropy record = .ok t) :
    Change s t ∧ t.currentKeyId = some record.keyId ∧ t.bootstrapPending = some false ∧
      s.Storable record := by
  unfold activateCurrentLocked at h
  unfold Storable
  split at h
  · rename_i existing hload
    split_ifs at h with hsame
    cases h
    refine ⟨.metadata ?_ nofun, rfl, rfl, ?_⟩
    · rw [hload]
      rfl
    · simpa only [hload, ne_eq, not_not] using hsame
  · obtain ⟨hcurrent, hflag⟩ := metadata_persistRecord h
    refine ⟨(persistRecord_spec hs (by simp) h).1, hcurrent, hflag, ?_⟩
    intro hzero
    simp only [persistRecord, if_pos hzero] at h
    cases h

/-- What a call leaves: an allowed change, and with it the key it returns. -/
structure Kept (s : SecretMasterStore C) (out : Outcome C) : Prop where
  change : Change s out.2
  returned : ∀ record, out.1 = .ok (some record) → out.2.loadKey record.keyId = .ok (some record)

lemma kept_error (s : SecretMasterStore C) (e : IoError) : Kept s (.error e, s) := ⟨.refl, nofun⟩

lemma kept_existing (hload : s.loadKey record.keyId = .ok (some record)) :
    Kept s (.ok (some record), s) := by
  refine ⟨.refl, fun record' h => ?_⟩
  obtain rfl := Option.some.inj (Except.ok.inj h)
  exact hload

lemma kept_conclude {result : Except IoError (SecretMasterStore C)}
    (h : ∀ t, result = .ok t → Change s t) : Kept s (s.conclude result) := by
  cases result with
  | error e => exact kept_error s e
  | ok t => exact ⟨h t rfl, nofun⟩

variable (hs : Intact s)

include hs

lemma kept_persistMade (hpending : pending = some true → s.currentKeyId = none) :
    Kept s (s.persistMade entropy descriptor key makeCurrent pending) := by
  unfold persistMade
  cases hpersist : s.persistRecord entropy descriptor key makeCurrent pending with
  | error e => exact kept_error s e
  | ok t =>
    obtain ⟨hchange, hload⟩ := persistRecord_spec hs hpending hpersist
    refine ⟨hchange, fun record hrecord => ?_⟩
    simp only [MasterKeyRecord.new] at hrecord
    split_ifs at hrecord
    · cases hrecord
    · obtain rfl := Option.some.inj (Except.ok.inj hrecord)
      exact hload

omit hs in
lemma loadCurrent_eq_none (h : s.loadCurrent = .ok none) : s.currentKeyId = none := by
  unfold loadCurrent at h
  split at h
  · assumption
  · split at h <;> cases h

lemma Intact.loadKey_of_loadCurrent (h : s.loadCurrent = .ok (some record)) :
    s.loadKey record.keyId = .ok (some record) := by
  unfold loadCurrent at h
  split at h
  · cases h
  · split at h
    · cases h
    · cases h
    · rename_i keyId _ _ found hload
      obtain rfl := Option.some.inj (Except.ok.inj h)
      rwa [hs.keyId_of_loadKey hload]

variable {fuel : ℕ} {call : Call}

lemma kept_ensureCurrentForNode (draw : Draw) (scopeView : ClusterViewId)
    (node : UuidKey) : Kept s (s.ensureCurrentForNode draw scopeView node) := by
  unfold ensureCurrentForNode
  split
  · exact kept_error s _
  · rename_i existing hcurrent
    exact kept_existing (hs.loadKey_of_loadCurrent hcurrent)
  · rename_i hcurrent
    exact kept_persistMade hs fun _ => loadCurrent_eq_none hcurrent

lemma kept_rotate (draw : Draw) (scopeView : ClusterViewId) (node : UuidKey) :
    Kept s (s.rotate draw scopeView node) := by
  unfold rotate
  split
  · exact kept_error s _
  · rename_i hcurrent
    exact kept_persistMade hs fun _ => loadCurrent_eq_none hcurrent
  · split
    · exact kept_error s _
    · exact kept_persistMade hs (by simp)

lemma kept_prepareRotation (draw : Draw) (scopeView : ClusterViewId) (node : UuidKey)
    (operationId : WithBot UuidKey) :
    Kept s (s.prepareRotation draw scopeView node operationId) := by
  unfold prepareRotation
  split
  · exact kept_error s _
  · exact kept_error s _
  · split
    · exact kept_error s _
    · exact kept_persistMade hs (by simp)

lemma kept_prepareTransitionChild (entropy : ℕ) (scopeView : ClusterViewId)
    (node operationId : UuidKey) :
    Kept s (s.prepareTransitionChild entropy scopeView node operationId) := by
  unfold prepareTransitionChild
  split
  · exact kept_error s _
  · exact kept_error s _
  · split
    · exact kept_error s _
    · split
      · exact kept_error s _
      · rename_i existing hload
        split_ifs with hsame
        · exact kept_error s _
        · refine kept_existing ?_
          rwa [hs.keyId_of_loadKey hload]
      · exact kept_persistMade hs (by simp)

lemma kept_commitCurrentForReplication (expectedKeyId : UuidKey) :
    Kept s (s.commitCurrentForReplication expectedKeyId) := by
  unfold commitCurrentForReplication
  split
  · exact kept_error s _
  · rename_i currentKeyId hcurrent
    split_ifs
    · exact kept_error s _
    · have hchange : Change s (s.updateMetadata currentKeyId false (some false)) :=
        .metadata (hs.current hcurrent) (by simp)
      exact ⟨hchange, nofun⟩

lemma kept_activateCurrentLocked (entropy : ℕ) (record : MasterKeyRecord) :
    Kept s (s.conclude (s.activateCurrentLocked entropy record)) :=
  kept_conclude fun _ h => (activateCurrentLocked_spec hs h).1

/-- **What any call leaves.** -/
theorem kept_exec (h : exec fuel s call = some out) : Kept s out := by
  cases call with
  | ensureCurrentForNode draw scopeView node =>
    cases h
    exact kept_ensureCurrentForNode hs draw scopeView node
  | importKey entropy record =>
    cases h
    exact kept_conclude fun t ht => (persistRecord_spec hs (by simp) ht).1
  | activateCurrent entropy record =>
    obtain ⟨allowed, -, rfl⟩ := Option.map_eq_some_iff.mp h
    cases allowed with
    | error e => exact kept_error s e
    | ok _ => exact kept_activateCurrentLocked hs entropy record
  | activateTransitionCurrent entropy record targetView =>
    cases h
    unfold activateTransitionCurrent
    split_ifs
    · exact kept_error s _
    · exact kept_activateCurrentLocked hs entropy record
  | commitCurrentForReplication expectedKeyId =>
    cases h
    exact kept_commitCurrentForReplication hs expectedKeyId
  | rotate draw scopeView node =>
    cases h
    exact kept_rotate hs draw scopeView node
  | prepareRotation draw scopeView node operationId =>
    cases h
    exact kept_prepareRotation hs draw scopeView node operationId
  | prepareTransitionChild entropy scopeView node operationId =>
    cases h
    exact kept_prepareTransitionChild hs entropy scopeView node operationId

variable {reply : Option MasterKeyRecord}

omit hs in
lemma activateTransitionCurrent_eq {targetView : ClusterViewId}
    (hok : (s.activateTransitionCurrent entropy record targetView).1 = .ok reply) :
    s.activateTransitionCurrent entropy record targetView =
      s.conclude (s.activateCurrentLocked entropy record) := by
  by_cases hscope : record.descriptor.scopeView ≠ targetView
  · simp only [activateTransitionCurrent, if_pos hscope] at hok
    cases hok
  · exact if_neg hscope

lemma stored_of_persistRecord (hpending : pending = some true → s.currentKeyId = none)
    (hok : (s.conclude (s.persistRecord entropy record.descriptor record.key
      makeCurrent pending)).1 =
      .ok reply) : (s.conclude (s.persistRecord entropy record.descriptor record.key makeCurrent
      pending)).2.loadKey record.keyId = .ok (some record) := by
  cases hpersist : s.persistRecord entropy record.descriptor record.key makeCurrent pending with
  | error e =>
    rw [hpersist] at hok
    cases hok
  | ok t => exact (persistRecord_spec hs hpending hpersist).2

lemma stored_of_activateCurrentLocked (hnew : s.loadWrappedKey record.keyId = none)
    (hok : (s.conclude (s.activateCurrentLocked entropy record)).1 = .ok reply) :
    (s.conclude (s.activateCurrentLocked entropy record)).2.loadKey record.keyId =
      .ok (some record) := by
  have hpersist : s.activateCurrentLocked entropy record =
      s.persistRecord entropy record.descriptor record.key true (some false) := by
    simp only [activateCurrentLocked, hnew]
  rw [hpersist] at hok ⊢
  exact stored_of_persistRecord hs (by simp) hok

/-- A record that a call was given and that was not stored is stored if the call succeeds. -/
lemma stored_of_given (hgiven : call.given = some record)
    (hnew : s.loadWrappedKey record.keyId = none) (h : exec fuel s call = some out)
    (hok : out.1 = .ok reply) : out.2.loadKey record.keyId = .ok (some record) := by
  cases call with
  | importKey entropy record' =>
    cases hgiven
    cases h
    exact stored_of_persistRecord hs (by simp) hok
  | activateCurrent entropy record' =>
    cases hgiven
    obtain ⟨allowed, -, rfl⟩ := Option.map_eq_some_iff.mp h
    cases allowed with
    | error e => cases hok
    | ok _ => exact stored_of_activateCurrentLocked hs hnew hok
  | activateTransitionCurrent entropy record' targetView =>
    cases hgiven
    cases h
    have heq := activateTransitionCurrent_eq hok
    rw [heq] at hok ⊢
    exact stored_of_activateCurrentLocked hs hnew hok
  | _ => cases hgiven

lemma committed_of_activateCurrentLocked
    (hok : (s.conclude (s.activateCurrentLocked entropy record)).1 = .ok reply) :
    Committed (s.conclude (s.activateCurrentLocked entropy record)).2 := by
  cases hlocked : s.activateCurrentLocked entropy record with
  | error e =>
    rw [hlocked] at hok
    cases hok
  | ok t =>
    obtain ⟨-, hcurrent, hflag, -⟩ := activateCurrentLocked_spec hs hlocked
    refine ⟨?_, ?_⟩
    · change t.bootstrapPending ≠ some true
      simp [hflag]
    · change t.currentKeyId.isSome = true
      simp [hcurrent]

/-- A commit or an activation that succeeds leaves a committed store. -/
lemma committed_of_commits (hcommits : call.commits = true)
    (h : exec fuel s call = some out) (hok : out.1 = .ok reply) : Committed out.2 := by
  cases call with
  | activateCurrent entropy record =>
    obtain ⟨allowed, -, rfl⟩ := Option.map_eq_some_iff.mp h
    cases allowed with
    | error e => cases hok
    | ok _ => exact committed_of_activateCurrentLocked hs hok
  | activateTransitionCurrent entropy record targetView =>
    cases h
    have heq := activateTransitionCurrent_eq hok
    rw [heq] at hok ⊢
    exact committed_of_activateCurrentLocked hs hok
  | commitCurrentForReplication expectedKeyId =>
    cases h
    cases hcurrent : s.currentKeyId with
    | none =>
      simp only [commitCurrentForReplication, hcurrent] at hok
      cases hok
    | some currentKeyId =>
      by_cases hsame : currentKeyId ≠ expectedKeyId
      · simp only [commitCurrentForReplication, hcurrent, if_pos hsame] at hok
        cases hok
      · simp only [commitCurrentForReplication, hcurrent, if_neg hsame]
        exact ⟨by simp, by simp⟩
  | _ => cases hcommits

end SecretMasterStore

end Mantissa.Secrets
