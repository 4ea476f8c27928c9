import Mantissa.Secrets.KeyLineage
import Mantissa.Secrets.SecretKeyring

/-!
# Rotating the master key under other requests

The secrets service of one node runs its requests as tasks that yield at every `await`. A rotation
makes a new master key under the write lock of the keyring, lists all secrets once, and then
encrypts them again and writes them back one by one. The lock is free by then, and other requests
write in between.

A written-back secret has the plaintext and the metadata of the listing. A change that reached the
store after the listing is lost with it: an update is undone, a deleted secret comes back
(`rotation_takes_back_changes`). As long as no request changes a secret that a rotation has listed
and not written back, every secret shows its last change (`changes_survive_rotation`). Whatever the
interleaving, every stored secret can be decrypted.

All steps of the service do one of four things (`Move`), and both results are invariants of those.
-/

namespace Mantissa.Secrets

open SecretMasterStore SecretKeyring List

/-! ## Secrets -/

/-- `SecretMetadata`. -/
structure SecretMetadata where
  description : Option String
  labels : BTreeMap String String

/-- `SecretVersion`. -/
structure SecretVersion where
  versionId : UuidKey
  ciphertext : SecretCiphertext
  createdAt : String
  createdBy : Option UuidKey
  masterKeyId : UuidKey
  masterKeyGeneration : ℕ

/-- `SecretValue`. -/
structure SecretValue where
  id : UuidKey
  name : String
  metadata : SecretMetadata
  createdAt : String
  updatedAt : String
  currentVersion : SecretVersion

variable {C : KeyCrypto} (K : SecretCrypto)

/-- `SecretValue::new`. -/
def SecretValue.new (name : String) (metadata : SecretMetadata) (createdAt : String)
    (version : SecretVersion) : SecretValue :=
  ⟨K.computeSecretId name, name, metadata, createdAt, createdAt, version⟩

variable (value : SecretValue)

/-- `touch`. -/
def SecretValue.touch (timestamp : String) : SecretValue :=
  { value with updatedAt := timestamp }

/-- `set_version`. -/
def SecretValue.setVersion (version : SecretVersion) (timestamp : String) : SecretValue :=
  { value with currentVersion := version }.touch timestamp

/-- The secret a rotation writes back. -/
def SecretValue.rewrap (ciphertext : SecretCiphertext) (now : String) : SecretValue :=
  { value with
    currentVersion :=
      { value.currentVersion with
        masterKeyId := ciphertext.masterKeyId
        masterKeyGeneration := ciphertext.masterKeyGeneration
        ciphertext := ciphertext } }.touch now

/-- Decrypting the current version of a secret. -/
def SecretValue.decrypt (ring : SecretKeyring C) : Except IoError (Bytes × SecretKeyring C) :=
  ring.decrypt K value.id value.currentVersion.versionId value.currentVersion.ciphertext

/-! ## Tasks -/

/-- What a create or an update asks for. -/
structure SecretRequest where
  name : String
  plaintext : Bytes
  metadata : SecretMetadata

/-- What a task draws when it encrypts a new version. -/
structure VersionDraw where
  versionId : UuidKey
  nonce : Nonce
  now : String

/-- Where a task waits, and what it has in hand. -/
inductive Task
  /-- `create` before the read lock. -/
  | creating (request : SecretRequest)
  /-- `update` before the read lock, with the secret it found. -/
  | updating (request : SecretRequest) (existing : SecretValue)
  /-- `create` or `update` before its write. -/
  | upserting (plaintext : Bytes) (value : SecretValue)
  /-- `delete` before the removal of a secret. -/
  | removing (id : UuidKey) (rest : List String)
  /-- A write has been made and is announced; a `delete` goes on with the remaining names. -/
  | broadcasting (rest : List String)
  /-- `rotate_master_key` before the write lock. -/
  | awaitingLock (scopeView : ClusterViewId)
  /-- `rotate_master_key` holds the lock and publishes the new key. -/
  | publishing (record : MasterKeyRecord)
  /-- A rotation before the write of a secret it has encrypted again. -/
  | rewrapping (value : SecretValue) (rest : List SecretValue)
  /-- A rotation after such a write. -/
  | rewrapped (rest : List SecretValue)
  | returned (result : Except String Unit)

/-- The secrets a rotation has listed and not written back. -/
def Task.listed : Task → List SecretValue
  | .rewrapping value rest => value :: rest
  | .rewrapped rest => rest
  | _ => []

/-- A change of a secret that has reached the store. -/
inductive Applied
  | written (plaintext : Bytes) (metadata : SecretMetadata)
  | deleted

/-- The service of a node. -/
structure Service (C : KeyCrypto) where
  registry : BTreeMap UuidKey SecretValue
  keyring : SecretKeyring C
  /-- A rotation holds the keyring's write lock. -/
  writeLocked : Bool
  tasks : BTreeMap ℕ Task
  /-- The last change of each secret that a request made in the store, and its task. -/
  latest : UuidKey → Option (ℕ × Applied)

namespace Service

/-- A service without secrets, on a master key store. -/
def new (masterStore : SecretMasterStore C) (active : MasterKeyRecord) : Service C :=
  ⟨∅, SecretKeyring.new masterStore active, false, ∅, fun _ => none⟩

variable (s : Service C) (t : ℕ)

/-- What a task does between two `await`s without writing a secret. -/
def goOn (ring : SecretKeyring C) (locked : Bool) (task : Task) : Service C :=
  { s with keyring := ring, writeLocked := locked, tasks := s.tasks.insert t task }

/-- `list`: the values in the order of their names. -/
def list : List SecretValue :=
  (s.registry.toList.map Prod.snd).insertionSort fun a b => a.name ≤ b.name

/-- `get` of the current version. -/
def get (name : String) : Except String (SecretValue × Bytes) :=
  if name = "" then .error "secret name cannot be empty"
  else
    match s.registry[K.computeSecretId name]? with
    | none => .error ("secret '" ++ name ++ "' not found")
    | some value =>
      match value.decrypt K s.keyring with
      | .error e => .error e.message
      | .ok (plaintext, _) => .ok (value, plaintext)

/-! ### Create, update and delete -/

/-- The checks of `create`. -/
def checkCreate (request : SecretRequest) : Task :=
  if request.name = "" then .returned (.error "secret name cannot be empty")
  else if (s.registry[K.computeSecretId request.name]?).isSome then
    .returned (.error ("secret '" ++ request.name ++ "' already exists"))
  else .creating request

/-- The checks of `update`. -/
def checkUpdate (request : SecretRequest) : Task :=
  if request.name = "" then .returned (.error "secret name cannot be empty")
  else
    match s.registry[K.computeSecretId request.name]? with
    | none => .returned (.error ("secret '" ++ request.name ++ "' not found"))
    | some existing => .updating request existing

/-- The next removal of `delete`, which skips empty names. -/
def deleteNext : List String → Task
  | [] => .returned (.ok ())
  | name :: rest => if name = "" then deleteNext rest else .removing (K.computeSecretId name) rest

/-- The encryption of a new version. -/
def encryptVersion (draw : VersionDraw) (secretId : UuidKey) (plaintext : Bytes) :
    Except IoError (SecretVersion × SecretKeyring C) :=
  match s.keyring.encrypt K draw.nonce secretId draw.versionId plaintext with
  | .error e => .error e
  | .ok (ciphertext, ring) =>
    .ok (⟨draw.versionId, ciphertext, draw.now, none, ciphertext.masterKeyId,
      ciphertext.masterKeyGeneration⟩, ring)

/-- A create or an update gets the read lock, encrypts, and comes to its write. The lock is free
again at that point. -/
def readLock (draw : VersionDraw) : Option (Service C) :=
  if s.writeLocked then none
  else
    match s.tasks[t]? with
    | some (.creating request) =>
      match s.encryptVersion K draw (K.computeSecretId request.name) request.plaintext with
      | .error e => some (s.goOn t s.keyring false (.returned (.error e.message)))
      | .ok (version, ring) => some (s.goOn t ring false (.upserting request.plaintext
          (SecretValue.new K request.name request.metadata draw.now version)))
    | some (.updating request existing) =>
      match s.encryptVersion K draw existing.id request.plaintext with
      | .error e => some (s.goOn t s.keyring false (.returned (.error e.message)))
      | .ok (version, ring) => some (s.goOn t ring false (.upserting request.plaintext
          ({ existing with metadata := request.metadata }.setVersion version draw.now)))
    | _ => none

/-! ### Rotation -/

/-- The loop of `rotate_master_key` up to its next write. -/
def rewrapNext (ring : SecretKeyring C) (locked : Bool) (nonce : Nonce) (now : String) :
    List SecretValue → Service C
  | [] => s.goOn t ring locked (.returned (.ok ()))
  | value :: rest =>
    match value.decrypt K ring with
    | .error e => s.goOn t ring locked (.returned (.error e.message))
    | .ok (plaintext, ring) =>
      match ring.encrypt K nonce value.id value.currentVersion.versionId plaintext with
      | .error e => s.goOn t ring locked (.returned (.error e.message))
      | .ok (ciphertext, ring) =>
        s.goOn t ring locked (.rewrapping (value.rewrap ciphertext now) rest)

/-- A rotation gets the write lock and prepares its key. -/
def writeLock (draw : Draw) (localNodeId : UuidKey) : Option (Service C) :=
  if s.writeLocked then none
  else
    match s.tasks[t]? with
    | some (.awaitingLock scopeView) =>
      match s.keyring.masterStore.prepareRotation draw scopeView localNodeId ⊥ with
      | (.ok (some record), store) =>
        some (s.goOn t { s.keyring with masterStore := store } true (.publishing record))
      | (.ok none, _) => none
      | (.error e, store) => some (s.goOn t { s.keyring with masterStore := store } false
          (.returned (.error ("failed to rotate master key: " ++ e.message))))
    | _ => none

variable (failed : Option String)

/-- The key has been published, or publishing failed. The rotation activates and installs the key,
gives the lock back, lists the secrets and begins its loop. -/
def publish (fuel entropy : ℕ) (nonce : Nonce) (now : String) : Option (Service C) :=
  match s.tasks[t]?, failed with
  | some (.publishing _), some e => some (s.goOn t s.keyring false
      (.returned (.error ("failed to publish replicated master key: " ++ e))))
  | some (.publishing record), none =>
    match s.keyring.masterStore.activateCurrent fuel entropy record with
    | none => none
    | some (.error e, store) => some (s.goOn t { s.keyring with masterStore := store } false
        (.returned (.error ("failed to activate master key: " ++ e.message))))
    | some (.ok _, store) =>
      let ring := { s.keyring with masterStore := store }.installCurrent record
      some (s.rewrapNext K t ring false nonce now s.list)
  | _, _ => none

/-- A rotation goes on after a write. -/
def resume (nonce : Nonce) (now : String) : Option (Service C) :=
  match s.tasks[t]? with
  | some (.rewrapped rest) => some (s.rewrapNext K t s.keyring s.writeLocked nonce now rest)
  | _ => none

/-! ### Writes -/

/-- The write a task waits for reaches the store, or fails. -/
def commit : Option (Service C) :=
  match s.tasks[t]?, failed with
  | some (.upserting plaintext value), none => some
      { s with
        registry := s.registry.insert value.id value
        tasks := s.tasks.insert t (.broadcasting [])
        latest := Function.update s.latest value.id (some (t, .written plaintext value.metadata)) }
  | some (.removing id rest), none => some
      { s with
        registry := s.registry.erase id
        tasks := s.tasks.insert t (.broadcasting rest)
        latest := Function.update s.latest id (some (t, .deleted)) }
  | some (.rewrapping value rest), none => some
      { s with
        registry := s.registry.insert value.id value
        tasks := s.tasks.insert t (.rewrapped rest) }
  | some (.upserting _ _), some e | some (.rewrapping _ _), some e =>
    some (s.goOn t s.keyring s.writeLocked (.returned (.error ("secret upsert failed: " ++ e))))
  | some (.removing _ _), some e =>
    some (s.goOn t s.keyring s.writeLocked (.returned (.error ("secret remove failed: " ++ e))))
  | _, _ => none

/-- The announcement of a write is done, or fails. -/
def broadcast : Option (Service C) :=
  match s.tasks[t]?, failed with
  | some (.broadcasting rest), none =>
    some (s.goOn t s.keyring s.writeLocked (deleteNext K rest))
  | some (.broadcasting _), some e =>
    some (s.goOn t s.keyring s.writeLocked (.returned (.error e)))
  | _, _ => none

end Service

/-- What happens next: a request comes in, or a task goes on. -/
inductive Action
  | create (request : SecretRequest)
  | update (request : SecretRequest)
  | delete (names : List String)
  | rotateMasterKey (scopeView : ClusterViewId)
  | readLock (draw : VersionDraw)
  | writeLock (draw : Draw) (localNodeId : UuidKey)
  | publish (failed : Option String) (fuel entropy : ℕ) (nonce : Nonce) (now : String)
  | resume (nonce : Nonce) (now : String)
  | commit (failed : Option String)
  | broadcast (failed : Option String)

variable (s : Service C)

/-- A new request gets a task of its own. -/
def Service.begin (t : ℕ) (task : Task) : Option (Service C) :=
  if (s.tasks[t]?).isSome then none else some (s.goOn t s.keyring s.writeLocked task)

/-- A step of the service by one of its tasks. -/
def serviceStep (act : ℕ × Action) : Option (Service C) :=
  match act with
  | (t, .create request) => s.begin t (s.checkCreate K request)
  | (t, .update request) => s.begin t (s.checkUpdate K request)
  | (t, .delete names) => s.begin t (Service.deleteNext K names)
  | (t, .rotateMasterKey scopeView) => s.begin t (.awaitingLock scopeView)
  | (t, .readLock draw) => s.readLock K t draw
  | (t, .writeLock draw localNodeId) => s.writeLock t draw localNodeId
  | (t, .publish failed fuel entropy nonce now) => s.publish K t failed fuel entropy nonce now
  | (t, .resume nonce now) => s.resume K t nonce now
  | (t, .commit failed) => s.commit t failed
  | (t, .broadcast failed) => s.broadcast K t failed

/-- The secret a task is about to change. -/
def Task.changes : Task → Option UuidKey
  | .upserting _ value => some value.id
  | .removing id _ => some id
  | _ => none

/-- No rotation has listed the secret without having written it back. -/
def Service.unlisted (id : UuidKey) : Bool :=
  s.tasks.toList.all fun entry => entry.2.listed.all fun value => decide (value.id ≠ id)

/-- The step does not change a secret that a rotation has listed and not written back. -/
def clearOfRotation : ℕ × Action → Prop
  | (t, .commit none) => ∀ id ∈ (s.tasks[t]?).bind Task.changes, s.unlisted id = true
  | _ => True

instance decidableClearOfRotation (s : Service C) : ∀ act, Decidable (clearOfRotation s act)
  | (t, .commit none) => inferInstanceAs
      (Decidable (∀ id ∈ (s.tasks[t]?).bind Task.changes, s.unlisted id = true))
  | (_, .commit (some _)) | (_, .create _) | (_, .update _) | (_, .delete _)
  | (_, .rotateMasterKey _) | (_, .readLock _) | (_, .writeLock _ _) | (_, .publish _ _ _ _ _)
  | (_, .resume _ _) | (_, .broadcast _) => isTrue trivial

/-! ## What a step does -/

/-- The secret's current version holds `plaintext`. -/
def SecretValue.SealedBy (value : SecretValue) (ring : SecretKeyring C) (plaintext : Bytes) :
    Prop :=
  Seals K ring value.id value.currentVersion.versionId value.currentVersion.ciphertext plaintext

/-- What a task has in hand is right: an encrypted secret holds the plaintext asked for, and the key
of a rotation is stored. -/
def Task.Fits (ring : SecretKeyring C) : Task → Prop
  | .upserting plaintext value => value.SealedBy K ring plaintext
  | .publishing record => ring.masterStore.loadKey record.keyId = .ok (some record)
  | _ => True

/-- A secret in hand of a rotation is one of the registry, or one the rotation had before, perhaps
encrypted again. -/
def Carried (t : ℕ) (ring : SecretKeyring C) (value : SecretValue) : Prop :=
  ∃ source, (s.registry[source.id]? = some source ∨
      ∃ task, s.tasks[t]? = some task ∧ source ∈ task.listed) ∧
    value.id = source.id ∧ value.metadata = source.metadata ∧
    ∀ plaintext, source.SealedBy K s.keyring plaintext → value.SealedBy K ring plaintext

/-- What a step does to the service. -/
inductive Move (s : Service C) (act : ℕ × Action) : Service C → Prop
  | goOn {t : ℕ} {ring : SecretKeyring C} {locked : Bool} {task : Task} (hring : ring.Sound)
      (hext : Extends s.keyring ring) (hfits : task.Fits K ring)
      (hlisted : ∀ value ∈ task.listed, Carried K s t ring value) :
      Move s act (s.goOn t ring locked task)
  | upsert {t : ℕ} {plaintext : Bytes} {value : SecretValue}
      (htask : s.tasks[t]? = some (.upserting plaintext value))
      (hclear : clearOfRotation s act → s.unlisted value.id = true) :
      Move s act
        { s with
          registry := s.registry.insert value.id value
          tasks := s.tasks.insert t (.broadcasting [])
          latest := Function.update s.latest value.id
            (some (t, .written plaintext value.metadata)) }
  | remove {t : ℕ} {id : UuidKey} {rest : List String} (htask : s.tasks[t]? =
      some (.removing id rest)) (hclear : clearOfRotation s act → s.unlisted id = true) :
      Move s act
        { s with
          registry := s.registry.erase id
          tasks := s.tasks.insert t (.broadcasting rest)
          latest := Function.update s.latest id (some (t, .deleted)) }
  | rewrite {t : ℕ} {value : SecretValue} {rest : List SecretValue}
      (htask : s.tasks[t]? = some (.rewrapping value rest)) :
      Move s act
        { s with
          registry := s.registry.insert value.id value
          tasks := s.tasks.insert t (.rewrapped rest) }

/-- What holds of every run of the service. -/
structure Service.Sound (s : Service C) : Prop where
  keyring : s.keyring.Sound
  stored : ∀ {id : UuidKey} {value : SecretValue}, s.registry[id]? = some value →
    value.id = id ∧ ∃ plaintext, value.SealedBy K s.keyring plaintext
  fits : ∀ {t : ℕ} {task : Task}, s.tasks[t]? = some task → task.Fits K s.keyring
  listed : ∀ {t : ℕ} {task : Task} {value : SecretValue}, s.tasks[t]? = some task →
    value ∈ task.listed → ∃ plaintext, value.SealedBy K s.keyring plaintext

variable {K} {s u : Service C} {t : ℕ} {ring : SecretKeyring C} {locked : Bool} {task : Task}
  {act : ℕ × Action}

variable (hs : s.Sound K)

include hs

/-- A task that has no secrets in hand and no key. -/
lemma Move.plain (hfits : task.Fits K s.keyring) (hlisted : task.listed = []) :
    Move K s act (s.goOn t s.keyring locked task) := by
  refine .goOn hs.keyring (.refl _) hfits ?_
  rw [hlisted]
  exact nofun

omit hs in
lemma fits_deleteNext (ring : SecretKeyring C) (names : List String) :
    (Service.deleteNext K names).Fits K ring ∧ (Service.deleteNext K names).listed = [] := by
  induction names with
  | nil => exact ⟨trivial, rfl⟩
  | cons name rest ih =>
    rw [Service.deleteNext]
    split_ifs
    · exact ih
    · exact ⟨trivial, rfl⟩

lemma Move.begin (hfits : task.Fits K s.keyring) (hlisted : task.listed = [])
    (h : s.begin t task = some u) : Move K s act u := by
  unfold Service.begin at h
  split_ifs at h
  cases h
  exact .plain hs hfits hlisted

lemma Move.readLock {draw : VersionDraw} (h : s.readLock K t draw = some u) : Move K s act u := by
  have hencrypt : ∀ secretId plaintext, ∃ version ring,
      s.encryptVersion K draw secretId plaintext = .ok (version, ring) ∧ ring.Sound ∧
        Extends s.keyring ring ∧
        Seals K ring secretId version.versionId version.ciphertext plaintext := by
    intro secretId plaintext
    obtain ⟨ciphertext, ring, hcipher, hring, hext, hseals⟩ :=
      encrypt_spec (K := K) hs.keyring draw.nonce secretId draw.versionId plaintext
    simp only [Service.encryptVersion, hcipher]
    exact ⟨_, ring, rfl, hring, hext, hseals⟩
  unfold Service.readLock at h
  split_ifs at h
  split at h
  · rename_i request _
    obtain ⟨version, ring, hversion, hring, hext, hseals⟩ :=
      hencrypt (K.computeSecretId request.name) request.plaintext
    rw [hversion] at h
    cases h
    exact .goOn hring hext hseals nofun
  · rename_i request existing _
    obtain ⟨version, ring, hversion, hring, hext, hseals⟩ := hencrypt existing.id request.plaintext
    rw [hversion] at h
    cases h
    exact .goOn hring hext hseals nofun
  · cases h

variable {source : SecretValue}

/-- A secret of the registry, or one the task had in hand, holds a plaintext. -/
lemma Service.Sound.sealed (hsource : s.registry[source.id]? = some source ∨
      ∃ task, s.tasks[t]? = some task ∧ source ∈ task.listed) :
    ∃ plaintext, source.SealedBy K s.keyring plaintext := by
  rcases hsource with hstored | ⟨task, htask, hmem⟩
  · exact (hs.stored hstored).2
  · exact hs.listed htask hmem

variable {nonce : Nonce} {now : String}

/-- **The loop of a rotation carries its secrets on**: one is encrypted again, the others stay. -/
lemma Move.rewrapNext {values : List SecretValue}
    (hring : ring.Sound) (hext : Extends s.keyring ring)
    (hvalues : ∀ source ∈ values, s.registry[source.id]? = some source ∨
      ∃ task, s.tasks[t]? = some task ∧ source ∈ task.listed) :
    Move K s act (s.rewrapNext K t ring locked nonce now values) := by
  cases values with
  | nil => exact .goOn hring hext trivial nofun
  | cons value rest =>
    have hsource := hvalues value mem_cons_self
    obtain ⟨plaintext, hsealed⟩ := hs.sealed hsource
    obtain ⟨ring₁, hdecrypt, hring₁, hext₁⟩ := decrypt_of_seals hring (hsealed.mono hext)
    obtain ⟨ciphertext, ring₂, hencrypt, hring₂, hext₂, hseals⟩ := encrypt_spec (K := K) hring₁
      nonce value.id value.currentVersion.versionId plaintext
    have hrewrap : s.rewrapNext K t ring locked nonce now (value :: rest) =
        s.goOn t ring₂ locked (.rewrapping (value.rewrap ciphertext now) rest) := by
      simp only [Service.rewrapNext, SecretValue.decrypt, hdecrypt, hencrypt]
    rw [hrewrap]
    have hall : Extends s.keyring ring₂ := (hext.trans hext₁).trans hext₂
    refine .goOn hring₂ hall trivial ?_
    intro carried hcarried
    rcases mem_cons.mp hcarried with rfl | hrest
    · refine ⟨value, hsource, rfl, rfl, fun plaintext' hsealed' => ?_⟩
      obtain rfl := hsealed.unique hs.keyring hsealed'
      exact hseals
    · exact ⟨carried, hvalues carried (mem_cons_of_mem value hrest), rfl, rfl,
        fun _ hseals => hseals.mono hall⟩

lemma Move.writeLock {draw : Draw} {localNodeId : UuidKey}
    (h : s.writeLock t draw localNodeId = some u) : Move K s act u := by
  unfold Service.writeLock at h
  split_ifs at h
  split at h
  · rename_i scopeView _
    have hkept := kept_prepareRotation hs.keyring.intact draw scopeView localNodeId ⊥
    split at h
    · rename_i record store hprepare
      rw [hprepare] at hkept
      cases h
      exact .goOn (hs.keyring.of_change hkept.change) (.of_change hkept.change)
        (hkept.returned record rfl) nofun
    · cases h
    · rename_i e store hprepare
      rw [hprepare] at hkept
      cases h
      exact .goOn (hs.keyring.of_change hkept.change) (.of_change hkept.change) trivial nofun
  · cases h

/-- What is listed is in the registry. -/
lemma mem_list {value : SecretValue} (h : value ∈ s.list) : s.registry[value.id]? = some value := by
  unfold Service.list at h
  rw [mem_insertionSort] at h
  obtain ⟨⟨id, value'⟩, hentry, rfl⟩ := mem_map.mp h
  have hstored := BTreeMap.mem_toList.mp hentry
  rwa [(hs.stored hstored).1]

variable {failed : Option String}

lemma Move.publish {fuel entropy : ℕ}
    (h : s.publish K t failed fuel entropy nonce now = some u) : Move K s act u := by
  unfold Service.publish at h
  split at h
  · cases h
    exact .plain hs trivial rfl
  · rename_i record htask
    have hkept : ∀ {out}, exec fuel s.keyring.masterStore (.activateCurrent entropy record) =
        some out →
        Change s.keyring.masterStore out.2 := fun hout => (kept_exec hs.keyring.intact hout).change
    split at h
    · cases h
    · rename_i e store hactivate
      cases h
      exact .goOn (hs.keyring.of_change (hkept hactivate))
        (.of_change (hkept hactivate)) trivial nofun
    · rename_i reply store hactivate
      cases h
      have hchange := hkept hactivate
      have hload : store.loadKey record.keyId = .ok (some record) :=
        hchange.loadKey_eq (hs.fits htask)
      refine .rewrapNext hs ((hs.keyring.of_change hchange).installCurrent hload) ?_
        fun source hsource => Or.inl (mem_list hs hsource)
      exact fun keyId record hkey => hchange.loadKey_eq hkey
  · cases h

lemma Move.resume (h : s.resume K t nonce now = some u) : Move K s act u := by
  unfold Service.resume at h
  split at h
  · rename_i rest htask
    cases h
    exact .rewrapNext hs hs.keyring (.refl _) fun source hsource => Or.inr ⟨_, htask, hsource⟩
  · cases h

lemma Move.commit (h : s.commit t failed = some u) : Move K s (t, .commit failed) u := by
  unfold Service.commit at h
  split at h
  · rename_i plaintext value htask
    cases h
    exact .upsert htask fun hclear => hclear value.id (by simp [htask, Task.changes])
  · rename_i id rest htask
    cases h
    exact .remove htask fun hclear => hclear id (by simp [htask, Task.changes])
  · rename_i value rest htask
    cases h
    exact .rewrite htask
  · cases h
    exact .plain hs trivial rfl
  · cases h
    exact .plain hs trivial rfl
  · cases h
    exact .plain hs trivial rfl
  · cases h

lemma Move.broadcast (h : s.broadcast K t failed = some u) : Move K s act u := by
  unfold Service.broadcast at h
  split at h
  · rename_i rest _
    cases h
    obtain ⟨hfits, hlisted⟩ := fits_deleteNext (K := K) s.keyring rest
    exact .plain hs hfits hlisted
  · cases h
    exact .plain hs trivial rfl
  · cases h

/-- **Every step is a move.** -/
theorem move_of_step (h : serviceStep K s act = some u) : Move K s act u := by
  obtain ⟨t, action⟩ := act
  cases action with
  | create request =>
    refine Move.begin hs ?_ ?_ h
    all_goals
      unfold Service.checkCreate
      split_ifs <;> trivial
  | update request =>
    refine Move.begin hs ?_ ?_ h
    all_goals
      unfold Service.checkUpdate
      split_ifs
      · trivial
      · split <;> trivial
  | delete names =>
    obtain ⟨hfits, hlisted⟩ := fits_deleteNext (K := K) s.keyring names
    exact Move.begin hs hfits hlisted h
  | rotateMasterKey scopeView =>
    have hfits : (Task.awaitingLock scopeView).Fits K s.keyring := trivial
    exact Move.begin hs hfits rfl h
  | readLock draw => exact Move.readLock hs h
  | writeLock draw localNodeId => exact Move.writeLock hs h
  | publish failed fuel entropy nonce now => exact Move.publish hs h
  | resume nonce now => exact Move.resume hs h
  | commit failed => exact Move.commit hs h
  | broadcast failed => exact Move.broadcast hs h

omit hs

/-! ## Every secret can be decrypted -/

variable {ring' : SecretKeyring C}

lemma Task.Fits.mono (h : task.Fits K ring) (hext : Extends ring ring') : task.Fits K ring' := by
  cases task with
  | upserting plaintext value => exact Seals.mono h hext
  | publishing record => exact hext _ _ h
  | _ => trivial

/-- The tasks after one of them has gone on. -/
lemma getElem?_insert_task {tasks : BTreeMap ℕ Task} {t' : ℕ} {task' : Task}
    (h : (tasks.insert t task)[t']? = some task') : task' = task ∨ tasks[t']? = some task' := by
  rw [BTreeMap.getElem?_insert_eq] at h
  split_ifs at h
  · exact Or.inl (Option.some.inj h).symm
  · exact Or.inr h

/-- A write of a secret that holds a plaintext. -/
lemma Service.Sound.write {value : SecretValue} {latest : UuidKey → Option (ℕ × Applied)}
    (hs : s.Sound K) (hvalue : ∃ plaintext, value.SealedBy K s.keyring plaintext)
    (hfits : task.Fits K s.keyring)
    (hlisted : ∀ value ∈ task.listed, ∃ plaintext, value.SealedBy K s.keyring plaintext) :
    Service.Sound K { s with
        registry := s.registry.insert value.id value
        tasks := s.tasks.insert t task
        latest := latest } where
  keyring := hs.keyring
  stored := by
    intro id value' h
    simp only [BTreeMap.getElem?_insert_eq] at h
    split_ifs at h with heq
    · cases h
      exact ⟨heq, hvalue⟩
    · exact hs.stored h
  fits := by
    intro t' task' h
    rcases getElem?_insert_task h with rfl | h
    · exact hfits
    · exact hs.fits h
  listed := by
    intro t' task' value' h hmem
    rcases getElem?_insert_task h with rfl | h
    · exact hlisted value' hmem
    · exact hs.listed h hmem

lemma Move.sound (h : Move K s act u) (hs : s.Sound K) : u.Sound K := by
  cases h with
  | goOn hring hext hfits hlisted =>
    refine ⟨hring, fun h => ?_, fun h => ?_, fun h hmem => ?_⟩
    · obtain ⟨hid, plaintext, hsealed⟩ := hs.stored h
      exact ⟨hid, plaintext, hsealed.mono hext⟩
    · rcases getElem?_insert_task h with rfl | h
      · exact hfits
      · exact (hs.fits h).mono hext
    · rcases getElem?_insert_task h with rfl | h
      · obtain ⟨source, hsource, -, -, hcarry⟩ := hlisted _ hmem
        obtain ⟨plaintext, hsealed⟩ := hs.sealed hsource
        exact ⟨plaintext, hcarry plaintext hsealed⟩
      · obtain ⟨plaintext, hsealed⟩ := hs.listed h hmem
        exact ⟨plaintext, hsealed.mono hext⟩
  | upsert htask =>
    have hsealed := hs.fits htask
    exact hs.write ⟨_, hsealed⟩ trivial nofun
  | remove htask =>
    refine ⟨hs.keyring, fun h => ?_, fun h => ?_, fun h hmem => ?_⟩
    · simp only [BTreeMap.getElem?_erase_eq] at h
      split_ifs at h
      exact hs.stored h
    · rcases getElem?_insert_task h with rfl | h
      · trivial
      · exact hs.fits h
    · rcases getElem?_insert_task h with rfl | h
      · cases hmem
      · exact hs.listed h hmem
  | rewrite htask =>
    exact hs.write (hs.listed htask mem_cons_self) trivial
      fun value hvalue => hs.listed htask (mem_cons_of_mem _ hvalue)

/-! ## What a secret shows -/

variable (K) in
/-- A value, or its absence, is what the last change of a secret has made. -/
def Matches (ring : SecretKeyring C) : Option (ℕ × Applied) → Option SecretValue → Prop
  | none, none => True
  | some (_, .deleted), none => True
  | some (_, .written plaintext metadata), some value =>
    value.metadata = metadata ∧ value.SealedBy K ring plaintext
  | _, _ => False

variable {latest : Option (ℕ × Applied)} {value : SecretValue}

lemma Matches.mono {value? : Option SecretValue}
    (h : Matches K ring latest value?) (hext : Extends ring ring') :
    Matches K ring' latest value? := by
  rcases latest with - | ⟨_, plaintext, metadata⟩ <;> rcases value? with - | value <;> try exact h
  exact ⟨h.1, h.2.mono hext⟩

variable (K) in
/-- What holds as long as no change meets a rotation: the registry and all that a rotation will
write back are what the last changes have made. -/
structure Service.Faithful (s : Service C) : Prop where
  registry : ∀ id, Matches K s.keyring (s.latest id) s.registry[id]?
  listed : ∀ {t : ℕ} {task : Task} {value : SecretValue}, s.tasks[t]? = some task →
    value ∈ task.listed → Matches K s.keyring (s.latest value.id) (some value)

/-- A change of a secret that no rotation will write back. -/
lemma Service.Faithful.change {id : UuidKey} {change : Option (ℕ × Applied)}
    {registry : BTreeMap UuidKey SecretValue} (hf : s.Faithful K) (hunlisted : s.unlisted id = true)
    (hnew : Matches K s.keyring change registry[id]?)
    (hothers : ∀ id', id' ≠ id → registry[id']? = s.registry[id']?) (htask : task.listed = []) :
    Service.Faithful K { s with
        registry := registry
        tasks := s.tasks.insert t task
        latest := Function.update s.latest id change } where
  registry := by
    intro id'
    rcases eq_or_ne id' id with rfl | hne
    · simpa only [Function.update_self] using hnew
    · simp only [Function.update_of_ne hne, hothers id' hne]
      exact hf.registry id'
  listed := by
    intro t' task' value h hvalue
    rcases getElem?_insert_task h with rfl | h
    · rw [htask] at hvalue
      cases hvalue
    · simp only [Service.unlisted, all_eq_true, decide_eq_true_eq] at hunlisted
      simp only [Function.update_of_ne (hunlisted _ (BTreeMap.mem_toList.mpr h) _ hvalue)]
      exact hf.listed h hvalue

lemma Move.faithful (h : Move K s act u) (hs : s.Sound K) (hf : s.Faithful K)
    (hclear : clearOfRotation s act) : u.Faithful K := by
  cases h with
  | goOn hring hext hfits hlisted =>
    refine ⟨fun id => (hf.registry id).mono hext, fun h hmem => ?_⟩
    rcases getElem?_insert_task h with rfl | h
    · obtain ⟨source, hsource, hid, hmetadata, hcarry⟩ := hlisted _ hmem
      have hmatches : Matches K s.keyring (s.latest source.id) (some source) := by
        rcases hsource with hstored | ⟨task, htask, hmem⟩
        · rw [← hstored]
          exact hf.registry source.id
        · exact hf.listed htask hmem
      rw [hid]
      change Matches K _ (s.latest source.id) _
      generalize s.latest source.id = latest at hmatches ⊢
      rcases latest with - | ⟨_, plaintext, metadata⟩
      · exact hmatches
      · exact ⟨hmetadata.trans hmatches.1, hcarry _ hmatches.2⟩
      · exact hmatches
    · exact (hf.listed h hmem).mono hext
  | upsert htask hunlisted =>
    refine hf.change (hunlisted hclear) ?_ (fun id hne => ?_) rfl
    · rw [BTreeMap.getElem?_insert_same]
      exact ⟨rfl, hs.fits htask⟩
    · exact BTreeMap.getElem?_insert_ne _ _ hne.symm
  | remove htask hunlisted =>
    refine hf.change (hunlisted hclear) ?_ (fun id hne => ?_) rfl
    · rw [BTreeMap.getElem?_erase_same]
      trivial
    · exact BTreeMap.getElem?_erase_ne _ hne.symm
  | rewrite htask =>
    refine ⟨fun id => ?_, fun h hmem => ?_⟩
    · simp only [BTreeMap.getElem?_insert_eq]
      split_ifs with heq
      · rw [← heq]
        exact hf.listed htask mem_cons_self
      · exact hf.registry id
    · rcases getElem?_insert_task h with rfl | h
      · exact hf.listed htask (mem_cons_of_mem _ hmem)
      · exact hf.listed h hmem

/-! ## Runs -/

variable {store : SecretMasterStore C} {active : MasterKeyRecord}

lemma sound_new (hstore : Reaches step anyStep SecretMasterStore.empty store)
    (hactive : store.loadCurrent = .ok (some active)) : (Service.new store active).Sound K := by
  have hintact : Intact store := Reaches.intact hstore intact_empty
  have hregistry : ∀ id, (Service.new store active).registry[id]? = none :=
    fun _ => Std.ExtTreeMap.getElem?_empty
  have htasks : ∀ t, (Service.new store active).tasks[t]? = none :=
    fun _ => Std.ExtTreeMap.getElem?_empty
  refine ⟨.new hintact (hintact.loadKey_of_loadCurrent hactive), fun h => ?_, fun h =>
    ?_, fun h => ?_⟩
  · simp [hregistry] at h
  · simp [htasks] at h
  · simp [htasks] at h

lemma faithful_new : (Service.new store active).Faithful K := by
  refine ⟨fun id => ?_, fun {t} _ _ h => ?_⟩
  · trivial
  · cases h

/-- The request of a task was answered with success. -/
def Service.acknowledged (s : Service C) (t : ℕ) : Bool :=
  match s.tasks[t]? with
  | some (.returned (.ok _)) => true
  | _ => false

variable (K) in
/-- What `get` returns after a change. -/
def Service.Shows (s : Service C) (name : String) : Applied → Prop
  | .written plaintext metadata => ∃ value, s.get K name = .ok (value, plaintext) ∧
      value.metadata = metadata
  | .deleted => s.get K name = .error ("secret '" ++ name ++ "' not found")

lemma shows_of_faithful {name : String} {change : Applied} (hs : s.Sound K) (hf : s.Faithful K)
    (hname : name ≠ "") (hlatest : s.latest (K.computeSecretId name) = some (t, change)) :
    s.Shows K name change := by
  have hmatches := hf.registry (K.computeSecretId name)
  rw [hlatest] at hmatches
  cases hvalue : s.registry[K.computeSecretId name]? with
  | none =>
    rw [hvalue] at hmatches
    cases change with
    | written plaintext metadata => exact hmatches.elim
    | deleted => simp only [Service.Shows, Service.get, if_neg hname, hvalue]
  | some value =>
    rw [hvalue] at hmatches
    cases change with
    | written plaintext metadata =>
      obtain ⟨hmetadata, hsealed⟩ := hmatches
      obtain ⟨ring, hdecrypt, -⟩ := decrypt_of_seals hs.keyring hsealed
      refine ⟨value, ?_, hmetadata⟩
      simp only [Service.get, if_neg hname, hvalue, SecretValue.decrypt, hdecrypt]
    | deleted => exact hmatches.elim

/-- **Secrets under rotations.** However the requests interleave, every stored secret can be
decrypted. In the runs in which no request changes a secret that a rotation has listed and not
written back, `get` shows the last change of every secret that a request made in the store. -/
theorem changes_survive_rotation (C : KeyCrypto) (K : SecretCrypto) (store : SecretMasterStore C)
    (active : MasterKeyRecord) (hstore : Reaches step anyStep empty store)
    (hactive : store.loadCurrent = .ok (some active)) :
    (∀ s, Reaches (serviceStep K) anyStep (Service.new store active) s →
      ∀ (id : UuidKey) value, s.registry[id]? = some value →
        ∃ plaintext ring, value.decrypt K s.keyring = .ok (plaintext, ring)) ∧
    ∀ s, Reaches (serviceStep K) clearOfRotation (Service.new store active) s →
      ∀ name t change, name ≠ "" → s.latest (K.computeSecretId name) = some (t, change) →
        s.Shows K name change := by
  constructor
  · intro s hrun id value hvalue
    have hs : s.Sound K := hrun.invariant (sound_new hstore hactive)
      fun hx _ hstep => (move_of_step hx hstep).sound hx
    obtain ⟨-, plaintext, hsealed⟩ := hs.stored hvalue
    obtain ⟨ring, hdecrypt, -⟩ := decrypt_of_seals hs.keyring hsealed
    exact ⟨plaintext, ring, hdecrypt⟩
  · intro s hrun name t change hname hlatest
    have hs : s.Sound K ∧ s.Faithful K := hrun.invariant (P := fun x => x.Sound K ∧ x.Faithful K)
        ⟨sound_new hstore hactive, faithful_new⟩ fun hx hclear hstep =>
          have hmove := move_of_step hx.1 hstep
          ⟨hmove.sound hx.1, hmove.faithful hx.1 hx.2 hclear⟩
    exact shows_of_faithful hs.1 hs.2 hname hlatest

/-! ## Changes taken back -/

/-- A cipher that does not encrypt, and two secrets. -/
def plainSecretCrypto : SecretCrypto where
  encrypt _ _ _ plaintext := plaintext
  decrypt _ _ _ ciphertext := some ciphertext
  decrypt_encrypt _ _ _ _ := rfl
  computeSecretId name := if name =
    "a" then CrdtMstStore.sampleUuid 1 else CrdtMstStore.sampleUuid 2

/-- A store with its first key. -/
def bootstrapStore : SecretMasterStore plainCrypto :=
  (runActions step anyStep .empty
    [(0, .ensureCurrentForNode (sampleDraw 1) sampleScope (CrdtMstStore.sampleUuid 8))]).getD .empty

def bootstrapKey : MasterKeyRecord :=
  ⟨initialDescriptor (sampleDraw 1) sampleScope (CrdtMstStore.sampleUuid 8), (sampleDraw 1).key⟩

def sampleMetadata : SecretMetadata := ⟨none, ∅⟩

def sampleNonce : Nonce := ⟨replicate 12 0, by simp⟩

/-- A create or an update of a secret from its arrival to its answer. -/
def wholeChange (t : ℕ) (request : Action) (version : Byte) : List (ℕ × Action) :=
  [(t, request), (t, .readLock ⟨CrdtMstStore.sampleUuid version, sampleNonce, ""⟩),
    (t, .commit none), (t, .broadcast none)]

/-- Two secrets are created. -/
def createBoth : List (ℕ × Action) :=
  wholeChange 1 (.create ⟨"a", [1], sampleMetadata⟩) 1 ++
    wholeChange 2 (.create ⟨"b", [1], sampleMetadata⟩) 2

/-- A rotation lists the secrets. -/
def rotateToList : List (ℕ × Action) :=
  [(3, .rotateMasterKey sampleScope), (3, .writeLock (sampleDraw 2) (CrdtMstStore.sampleUuid 8)),
    (3, .publish none 2 0 sampleNonce "")]

/-- It writes both back. -/
def writeBack : List (ℕ × Action) :=
  [(3, .commit none), (3, .resume sampleNonce ""), (3, .commit none), (3, .resume sampleNonce "")]

/-- The one secret is updated. -/
def updateFirst : List (ℕ × Action) := wholeChange 4 (.update ⟨"a", [2], sampleMetadata⟩) 4

/-- The other one is deleted. -/
def deleteSecond : List (ℕ × Action) :=
  [(5, .delete ["b"]), (5, .commit none), (5, .broadcast none)]

/-- The service at the end of a run. -/
def endOf (ok : Service plainCrypto → ℕ × Action → Prop) [∀ s act, Decidable (ok s act)]
    (acts : List (ℕ × Action)) : Service plainCrypto :=
  (runActions (serviceStep plainSecretCrypto) ok (Service.new bootstrapStore bootstrapKey)
    acts).getD (Service.new bootstrapStore bootstrapKey)

/-- The update comes before the rotation, which keeps it, and the deletion after it. -/
theorem changes_survive_rotation_sample :
    ∃ s, Reaches (serviceStep plainSecretCrypto) clearOfRotation
        (Service.new bootstrapStore bootstrapKey) s ∧
      s.acknowledged 3 = true ∧ s.acknowledged 4 = true ∧ s.acknowledged 5 = true ∧
      s.Shows plainSecretCrypto "a" (.written [2] sampleMetadata) ∧
      s.Shows plainSecretCrypto "b" .deleted := by
  have hmain := (changes_survive_rotation plainCrypto plainSecretCrypto bootstrapStore bootstrapKey
    (reaches_getD_runActions _ _ (by decide +kernel)) (by rfl)).2
  have hreach : Reaches (serviceStep plainSecretCrypto) clearOfRotation
      (Service.new bootstrapStore bootstrapKey) (endOf clearOfRotation
        (createBoth ++ updateFirst ++ rotateToList ++ writeBack ++ deleteSecond)) :=
    reaches_getD_runActions _ _ (by decide +kernel)
  refine ⟨_, hreach, by decide +kernel, by decide +kernel, by decide +kernel, ?_, ?_⟩
  · exact hmain _ hreach "a" 4 _ (by decide) (by rfl)
  · exact hmain _ hreach "b" 5 _ (by decide) (by rfl)

/-- **The rotation undoes changes** that were acknowledged between its listing and its writes: the
update of the one secret is gone, and the other secret is back. -/
theorem rotation_takes_back_changes :
    ∃ s, Reaches (serviceStep plainSecretCrypto) anyStep
      (Service.new bootstrapStore bootstrapKey) s ∧
      s.acknowledged 3 = true ∧ s.acknowledged 4 = true ∧ s.acknowledged 5 = true ∧
      s.latest (plainSecretCrypto.computeSecretId "a") = some (4, .written [2] sampleMetadata) ∧
      ¬s.Shows plainSecretCrypto "a" (.written [2] sampleMetadata) ∧
      s.latest (plainSecretCrypto.computeSecretId "b") = some (5, .deleted) ∧
      ¬s.Shows plainSecretCrypto "b" .deleted := by
  have hreach : Reaches (serviceStep plainSecretCrypto) anyStep
      (Service.new bootstrapStore bootstrapKey) (endOf anyStep
        (createBoth ++ rotateToList ++ updateFirst ++ deleteSecond ++ writeBack)) :=
    reaches_getD_runActions _ _ (by decide +kernel)
  refine ⟨_, hreach, by decide +kernel, by decide +kernel, by decide +kernel, by rfl,
    ?_, by rfl, ?_⟩
  · rintro ⟨value, hget, -⟩
    have hread := (congrArg (fun result => result.toOption.map Prod.snd) hget).trans
      (rfl : _ = some ([2] : Bytes))
    exact absurd hread (by decide +kernel)
  · intro hget
    exact absurd (congrArg (fun result => result.toOption.isSome) hget) (by decide +kernel)

end Mantissa.Secrets
