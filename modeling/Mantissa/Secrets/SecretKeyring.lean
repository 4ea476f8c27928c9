import Mantissa.Secrets.Keyring

/-!
# Encrypting secrets

A keyring encrypts under the current master key and decrypts under whichever key a ciphertext names.
Key bytes come from a cache, or from the master key store and then go into the cache.

`Seals` says that a stored ciphertext holds a plaintext: it was made under a key that the store has.
Keys are never lost, so this stays true as the store grows (`Seals.mono`), and what is sealed is
what `decrypt` returns (`decrypt_of_seals`).
-/

namespace Mantissa.Secrets

open SecretMasterStore

/-! ## The keyring -/

/-- The nonce of ChaCha20-Poly1305. -/
abbrev Nonce := ByteArrayOf 12

/-- `aad`: what a ciphertext is bound to. -/
structure Aad where
  secretId : UuidKey
  versionId : UuidKey
  masterKeyId : UuidKey
  masterKeyGeneration : ℕ

/-- The cipher and the hash of secret names. What is encrypted is decrypted under the same key,
nonce and bound data. -/
structure SecretCrypto where
  encrypt : MasterKeyPlaintext → Nonce → Aad → Bytes → Bytes
  decrypt : MasterKeyPlaintext → Nonce → Aad → Bytes → Option Bytes
  decrypt_encrypt : ∀ key nonce aad plaintext,
    decrypt key nonce aad (encrypt key nonce aad plaintext) = some plaintext
  /-- `compute_secret_id`. -/
  computeSecretId : String → UuidKey

/-- `SecretCiphertext`. -/
structure SecretCiphertext where
  masterKeyId : UuidKey
  masterKeyGeneration : ℕ
  nonce : Nonce
  ciphertext : Bytes

/-- The data a ciphertext of a secret's version is bound to. -/
def SecretCiphertext.aad (envelope : SecretCiphertext) (secretId versionId : UuidKey) : Aad :=
  ⟨secretId, versionId, envelope.masterKeyId, envelope.masterKeyGeneration⟩

/-- `SecretKeyring`, with the master key store it shares with the service. -/
structure SecretKeyring (C : KeyCrypto) where
  masterStore : SecretMasterStore C
  cache : BTreeMap UuidKey MasterKeyPlaintext
  currentDescriptor : MasterKeyDescriptor

variable {C : KeyCrypto} (K : SecretCrypto)

namespace SecretKeyring

/-- `SecretKeyring::new`. -/
def new (masterStore : SecretMasterStore C) (active : MasterKeyRecord) : SecretKeyring C :=
  ⟨masterStore, (∅ : BTreeMap UuidKey MasterKeyPlaintext).insert active.keyId active.key,
    active.descriptor⟩

variable (ring : SecretKeyring C)

/-- `install_current`. -/
def installCurrent (record : MasterKeyRecord) : SecretKeyring C :=
  { ring with
    cache := ring.cache.insert record.keyId record.key
    currentDescriptor := record.descriptor }

/-- The key `with_master_key` lends, and the keyring with that key cached. -/
def withMasterKey (keyId : UuidKey) : Except IoError (MasterKeyPlaintext × SecretKeyring C) :=
  match ring.cache[keyId]? with
  | some key => .ok (key, ring)
  | none =>
    match ring.masterStore.loadKey keyId with
    | .error e => .error e
    | .ok none => .error ⟨.notFound, "master key missing"⟩
    | .ok (some record) =>
      let key := (ring.cache[record.keyId]?).getD record.key
      .ok (key, { ring with cache := ring.cache.insert record.keyId key })

/-- `encrypt`, with the nonce drawn. -/
def encrypt (nonce : Nonce) (secretId versionId : UuidKey)
    (plaintext : Bytes) : Except IoError (SecretCiphertext × SecretKeyring C) :=
  let descriptor := ring.currentDescriptor
  let aad : Aad := ⟨secretId, versionId, descriptor.keyId, descriptor.generation⟩
  match ring.withMasterKey descriptor.keyId with
  | .error e => .error e
  | .ok (key, ring') =>
    .ok (⟨descriptor.keyId, descriptor.generation, nonce, K.encrypt key nonce aad plaintext⟩, ring')

/-- `decrypt`. -/
def decrypt (secretId versionId : UuidKey) (envelope : SecretCiphertext) :
    Except IoError (Bytes × SecretKeyring C) :=
  match ring.withMasterKey envelope.masterKeyId with
  | .error e => .error e
  | .ok (key, ring') =>
    match K.decrypt key envelope.nonce (envelope.aad secretId versionId) envelope.ciphertext with
    | none => .error ⟨.permissionDenied, "secret decrypt failed"⟩
    | some plaintext => .ok (plaintext, ring')

/-! ## What a keyring keeps -/

/-- The cache agrees with the store, and the current key is stored. -/
structure Sound (ring : SecretKeyring C) : Prop where
  intact : Intact ring.masterStore
  cached : ∀ {keyId key}, ring.cache[keyId]? = some key →
    ∃ descriptor, ring.masterStore.loadKey keyId = .ok (some ⟨descriptor, key⟩)
  current : ∃ key, ring.masterStore.loadKey ring.currentDescriptor.keyId =
    .ok (some ⟨ring.currentDescriptor, key⟩)

/-- Every key of the one store is in the other. -/
def Extends (ring ring' : SecretKeyring C) : Prop :=
  ∀ keyId record, ring.masterStore.loadKey keyId = .ok (some record) →
    ring'.masterStore.loadKey keyId = .ok (some record)

/-- A ciphertext of a secret's version holds `plaintext`, under a key of the store. -/
def Seals (ring : SecretKeyring C) (secretId versionId : UuidKey) (envelope : SecretCiphertext)
    (plaintext : Bytes) : Prop :=
  ∃ record, ring.masterStore.loadKey envelope.masterKeyId = .ok (some record) ∧
    envelope.ciphertext =
      K.encrypt record.key envelope.nonce (envelope.aad secretId versionId) plaintext

variable {K} {ring ring' ring'' : SecretKeyring C} {keyId secretId versionId : UuidKey}
  {envelope : SecretCiphertext} {plaintext : Bytes} {record : MasterKeyRecord}

lemma Extends.refl (ring : SecretKeyring C) : Extends ring ring := fun _ _ h => h

lemma Extends.trans (h : Extends ring ring') (h' : Extends ring' ring'') : Extends ring ring'' :=
  fun keyId record hload => h' keyId record (h keyId record hload)

lemma Extends.of_change (h : Change ring.masterStore ring'.masterStore) : Extends ring ring' :=
  fun _ _ hload => h.loadKey_eq hload

lemma Seals.mono (h : Seals K ring secretId versionId envelope plaintext)
    (hext : Extends ring ring') : Seals K ring' secretId versionId envelope plaintext := by
  obtain ⟨record, hload, hcipher⟩ := h
  exact ⟨record, hext _ record hload, hcipher⟩

variable (hs : Sound ring)

include hs

/-- **The key of a stored record is lent**, from the cache or from the store. -/
lemma withMasterKey_spec (hload : ring.masterStore.loadKey keyId = .ok (some record)) :
    ∃ ring', ring.withMasterKey keyId = .ok (record.key, ring') ∧ Sound ring' ∧
      Extends ring ring' := by
  unfold withMasterKey
  cases hcache : ring.cache[keyId]? with
  | some key =>
    obtain ⟨descriptor, hsame⟩ := hs.cached hcache
    obtain rfl := Option.some.inj (Except.ok.inj (hload.symm.trans hsame))
    exact ⟨ring, rfl, hs, .refl ring⟩
  | none =>
    have hkeyId : record.keyId = keyId := hs.intact.keyId_of_loadKey hload
    simp only [hload, hkeyId, hcache, Option.getD_none]
    refine ⟨_, rfl, ⟨hs.intact, ?_, hs.current⟩, fun _ _ h => h⟩
    intro keyId' key hkey
    simp only [BTreeMap.getElem?_insert_eq] at hkey
    split_ifs at hkey with heq
    · cases hkey
      exact ⟨record.descriptor, heq ▸ hload⟩
    · exact hs.cached hkey

/-- **What is encrypted is sealed**, under the current key. -/
lemma encrypt_spec (nonce : Nonce) (secretId versionId : UuidKey)
    (plaintext : Bytes) : ∃ envelope ring', ring.encrypt K nonce secretId versionId plaintext =
      .ok (envelope, ring') ∧ Sound ring' ∧ Extends ring ring' ∧
        Seals K ring' secretId versionId envelope plaintext := by
  obtain ⟨key, hload⟩ := hs.current
  obtain ⟨ring', hkey, hring, hext⟩ := withMasterKey_spec hs hload
  simp only [encrypt, hkey]
  exact ⟨_, ring', rfl, hring, hext, _, hext _ _ hload, rfl⟩

variable (h : Seals K ring secretId versionId envelope plaintext)

include h

/-- **What is sealed is decrypted.** -/
lemma decrypt_of_seals :
    ∃ ring', ring.decrypt K secretId versionId envelope = .ok (plaintext, ring') ∧ Sound ring' ∧
      Extends ring ring' := by
  obtain ⟨record, hload, hcipher⟩ := h
  obtain ⟨ring', hkey, hring, hext⟩ := withMasterKey_spec hs hload
  unfold decrypt
  rw [hkey, hcipher]
  simp only [K.decrypt_encrypt]
  exact ⟨ring', rfl, hring, hext⟩

lemma Seals.unique {plaintext' : Bytes}
    (h' : Seals K ring secretId versionId envelope plaintext') : plaintext = plaintext' := by
  obtain ⟨ring₁, hdecrypt, -⟩ := decrypt_of_seals hs h
  obtain ⟨ring₂, hdecrypt', -⟩ := decrypt_of_seals hs h'
  exact (Prod.mk.inj (Except.ok.inj (hdecrypt.symm.trans hdecrypt'))).1

omit h

variable {store : SecretMasterStore C}

/-- The store may change under the keyring. -/
lemma Sound.of_change
    (h : Change ring.masterStore store) : Sound { ring with masterStore := store } where
  intact := h.intact hs.intact
  cached := by
    intro keyId key hkey
    obtain ⟨descriptor, hload⟩ := hs.cached hkey
    exact ⟨descriptor, h.loadKey_eq hload⟩
  current := by
    obtain ⟨key, hload⟩ := hs.current
    exact ⟨key, h.loadKey_eq hload⟩

lemma Sound.installCurrent (hload : ring.masterStore.loadKey record.keyId = .ok (some record)) :
    Sound (ring.installCurrent record) where
  intact := hs.intact
  cached := by
    intro keyId key hkey
    simp only [SecretKeyring.installCurrent, BTreeMap.getElem?_insert_eq] at hkey
    split_ifs at hkey with heq
    · cases hkey
      exact ⟨record.descriptor, heq ▸ hload⟩
    · exact hs.cached hkey
  current := ⟨record.key, hload⟩

omit hs

/-- A keyring starts sound on a store whose current key it is given. -/
lemma Sound.new {active : MasterKeyRecord} (hstore : Intact store)
    (hload : store.loadKey active.keyId = .ok (some active)) :
    Sound (SecretKeyring.new store active) where
  intact := hstore
  cached := by
    intro keyId key hkey
    simp only [SecretKeyring.new, BTreeMap.getElem?_insert_eq] at hkey
    split_ifs at hkey with heq
    · cases hkey
      exact ⟨active.descriptor, heq ▸ hload⟩
    · cases hkey
  current := ⟨active.key, hload⟩

end SecretKeyring

end Mantissa.Secrets
