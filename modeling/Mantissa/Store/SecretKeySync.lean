import Mantissa.Store.OrderIndependence

/-!
# The secret-master-key store

The store that replicates master keys keeps its tombstones like the others of its kind, but its
adapter does more than merge: when all visible entries of a row grant the same key to the same
recipient, one of them is kept and takes over the clocks of the rest. The kept one is the best by
`SecretMasterKeyCompactionRank`, whose last resort is the order of the records themselves, so the
records come with the orders the source derives: fields in the order they are declared, variants
likewise.

Collapsing forgets no causal history (`clock_mergeRegs`). It does not commute with overwriting,
though: which grants meet in a row depends on the order they arrive in
(`collapsed_grants_depend_on_order`).
-/

namespace Mantissa

open CrdtMstStore

/-- A byte array of fixed width. -/
abbrev ByteArrayOf (width : ℕ) := {bytes : Bytes // bytes.length = width}

/-! ## Records and their derived orders -/

/-- `ClusterViewId`. -/
structure ClusterViewId where
  clusterId : UuidKey
  epoch : ℕ

/-- The fields in the order they are compared. -/
def ClusterViewId.fields (v : ClusterViewId) : UuidKey ×ₗ ℕ := toLex (v.clusterId, v.epoch)

lemma ClusterViewId.fields_injective : Function.Injective ClusterViewId.fields := by
  rintro ⟨c, e⟩ ⟨c', e'⟩ h
  simpa [fields] using h

instance : LinearOrder ClusterViewId := LinearOrder.lift' _ ClusterViewId.fields_injective

/-- `MasterKeyDescriptor`. -/
structure MasterKeyDescriptor where
  keyId : UuidKey
  generation : ℕ
  scopeView : ClusterViewId
  originView : ClusterViewId
  createdByNodeId : UuidKey
  createdByOperationId : WithBot UuidKey
  parentKeyIds : List UuidKey
  createdAtUnixSecs : ℕ

/-- The fields in the order they are compared; an absent option comes first. -/
def MasterKeyDescriptor.fields (d : MasterKeyDescriptor) :
    UuidKey ×ₗ ℕ ×ₗ ClusterViewId ×ₗ ClusterViewId ×ₗ UuidKey ×ₗ WithBot UuidKey ×ₗ
      List UuidKey ×ₗ ℕ :=
  toLex (d.keyId, toLex (d.generation, toLex (d.scopeView, toLex (d.originView,
    toLex (d.createdByNodeId, toLex (d.createdByOperationId,
      toLex (d.parentKeyIds, d.createdAtUnixSecs)))))))

lemma MasterKeyDescriptor.fields_injective : Function.Injective MasterKeyDescriptor.fields := by
  rintro ⟨⟩ ⟨⟩ h
  simpa [fields] using h

instance : LinearOrder MasterKeyDescriptor :=
  LinearOrder.lift' _ MasterKeyDescriptor.fields_injective

/-- `MasterKeyTransfer`, the grant of a key to one recipient. -/
structure MasterKeyTransfer where
  descriptor : MasterKeyDescriptor
  senderNodeId : UuidKey
  recipientNodeId : UuidKey
  senderNoiseStaticPub : ByteArrayOf 32
  transferPublicKey : ByteArrayOf 32
  recipientNoiseStaticPub : ByteArrayOf 32
  nonce : ByteArrayOf 24
  ciphertext : Bytes

/-- The fields in the order they are compared. -/
def MasterKeyTransfer.fields (g : MasterKeyTransfer) :
    MasterKeyDescriptor ×ₗ UuidKey ×ₗ UuidKey ×ₗ ByteArrayOf 32 ×ₗ ByteArrayOf 32 ×ₗ
      ByteArrayOf 32 ×ₗ ByteArrayOf 24 ×ₗ Bytes :=
  toLex (g.descriptor, toLex (g.senderNodeId, toLex (g.recipientNodeId,
    toLex (g.senderNoiseStaticPub, toLex (g.transferPublicKey,
      toLex (g.recipientNoiseStaticPub, toLex (g.nonce, g.ciphertext)))))))

lemma MasterKeyTransfer.fields_injective : Function.Injective MasterKeyTransfer.fields := by
  rintro ⟨⟩ ⟨⟩ h
  simpa [fields] using h

instance : LinearOrder MasterKeyTransfer :=
  LinearOrder.lift' _ MasterKeyTransfer.fields_injective

/-- `SecretMasterKeyCurrent`. -/
structure SecretMasterKeyCurrent where
  scopeView : ClusterViewId
  keyId : UuidKey
  generation : ℕ
  createdByOperationId : WithBot UuidKey
  parentKeyIds : List UuidKey

/-- The fields in the order they are compared. -/
def SecretMasterKeyCurrent.fields (c : SecretMasterKeyCurrent) :
    ClusterViewId ×ₗ UuidKey ×ₗ ℕ ×ₗ WithBot UuidKey ×ₗ List UuidKey :=
  toLex (c.scopeView, toLex (c.keyId, toLex (c.generation,
    toLex (c.createdByOperationId, c.parentKeyIds))))

lemma SecretMasterKeyCurrent.fields_injective :
    Function.Injective SecretMasterKeyCurrent.fields := by
  rintro ⟨⟩ ⟨⟩ h
  simpa [fields] using h

instance : LinearOrder SecretMasterKeyCurrent :=
  LinearOrder.lift' _ SecretMasterKeyCurrent.fields_injective

/-- `SecretMasterKeySyncRecord`. -/
inductive SecretMasterKeySyncRecord
  | descriptor (descriptor : MasterKeyDescriptor)
  | grant (grant : MasterKeyTransfer)
  | current (current : SecretMasterKeyCurrent)

namespace SecretMasterKeySyncRecord

/-- The variants in the order they are compared. -/
def variant : SecretMasterKeySyncRecord →
    MasterKeyDescriptor ⊕ₗ MasterKeyTransfer ⊕ₗ SecretMasterKeyCurrent
  | .descriptor d => toLex (.inl d)
  | .grant g => toLex (.inr (toLex (.inl g)))
  | .current c => toLex (.inr (toLex (.inr c)))

lemma variant_injective : Function.Injective variant := by
  rintro (d | g | c) (d' | g' | c') h <;> simp_all [variant]

instance : LinearOrder SecretMasterKeySyncRecord := LinearOrder.lift' _ variant_injective

end SecretMasterKeySyncRecord

/-! ## The compaction rank -/

/-- `SecretMasterKeyCurrentOriginRank`. -/
inductive SecretMasterKeyCurrentOriginRank
  | routine
  | clusterOperation

/-- `SecretMasterKeyCurrent::origin_rank`. -/
def SecretMasterKeyCurrent.originRank (c : SecretMasterKeyCurrent) :
    SecretMasterKeyCurrentOriginRank :=
  if c.createdByOperationId = ⊥ then .routine else .clusterOperation

/-- The variants in the order they are compared. -/
def SecretMasterKeyCurrentOriginRank.variant : SecretMasterKeyCurrentOriginRank → ℕ
  | .routine => 0
  | .clusterOperation => 1

/-- `SecretMasterKeyFactRank`: generation, key and record, compared in this order. -/
abbrev SecretMasterKeyFactRank := ℕ ×ₗ UuidKey ×ₗ SecretMasterKeySyncRecord

/-- `SecretMasterKeyCurrentRank`: origin, generation, key and record, compared in this order. -/
abbrev SecretMasterKeyCurrentRank := ℕ ×ₗ ℕ ×ₗ UuidKey ×ₗ SecretMasterKeySyncRecord

/-- `SecretMasterKeyCompactionRankValue`: a descriptor's, a grant's or a current pointer's rank, the
kinds compared in this order. -/
abbrev SecretMasterKeyCompactionRankValue :=
  SecretMasterKeyFactRank ⊕ₗ SecretMasterKeyFactRank ⊕ₗ SecretMasterKeyCurrentRank

/-- `SecretMasterKeyCompactionRank::rank`. -/
def secretMasterKeyCompactionRank (e : MvRegEntry SecretMasterKeySyncRecord UuidKey) :
    SecretMasterKeyCompactionRankValue :=
  match e.value with
  | .descriptor d => toLex (.inl (toLex (d.generation, toLex (d.keyId, e.value))))
  | .grant g =>
    toLex (.inr (toLex (.inl (toLex (g.descriptor.generation,
      toLex (g.descriptor.keyId, e.value))))))
  | .current c =>
    toLex (.inr (toLex (.inr (toLex (c.originRank.variant, toLex (c.generation,
      toLex (c.keyId, e.value)))))))

/-! ## Collapsing grants -/

/-- Both records grant the same key to the same recipient. -/
def sameKeyAndRecipient (first : MasterKeyTransfer)
    (e : MvRegEntry SecretMasterKeySyncRecord UuidKey) : Bool :=
  match e.value with
  | .grant candidate =>
    decide (candidate.descriptor = first.descriptor) &&
      decide (candidate.recipientNodeId = first.recipientNodeId) &&
      decide (candidate.recipientNoiseStaticPub = first.recipientNoiseStaticPub)
  | _ => false

variable (reg : MvReg SecretMasterKeySyncRecord UuidKey)

/-- `collapse_grants_for_same_key_and_recipient`. -/
def collapseGrantsForSameKeyAndRecipient : MvReg SecretMasterKeySyncRecord UuidKey :=
  match reg.entries with
  | ⟨_, .grant first⟩ :: _ =>
    if reg.entries.all (sameKeyAndRecipient first) then
      (reg.compactWith 1 secretMasterKeyCompactionRank).1
    else reg
  | _ => reg

/-- `SecretMasterKeyCompaction`. -/
def secretMasterKeyCompaction : MvRegCompactionPolicy SecretMasterKeySyncRecord UuidKey where
  compact := (rankedMvRegCompaction secretMasterKeyCompactionRank).compact
  compactAfterMerge := collapseGrantsForSameKeyAndRecipient

/-- `SecretMasterKeyRegAdapter`. -/
def secretMasterKeyRegAdapter : RegAdapter UuidKey UuidKey (MvReg SecretMasterKeySyncRecord UuidKey)
      SecretMasterKeySyncRecord (MvRegSnapshot SecretMasterKeySyncRecord) :=
  storeMvRegAdapterSorted (fun actor => actor.val) secretMasterKeyCompaction

/-- Collapsing keeps the register or compacts it to one value. -/
lemma collapseGrants_eq : collapseGrantsForSameKeyAndRecipient reg = reg ∨
      collapseGrantsForSameKeyAndRecipient reg =
        (reg.compactWith 1 secretMasterKeyCompactionRank).1 := by
  unfold collapseGrantsForSameKeyAndRecipient
  split
  · split_ifs
    · exact .inr rfl
    · exact .inl rfl
  · exact .inl rfl

/-- **A merge forgets no history**, whether or not grants are collapsed: its clock is the join of
both clocks, so a discarded grant that comes again is below it. -/
theorem clock_mergeRegs (current incoming : MvReg SecretMasterKeySyncRecord UuidKey) :
    (secretMasterKeyRegAdapter.mergeRegs (some current) incoming).clock =
      current.clock ⊔ incoming.clock := by
  change (collapseGrantsForSameKeyAndRecipient (current.merge incoming)).clock = _
  rcases collapseGrants_eq (current.merge incoming) with heq | heq
  · rw [heq, MvReg.clock_merge]
  · rw [heq, MvReg.clock_compactWith, MvReg.clock_merge]

/-! ## Order -/

/-- One key granted to one recipient, by different senders. -/
def sampleGrant (sender : Byte) : SecretMasterKeySyncRecord :=
  let view : ClusterViewId := ⟨sampleUuid 0, 0⟩
  .grant
    { descriptor := ⟨sampleUuid 9, 1, view, view, sampleUuid 3, ⊥, [], 0⟩
      senderNodeId := sampleUuid sender
      recipientNodeId := sampleUuid 8
      senderNoiseStaticPub := ⟨List.replicate 32 sender, by simp⟩
      transferPublicKey := ⟨List.replicate 32 0, by simp⟩
      recipientNoiseStaticPub := ⟨List.replicate 32 8, by simp⟩
      nonce := ⟨List.replicate 24 0, by simp⟩
      ciphertext := [sender] }

/-- Senders 3 and 1 grant a key concurrently, and sender 2 overwrites the grant of 3. If 3 and 1
meet first, 3 wins over 1 and then over 2, which no longer covers it; if 2 arrives before 1, it
has replaced 3. No chunk has a tombstone, and a clock has one value throughout. -/
theorem collapsed_grants_depend_on_order :
    let grants3 := MvReg.new.write (sampleUuid 3) (sampleGrant 3)
    let grants2 := grants3.write (sampleUuid 2) (sampleGrant 2)
    let grants1 := MvReg.new.write (sampleUuid 1) (sampleGrant 1)
    let k := sampleUuid 7
    let s := build Disk.empty (sampleUuid 8) true
    let entries := grants3.entries ++ grants2.entries ++ grants1.entries
    (∀ e ∈ entries, ∀ f ∈ entries, e.clock = f.clock → e.value = f.value) ∧
      (applyChunks secretMasterKeyRegAdapter s
        [(⟨[(k, grants3)], []⟩, 0), (⟨[(k, grants1)], []⟩, 0), (⟨[(k, grants2)], []⟩, 0)]).mst[k]? =
          some (.active ⟨[sampleGrant 3]⟩) ∧
      (applyChunks secretMasterKeyRegAdapter s
        [(⟨[(k, grants3)], []⟩, 0), (⟨[(k, grants2)], []⟩, 0), (⟨[(k, grants1)], []⟩, 0)]).mst[k]? =
          some (.active ⟨[sampleGrant 2]⟩) ∧
      sampleGrant 3 ≠ sampleGrant 2 := by
  decide +kernel

end Mantissa
