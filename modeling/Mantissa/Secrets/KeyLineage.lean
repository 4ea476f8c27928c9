import Mantissa.Secrets.Keyring

/-!
# The lineage of the current master key

Descent is a search through the parents of the stored descriptors. They may be missing or run in
circles; the search ends anyway, and finds what can be reached.

The exception for keys made by operations has no regard for the direction. A rotation of an
operation's key descends from it, and `activateCurrent` goes back from the rotation to the
operation's key (`operation_key_reactivated`). Apart from that and from circular parents a
committed current key never goes back to one of its ancestors (`master_key_replaced_along_lineage`).
-/

namespace Mantissa.Secrets

open SecretMasterStore List Option CrdtMstStore

variable {C : KeyCrypto}

namespace SecretMasterStore

variable {s : SecretMasterStore C} {fuel entropy : ℕ} {record : MasterKeyRecord} {out : Outcome C}

/-! ## Descent -/

/-- `ancestorKeyId` is among the parents of a descriptor, their parents, and so on, as far as the
descriptors are stored. -/
def Descends (s : SecretMasterStore C) (candidate : MasterKeyDescriptor) (ancestorKeyId : UuidKey) :
    Prop :=
  GraphSearch.Reachable s.storedParents candidate.parentKeyIds ancestorKeyId

/-- A stored key descends from `ancestorKeyId`. -/
def IsAncestor (s : SecretMasterStore C) (ancestorKeyId keyId : UuidKey) : Prop :=
  ∃ wrapped, s.loadWrappedKey keyId = some wrapped ∧ s.Descends wrapped.descriptor ancestorKeyId

/-- **The search ends**, whatever the descriptors name as parents. -/
lemma descriptorDescendsFrom_ends (s : SecretMasterStore C) (candidate : MasterKeyDescriptor)
    (ancestorKeyId : UuidKey) : ∃ enough found, ∀ fuel ≥ enough,
      s.descriptorDescendsFrom fuel candidate ancestorKeyId = some found := by
  have hnodes : ∀ keyId ∉ (s.envelopes.toList.map Prod.fst).toFinset, s.storedParents keyId =
      [] := by
    intro keyId hkeyId
    have hnone : s.loadWrappedKey keyId = none := by
      rw [eq_none_iff_forall_ne_some]
      intro wrapped hload
      refine hkeyId (mem_toFinset.mpr (mem_map.mpr ⟨(keyId, wrapped), ?_, rfl⟩))
      exact BTreeMap.mem_toList.mpr hload
    unfold storedParents
    rw [hnone]
  have hsome : (s.descriptorDescendsFrom _ candidate ancestorKeyId).isSome = true :=
    GraphSearch.loop_isSome hnodes (Nat.lt_succ_self _)
  obtain ⟨found, hfound⟩ := isSome_iff_exists.mp hsome
  exact ⟨_, found, fun fuel hfuel => GraphSearch.loop_mono hfuel hfound⟩

/-- **What the search finds is descent.** -/
lemma descriptorDescendsFrom_eq_iff {candidate : MasterKeyDescriptor} {ancestorKeyId : UuidKey}
    {found : Bool} (h : s.descriptorDescendsFrom fuel candidate ancestorKeyId = some found) :
    found = true ↔ s.Descends candidate ancestorKeyId := by
  refine (GraphSearch.loop_eq_iff h).trans ?_
  unfold Descends GraphSearch.Reachable
  simp only [mem_reverse]

/-- **The search decides descent.** -/
theorem descriptorDescendsFrom_decides (candidate : MasterKeyDescriptor)
    (ancestorKeyId : UuidKey) : ∃ enough, ∀ fuel ≥ enough, ∃ found : Bool,
      s.descriptorDescendsFrom fuel candidate ancestorKeyId = some found ∧
        (found = true ↔ s.Descends candidate ancestorKeyId) := by
  obtain ⟨enough, found, hends⟩ := s.descriptorDescendsFrom_ends candidate ancestorKeyId
  refine ⟨enough, fun fuel hfuel => ⟨found, hends fuel hfuel, ?_⟩⟩
  exact descriptorDescendsFrom_eq_iff (hends fuel hfuel)

lemma ensureReplicatedCurrentAllowed_ends (s : SecretMasterStore C) (record : MasterKeyRecord) :
    ∃ enough allowed, ∀ fuel ≥ enough, s.ensureReplicatedCurrentAllowed fuel record =
      some allowed := by
  unfold ensureReplicatedCurrentAllowed
  cases s.currentKeyId with
  | none => exact ⟨0, _, fun _ _ => rfl⟩
  | some currentKeyId =>
    by_cases hsame : currentKeyId = record.keyId
    · exact ⟨0, _, fun _ _ => if_pos hsame⟩
    by_cases hpending : s.bootstrapReplacementPending = true
    · exact ⟨0, _, fun _ _ => (if_neg hsame).trans (if_pos hpending)⟩
    simp only [if_neg hsame, if_neg hpending]
    cases s.loadWrappedKey currentKeyId with
    | none => exact ⟨0, _, fun _ _ => rfl⟩
    | some current =>
      obtain ⟨enough, found, hends⟩ :=
        s.descriptorDescendsFrom_ends record.descriptor current.descriptor.keyId
      exact ⟨enough, _, fun fuel hfuel => congrArg (Option.map _) (hends fuel hfuel)⟩

/-- Every call returns, and more fuel does not change what. -/
theorem exec_returns (s : SecretMasterStore C) (call : Call) :
    ∃ enough out, ∀ fuel ≥ enough, exec fuel s call = some out := by
  cases call with
  | activateCurrent entropy record =>
    obtain ⟨enough, allowed, hends⟩ := s.ensureReplicatedCurrentAllowed_ends record
    exact ⟨enough, _, fun fuel hfuel => congrArg (Option.map _) (hends fuel hfuel)⟩
  | _ => exact ⟨0, _, fun _ _ => rfl⟩

/-! ## Replacing a committed key -/

/-- `record` descends from the current key or was made by an operation. -/
def Supersedes (s : SecretMasterStore C) (record : MasterKeyRecord) (currentKeyId : UuidKey) :
    Prop :=
  s.Descends record.descriptor currentKeyId ∨ record.descriptor.createdByOperationId ≠ ⊥

/-- **What a committed store accepts.** -/
lemma activateCurrent_eq {currentKeyId : UuidKey} (hs : Intact s) (hcommitted : Committed s)
    (hcurrent : s.currentKeyId = some currentKeyId)
    (h : s.activateCurrent fuel entropy record = some out) :
    (record.keyId = currentKeyId ∨ s.Supersedes record currentKeyId) ∧
        out = s.conclude (s.activateCurrentLocked entropy record) ∨
      ¬(record.keyId = currentKeyId ∨ s.Supersedes record currentKeyId) ∧
        out = (.error .conflictingCurrent, s) := by
  obtain ⟨allowed, hallowed, rfl⟩ := map_eq_some_iff.mp h
  simp only [ensureReplicatedCurrentAllowed, hcurrent] at hallowed
  by_cases hsame : currentKeyId = record.keyId
  · rw [if_pos hsame] at hallowed
    cases hallowed
    exact .inl ⟨.inl hsame.symm, rfl⟩
  have hpending : ¬s.bootstrapReplacementPending = true := by
    unfold bootstrapReplacementPending
    intro htrue
    exact hcommitted.decided (by simpa [getD_eq_iff] using htrue)
  rw [if_neg hsame, if_neg hpending] at hallowed
  obtain ⟨current, hload⟩ := isSome_iff_exists.mp (hs.current hcurrent)
  simp only [hload, hs.keyed hload] at hallowed
  obtain ⟨found, hfound, rfl⟩ := map_eq_some_iff.mp hallowed
  have hdescends := descriptorDescendsFrom_eq_iff hfound
  by_cases hdown : found = true
  · refine .inl ⟨.inr (.inl (hdescends.mp hdown)), ?_⟩
    rw [if_pos hdown]
  · rw [if_neg hdown]
    by_cases hoperation : record.descriptor.createdByOperationId ≠ ⊥
    · refine .inl ⟨.inr (.inr hoperation), ?_⟩
      rw [if_pos hoperation]
    · refine .inr ⟨?_, by rw [if_neg hoperation]⟩
      rintro (heq | hdesc | hop)
      · exact hsame heq.symm
      · exact hdown (hdescends.mpr hdesc)
      · exact hoperation hop

/-- An activation that changes the current key changes it to one that descends from it or was made
by an operation, and not to one of its ancestors. -/
def AlongLineage (s : SecretMasterStore C) (entropy : ℕ) (record : MasterKeyRecord) : Prop :=
  ∀ fuel reply t, exec fuel s (.activateCurrent entropy record) = some (.ok reply, t) →
    t.currentKeyId ≠ s.currentKeyId →
      ∃ currentKeyId, s.currentKeyId = some currentKeyId ∧ t.currentKeyId = some record.keyId ∧
        s.Supersedes record currentKeyId ∧ ¬s.IsAncestor record.keyId currentKeyId

/-- The record is another key that the store accepts, and an ancestor of the current key: one that
an operation made, or one that also descends from the current key. -/
def GoesBack (s : SecretMasterStore C) (record : MasterKeyRecord) : Prop :=
  ∃ currentKeyId, s.currentKeyId = some currentKeyId ∧ record.keyId ≠ currentKeyId ∧
    s.IsAncestor record.keyId currentKeyId ∧ s.Supersedes record currentKeyId ∧ s.Storable record

/-- **A committed key is replaced along its lineage unless the record goes back.** -/
lemma alongLineage_iff (hs : Intact s) (hcommitted : Committed s) :
    s.AlongLineage entropy record ↔ ¬s.GoesBack record := by
  obtain ⟨currentKeyId, hcurrent⟩ := isSome_iff_exists.mp hcommitted.current
  constructor
  · rintro halong ⟨currentKeyId', hcurrent', hne, hancestor, hsupersedes, hstorable⟩
    obtain rfl := some.inj (hcurrent.symm.trans hcurrent')
    -- the call is accepted, and moves the pointer to the ancestor
    obtain ⟨enough, out, hreturns⟩ := s.exec_returns (.activateCurrent entropy record)
    have hexec := hreturns enough le_rfl
    obtain ⟨t, ht⟩ := activateCurrentLocked_of_storable entropy hstorable
    obtain ⟨-, rfl⟩ | ⟨hnot, -⟩ := activateCurrent_eq hs hcommitted hcurrent hexec
    · rw [ht] at hexec
      have hmoved := (activateCurrentLocked_spec hs ht).2.1
      have hchanged : t.currentKeyId ≠ s.currentKeyId := by
        rw [hmoved, hcurrent]
        exact fun heq => hne (some.inj heq)
      obtain ⟨current, hcur, -, -, hnot⟩ := halong enough none t hexec hchanged
      obtain rfl := some.inj (hcurrent.symm.trans hcur)
      exact hnot hancestor
    · exact hnot (.inr hsupersedes)
  · intro hnot fuel reply t hexec hchanged
    obtain ⟨haccepted, hout⟩ | ⟨-, hout⟩ := activateCurrent_eq hs hcommitted hcurrent hexec
    · cases hlocked : s.activateCurrentLocked entropy record with
      | error e =>
        rw [hlocked] at hout
        cases hout
      | ok t' =>
        rw [hlocked] at hout
        obtain ⟨-, rfl⟩ := Prod.mk.inj hout
        obtain ⟨-, hmoved, -, hstorable⟩ := activateCurrentLocked_spec hs hlocked
        have hne : record.keyId ≠ currentKeyId := by
          rintro rfl
          exact hchanged (hmoved.trans hcurrent.symm)
        have hsupersedes := haccepted.resolve_left hne
        refine ⟨currentKeyId, hcurrent, hmoved, hsupersedes, fun hancestor => ?_⟩
        exact hnot ⟨currentKeyId, hcurrent, hne, hancestor, hsupersedes, hstorable⟩
    · cases hout

end SecretMasterStore

/-! ## Runs -/

variable {s t u : SecretMasterStore C}

lemma intact_empty : Intact (empty : SecretMasterStore C) := by
  have hnone : ∀ keyId, (empty : SecretMasterStore C).loadWrappedKey keyId = none :=
    fun keyId => Std.ExtTreeMap.getElem?_empty
  refine ⟨fun h => ?_, fun h => ?_, fun h => ?_, nofun⟩
  all_goals
    cases h

lemma change_of_step {act : ℕ × Call} (hs : Intact s) (h : step s act = some t) : Change s t := by
  obtain ⟨out, hout, rfl⟩ := map_eq_some_iff.mp h
  exact (kept_exec hs hout).change

/-- What a change keeps, a run keeps. -/
lemma Reaches.intact (h : Reaches step anyStep s t) (hs : Intact s) : Intact t :=
  h.invariant hs fun hx _ hstep => (change_of_step hx hstep).intact hx

lemma Reaches.keeps {P : SecretMasterStore C → Prop} (h : Reaches step anyStep s t) (hs : Intact s)
    (hkeep : ∀ {x y}, Change x y → P x → P y) (hP : P s) : P t := by
  refine (h.invariant (P := fun x => Intact x ∧ P x) ⟨hs, hP⟩ fun hx _ hstep => ?_).2
  have hchange := change_of_step hx.1 hstep
  exact ⟨hchange.intact hx.1, hkeep hchange hx.2⟩

/-- **Master keys are kept, and a committed one is replaced along its lineage.** In every run from
the empty store: each call returns; a key that a call stored can be loaded for ever, with its
descriptor and its bytes; the current key is stored; and after a commit or an activation, an
activation keeps to the lineage of the current key exactly if its record does not go back. -/
theorem master_key_replaced_along_lineage (C : KeyCrypto) (s : SecretMasterStore C)
    (hrun : Reaches step anyStep empty s) :
    (∀ call, ∃ enough out, ∀ fuel ≥ enough, exec fuel s call = some out) ∧
      (∀ keyId, (s.loadWrappedKey keyId).isSome = true →
        ∃ record, s.loadKey keyId = .ok (some record) ∧ record.keyId = keyId ∧
          ∀ t, Reaches step anyStep s t → t.loadKey keyId = .ok (some record)) ∧
      (∀ fuel call record t, exec fuel s call = some (.ok (some record), t) →
        t.loadKey record.keyId = .ok (some record)) ∧
      (∀ fuel call record t, call.given = some record → s.loadWrappedKey record.keyId = none →
        ∀ reply, exec fuel s call = some (.ok reply, t) →
          t.loadKey record.keyId = .ok (some record)) ∧
      (∀ keyId, s.currentKeyId = some keyId → (s.loadWrappedKey keyId).isSome = true) ∧
      ∀ fuel call reply t u, call.commits = true → exec fuel s call = some (.ok reply, t) →
        Reaches step anyStep t u →
          ∀ entropy record, u.AlongLineage entropy record ↔ ¬u.GoesBack record := by
  have hs : Intact s := Reaches.intact hrun intact_empty
  refine ⟨s.exec_returns, ?_, ?_, ?_, fun _ => hs.current, ?_⟩
  · intro keyId hstored
    obtain ⟨record, hload, hkeyId⟩ := hs.loadKey_of_isSome hstored
    refine ⟨record, hload, hkeyId, fun t ht => ?_⟩
    exact Reaches.keeps (P := fun x => x.loadKey keyId = .ok (some record)) ht hs
      Change.loadKey_eq hload
  · intro fuel call record t hexec
    exact (kept_exec hs hexec).returned record rfl
  · intro fuel call record t hgiven hnew reply hexec
    exact stored_of_given hs hgiven hnew hexec rfl
  · intro fuel call reply t u hcommits hexec hrun entropy record
    have ht : Intact t := (kept_exec hs hexec).change.intact hs
    have hcommitted : Committed t := committed_of_commits hs hcommits hexec rfl
    exact alongLineage_iff (Reaches.intact hrun ht)
      (Reaches.keeps hrun ht Change.committed hcommitted)

/-! ## An operation's key -/

/-- A provider that does not encrypt. -/
def plainCrypto : KeyCrypto where
  Ciphertext := MasterKeyPlaintext
  wrap _ _ key := key
  unwrap _ ciphertext := .ok ciphertext
  unwrap_wrap _ _ _ := rfl
  splitChildKeyId parent _ _ _ := parent.keyId
  deriveSplitChild key _ _ _ _ := key

def sampleScope : ClusterViewId := ⟨sampleUuid 0, 0⟩

lemma length_sampleKey (n : Byte) : (replicate 32 n).length = 32 := length_replicate

def sampleDraw (n : Byte) : Draw :=
  ⟨sampleUuid n, ⟨replicate 32 n, length_sampleKey n⟩, 0, 0⟩

/-- The key that operation 9 makes from the first one. -/
def operationKey : MasterKeyRecord :=
  ⟨⟨sampleUuid 2, 2, sampleScope, sampleScope, sampleUuid 8,
    (sampleUuid 9 : UuidKey), [sampleUuid 1], 0⟩, (sampleDraw 2).key⟩

/-- A node makes its first key, and prepares one for the operation. -/
def preparedStore : SecretMasterStore plainCrypto :=
  (runActions step anyStep .empty
    [(0, .ensureCurrentForNode (sampleDraw 1) sampleScope (sampleUuid 8)),
      (0, .prepareRotation (sampleDraw 2) sampleScope (sampleUuid 8)
        (sampleUuid 9 : UuidKey))]).getD .empty

/-- It activates the operation's key. -/
def activatedStore : SecretMasterStore plainCrypto :=
  ((exec 0 preparedStore (.activateCurrent 0 operationKey)).map Prod.snd).getD .empty

/-- It rotates that key. -/
def rotatedStore : SecretMasterStore plainCrypto :=
  (runActions step anyStep activatedStore
    [(0, .rotate (sampleDraw 3) sampleScope (sampleUuid 8))]).getD .empty

lemma reaches_preparedStore : Reaches step anyStep .empty preparedStore :=
  reaches_getD_runActions _ _ (by decide +kernel)

lemma reaches_rotatedStore : Reaches step anyStep activatedStore rotatedStore :=
  reaches_getD_runActions _ _ (by decide +kernel)

lemma exec_activatedStore : ∃ reply,
    exec 0 preparedStore (.activateCurrent 0 operationKey) = some (.ok reply, activatedStore) :=
  ⟨_, by rfl⟩

theorem master_key_replaced_along_lineage_sample :
    (∃ record, preparedStore.loadKey (sampleUuid 1) = .ok (some record) ∧
      rotatedStore.loadKey (sampleUuid 1) = .ok (some record)) ∧
    (rotatedStore.AlongLineage 0 operationKey ↔ ¬rotatedStore.GoesBack operationKey) := by
  have hmain := master_key_replaced_along_lineage plainCrypto preparedStore reaches_preparedStore
  obtain ⟨-, hkept, -, -, -, hlineage⟩ := hmain
  obtain ⟨reply, hexec⟩ := exec_activatedStore
  obtain ⟨record, hload, -, hruns⟩ := hkept (sampleUuid 1) (by decide +kernel)
  have hstep : step preparedStore (0, .activateCurrent 0 operationKey) = some activatedStore :=
    congrArg (Option.map Prod.snd) hexec
  refine ⟨⟨record, hload, hruns rotatedStore ?_⟩, ?_⟩
  · exact (Reaches.refl.tail trivial hstep).trans reaches_rotatedStore
  · exact hlineage 0 _ reply _ _ rfl hexec reaches_rotatedStore 0 operationKey

/-- It activates the operation's key again. -/
def reactivatedStore : SecretMasterStore plainCrypto :=
  ((exec 2 rotatedStore (.activateCurrent 0 operationKey)).map Prod.snd).getD .empty

/-- **Back to an ancestor.** After the operation's key has been activated and rotated, it is
activated again, although the current key descends from it. -/
theorem operation_key_reactivated :
    ∃ (s : SecretMasterStore plainCrypto) (fuel : ℕ) (call : Call) (reply : Option MasterKeyRecord)
      (t u : SecretMasterStore plainCrypto),
      Reaches step anyStep .empty s ∧ call.commits = true ∧
        exec fuel s call = some (.ok reply, t) ∧ Reaches step anyStep t u ∧
        ¬u.AlongLineage 0 operationKey := by
  obtain ⟨reply, hexec⟩ := exec_activatedStore
  refine ⟨preparedStore, 0, _, reply, activatedStore, rotatedStore,
    reaches_preparedStore, rfl, hexec, reaches_rotatedStore, fun halong => ?_⟩
  have hparents : (rotatedStore.loadWrappedKey (sampleUuid 3)).map
      (fun wrapped => wrapped.descriptor.parentKeyIds) = some [operationKey.keyId] := by
    decide +kernel
  have hcurrent : rotatedStore.currentKeyId = some (sampleUuid 3) := by
    decide +kernel
  obtain ⟨reply', hagain⟩ : ∃ reply, exec 2 rotatedStore (.activateCurrent 0 operationKey) =
      some (.ok reply, reactivatedStore) := ⟨_, by rfl⟩
  have hmoved : reactivatedStore.currentKeyId ≠ rotatedStore.currentKeyId := by
    decide +kernel
  obtain ⟨currentKeyId, hcur, -, -, hnot⟩ := halong 2 reply' reactivatedStore hagain hmoved
  obtain rfl := some.inj (hcurrent.symm.trans hcur)
  obtain ⟨wrapped, hload, hparent⟩ := map_eq_some_iff.mp hparents
  refine hnot ⟨wrapped, hload, operationKey.keyId, ?_, .refl⟩
  rw [hparent]
  exact mem_singleton_self _

end Mantissa.Secrets
