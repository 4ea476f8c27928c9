import Mantissa.Workload.Selection

/-!
# Gossip about one workload

A node learns about a workload it does not run from three kinds of events, which may arrive late, in
any order and more than once. `handleEvent` is what one of them does to the workload's register
when nothing else writes to it meanwhile.

What an owner publishes are the rows of one history: specifications whose causal tuples rise, their
statuses, and removals. The argument follows what a node has heard, as three sets: the statuses,
the epochs whose definition was heard, and the removals. `Summary` says which value the register
holds for each such knowledge, and that it holds no other (`Summary.unique`). Every event the
history produces keeps the summary (`Summary.handle`) as long as no status of a later epoch is
merged over a complete row, so two deliveries of the same events end alike, in whatever order.

A status that overtakes the specification of its own epoch breaks this: `late_definition_ignored`.
-/

namespace Mantissa.Workload

open List

/-! ## Events -/

/-- The events of `WorkloadEvent` that are about one workload. -/
inductive WorkloadEvent
  | upsertSpec (spec : WorkloadSpec)
  | upsertStatus (status : WorkloadStatus)
  | remove (id : Uuid) (taskEpoch : ℕ)

variable (rules : TextRules)

/-- What an event writes over the values it finds. -/
def eventWrite (values : List TaskRecord) : WorkloadEvent → Option TaskRecord
  | .upsertSpec spec => (upsertSpec rules values spec).bind (persistValue values)
  | .upsertStatus status => (upsertStatus rules values status).bind (persistValue values)
  | .remove id taskEpoch => removeSpecThroughEpoch rules values id taskEpoch

/-- The values after an event: a write is all that is visible then. -/
def valuesAfter (values : List TaskRecord) (event : WorkloadEvent) : List TaskRecord :=
  (eventWrite rules values event).elim values fun record => [record]

section Register

variable [LinearOrder TaskRecord] (actor : Uuid) (reg : MvReg TaskRecord Uuid)

/-- `handle_event` on the register of the workload. -/
def handleEvent (event : WorkloadEvent) :
    MvReg TaskRecord Uuid :=
  (eventWrite rules reg.snapshot.vals event).elim reg (reg.write actor)

/-- Events handled one after the other. -/
def deliver : MvReg TaskRecord Uuid → List WorkloadEvent → MvReg TaskRecord Uuid :=
  List.foldl (handleEvent rules actor)

/-- The row the node goes by. -/
def selectedRow : Option WorkloadValue :=
  selectBestWorkloadValue rules reg.snapshot.vals

lemma vals_handleEvent (event : WorkloadEvent) :
    (handleEvent rules actor reg event).snapshot.vals =
      valuesAfter rules reg.snapshot.vals event := by
  unfold handleEvent valuesAfter
  cases eventWrite rules reg.snapshot.vals event with
  | none => rfl
  | some record => exact reg.vals_snapshot_write actor record

lemma vals_deliver (events : List WorkloadEvent) (reg : MvReg TaskRecord Uuid) :
    (deliver rules actor reg events).snapshot.vals =
      events.foldl (valuesAfter rules) reg.snapshot.vals := by
  induction events generalizing reg with
  | nil => rfl
  | cons event events ih =>
    rw [foldl_cons, ← vals_handleEvent rules actor]
    exact ih _

/-- A status is not handled while the row is complete and of an earlier epoch. -/
def keepsDefinition : WorkloadEvent → Bool
  | .upsertStatus status => !(selectedRow rules reg).any fun current =>
    current.definitionComplete && current.status.taskEpoch < status.taskEpoch
  | _ => true

/-- A delivery in which every event is handled in such a state. -/
def KeepsDefinitions (actor : Uuid) : MvReg TaskRecord Uuid → List WorkloadEvent → Prop
  | _, [] => True
  | reg, event :: events =>
    keepsDefinition rules reg event = true ∧
      KeepsDefinitions actor (handleEvent rules actor reg event) events

end Register

/-! ## What an owner publishes -/

/-- The rows an owner gave its workload, each newer than those before. -/
structure OwnerHistory where
  id : Uuid
  specs : List WorkloadSpec
  sameId : ∀ spec ∈ specs, spec.status.id = id
  ordered : specs.Pairwise fun older newer =>
    causalKey rules older.status < causalKey rules newer.status

variable {rules}

namespace OwnerHistory

/-- The events such a history gives rise to. -/
def Produces (history : OwnerHistory rules) : WorkloadEvent → Prop
  | .upsertSpec spec => spec ∈ history.specs
  | .upsertStatus status => ∃ spec ∈ history.specs, spec.status = status
  | .remove id taskEpoch => id = history.id ∧ ∃ spec ∈ history.specs,
      spec.status.taskEpoch = taskEpoch

/-- What a register of the workload may hold: a full row, a row made from a status, a removal, or
nothing yet. -/
def Stores (history : OwnerHistory rules) (values : List TaskRecord) : Prop :=
  values = [] ∨ ∃ spec ∈ history.specs,
    values = [.workload (specToValue spec)] ∨
    values = [.workload (mergeStatusIntoValue none spec.status)] ∨
    values = [.removal ⟨history.id, spec.status.taskEpoch⟩]

/-- Within one epoch only the lifecycle moves, and no two rows differ in the time of the update
alone. -/
structure Steady (history : OwnerHistory rules) : Prop where
  definition : ∀ a ∈ history.specs, ∀ b ∈ history.specs, a.status.taskEpoch = b.status.taskEpoch →
    (specToValue a).definition = (specToValue b).definition
  lifecycle : ∀ a ∈ history.specs, ∀ b ∈ history.specs, a.status.taskEpoch = b.status.taskEpoch →
    a.status.withLifecycle b.status = b.status
  distinct : ∀ a ∈ history.specs, ∀ b ∈ history.specs,
    { a.status with updatedAt := b.status.updatedAt } = b.status → a = b

/-- The causal tuple tells the rows of a history apart. -/
lemma eq_of_causalKey_eq (history : OwnerHistory rules) {a b : WorkloadSpec}
    (ha : a ∈ history.specs) (hb : b ∈ history.specs)
    (h : causalKey rules a.status = causalKey rules b.status) : a = b := by
  have hnodup : (history.specs.map fun spec => causalKey rules spec.status).Nodup :=
    pairwise_map.mpr (history.ordered.imp fun h => h.ne)
  exact inj_on_of_nodup_map hnodup ha hb h

end OwnerHistory

/-! ## What a node has heard -/

/-- The statuses a node has heard, the epochs it has heard a definition of, and the removals. -/
@[ext] structure Knowledge where
  statuses : Set WorkloadStatus
  full : Set ℕ
  removed : Set ℕ

variable (start : Knowledge)

/-- The knowledge after some events. -/
def Knowledge.after (events : List WorkloadEvent) : Knowledge where
  statuses := start.statuses ∪
    {status | (∃ spec, .upsertSpec spec ∈ events ∧ spec.status = status) ∨
      .upsertStatus status ∈ events}
  full := start.full ∪ {epoch | ∃ spec, .upsertSpec spec ∈ events ∧ spec.status.taskEpoch = epoch}
  removed := start.removed ∪ {epoch | ∃ id, .remove id epoch ∈ events}

lemma Knowledge.after_cons (event : WorkloadEvent) (events : List WorkloadEvent) :
    start.after (event :: events) = (start.after [event]).after events := by
  ext x <;> simp only [Knowledge.after, Set.mem_union, Set.mem_ofPred_eq, mem_cons,
    or_and_right, exists_or, not_mem_nil, or_false, or_assoc, or_left_comm]

section Heard

variable (spec : WorkloadSpec) (status : WorkloadStatus) (id epoch : ℕ)

lemma Knowledge.after_spec : start.after [.upsertSpec spec] =
    ⟨insert spec.status start.statuses, insert spec.status.taskEpoch start.full,
      start.removed⟩ := by
  ext x <;> simp [Knowledge.after, eq_comm]

lemma Knowledge.after_status : start.after [.upsertStatus status] =
    ⟨insert status start.statuses, start.full, start.removed⟩ := by
  ext x <;> simp [Knowledge.after]

lemma Knowledge.after_remove : start.after [.remove id epoch] =
    ⟨start.statuses, start.full, insert epoch start.removed⟩ := by
  ext x <;> simp [Knowledge.after]

end Heard

variable {history : OwnerHistory rules} {k : Knowledge} {values values' : List TaskRecord}
variable {a b : WorkloadStatus} {epoch : ℕ}

/-- Everything heard is of the history, and a definition was heard with a status of its epoch. -/
structure Knowledge.Of (k : Knowledge) (history : OwnerHistory rules) : Prop where
  statuses : ∀ status ∈ k.statuses, ∃ spec ∈ history.specs, spec.status = status
  full : ∀ epoch ∈ k.full, ∃ status ∈ k.statuses, status.taskEpoch = epoch

/-- The newest status heard, if no removal covers it. -/
structure Knowledge.Newest (rules : TextRules) (k : Knowledge) (status : WorkloadStatus) :
    Prop where
  mem : status ∈ k.statuses
  max : ∀ other ∈ k.statuses, causalKey rules other ≤ causalKey rules status
  removed : ∀ n ∈ k.removed, n < status.taskEpoch

/-- The removal that reaches furthest, if it covers everything heard. -/
structure Knowledge.Covers (k : Knowledge) (epoch : ℕ) : Prop where
  mem : epoch ∈ k.removed
  max : ∀ n ∈ k.removed, n ≤ epoch
  statuses : ∀ status ∈ k.statuses, status.taskEpoch ≤ epoch

/-- What the register holds: the removal that covers everything heard, or the newest status, with
the definition of its epoch if that was heard. -/
inductive Summary (history : OwnerHistory rules) (k : Knowledge) : List TaskRecord → Prop
  | nothing (hstatuses : k.statuses = ∅) (hremoved : k.removed = ∅) : Summary history k []
  | removed {epoch : ℕ} (hcovers : k.Covers epoch) :
    Summary history k [.removal ⟨history.id, epoch⟩]
  | incomplete {status : WorkloadStatus} (hnewest : k.Newest rules status)
      (hfull : status.taskEpoch ∉ k.full) :
        Summary history k [.workload ⟨status, .placeholder, false⟩]
  | complete {spec : WorkloadSpec} (hspec : spec ∈ history.specs)
      (hnewest : k.Newest rules spec.status) (hfull : spec.status.taskEpoch ∈ k.full) :
      Summary history k [.workload (specToValue spec)]

/-- The newest status of a history is one row's. -/
lemma Knowledge.Newest.eq (hk : k.Of history) (ha : k.Newest rules a) (hb : k.Newest rules b) :
    a = b := by
  obtain ⟨x, hx, rfl⟩ := hk.statuses a ha.mem
  obtain ⟨y, hy, rfl⟩ := hk.statuses b hb.mem
  rw [history.eq_of_causalKey_eq hx hy (le_antisymm (hb.max _ ha.mem) (ha.max _ hb.mem))]

lemma Knowledge.Newest.not_covers (h : k.Newest rules a) : ¬ k.Covers epoch :=
  fun hcovers => (hcovers.statuses a h.mem).not_gt (h.removed epoch hcovers.mem)

lemma Knowledge.Newest.statuses_ne (h : k.Newest rules a) : k.statuses ≠ ∅ :=
  Set.Nonempty.ne_empty ⟨a, h.mem⟩

lemma Knowledge.Covers.removed_ne (h : k.Covers epoch) : k.removed ≠ ∅ :=
  Set.Nonempty.ne_empty ⟨epoch, h.mem⟩

/-- **What was heard determines the register.** -/
lemma Summary.unique (hk : k.Of history) (h : Summary history k values)
    (h' : Summary history k values') : values = values' := by
  cases h with
  | nothing hstatuses hremoved =>
    cases h' with
    | nothing => rfl
    | removed hcovers => exact absurd hremoved hcovers.removed_ne
    | incomplete hnewest => exact absurd hstatuses hnewest.statuses_ne
    | complete _ hnewest => exact absurd hstatuses hnewest.statuses_ne
  | removed hcovers =>
    cases h' with
    | nothing _ hremoved => exact absurd hremoved hcovers.removed_ne
    | removed hcovers' =>
      rw [le_antisymm (hcovers'.max _ hcovers.mem) (hcovers.max _ hcovers'.mem)]
    | incomplete hnewest => exact absurd hcovers hnewest.not_covers
    | complete _ hnewest => exact absurd hcovers hnewest.not_covers
  | incomplete hnewest hfull =>
    cases h' with
    | nothing hstatuses => exact absurd hstatuses hnewest.statuses_ne
    | removed hcovers => exact absurd hcovers hnewest.not_covers
    | incomplete hnewest' => rw [hnewest.eq hk hnewest']
    | complete _ hnewest' hfull' => exact absurd (hnewest.eq hk hnewest' ▸ hfull') hfull
  | complete hspec hnewest hfull =>
    cases h' with
    | nothing hstatuses => exact absurd hstatuses hnewest.statuses_ne
    | removed hcovers => exact absurd hcovers hnewest.not_covers
    | incomplete hnewest' hfull' => exact absurd (hnewest.eq hk hnewest' ▸ hfull) hfull'
    | complete hspec' hnewest' =>
      rw [history.eq_of_causalKey_eq hspec hspec' (congrArg _ (hnewest.eq hk hnewest'))]

/-! ## Handling one event -/

section Row

variable (current : WorkloadValue)

/-- A specification that finds one row. -/
lemma valuesAfter_spec_row (spec : WorkloadSpec) :
    valuesAfter rules [.workload current] (.upsertSpec spec) =
      [.workload (if workloadValuesMatch current (specToValue spec) then current
        else if causalKey rules current.status < causalKey rules spec.status then specToValue spec
        else if current.definitionComplete = false ∧
          current.status.taskEpoch =
            spec.status.taskEpoch then mergeDefinitionIntoValue current spec
        else current)] := by
  simp only [valuesAfter, eventWrite, upsertSpec, covered_row, selectBestWorkloadValue_row,
    Bool.false_eq_true, if_false, compareWorkloadCausality_isGT, Bool.and_eq_true,
    Bool.not_eq_true', beq_iff_eq, status_specToValue]
  split_ifs <;> rfl

/-- A status that finds one row. -/
lemma valuesAfter_status_row (status : WorkloadStatus) :
    valuesAfter rules [.workload current] (.upsertStatus status) =
      [.workload (if causalKey rules current.status < causalKey rules status then
        { current with status } else current)] := by
  simp only [valuesAfter, eventWrite, upsertStatus, covered_row, selectBestWorkloadValue_row,
    Bool.false_eq_true, if_false, Option.any_some, Bool.not_eq_true', ← Bool.not_eq_true,
    compareWorkloadCausality_isGT]
  split_ifs <;> rfl

/-- A removal that finds one row. -/
lemma valuesAfter_remove_row (id epoch : ℕ) :
    valuesAfter rules [.workload current] (.remove id epoch) =
      [if epoch < current.status.taskEpoch then .workload current else .removal ⟨id, epoch⟩] := by
  simp only [valuesAfter, eventWrite, removeSpecThroughEpoch, selectBestWorkloadValue_row,
    Option.any_some, decide_eq_true_eq, covered_row, Bool.false_eq_true, if_false]
  split_ifs <;> rfl

end Row

section Removal

variable (id stored : ℕ)

/-- A specification that finds a removal. -/
lemma valuesAfter_spec_removal (spec : WorkloadSpec) :
    valuesAfter rules [.removal ⟨id, stored⟩] (.upsertSpec spec) =
      [if spec.status.taskEpoch ≤ stored then .removal ⟨id, stored⟩
        else .workload (specToValue spec)] := by
  split_ifs with hle <;>
    simp [valuesAfter, eventWrite, upsertSpec, persistValue, specToValue, hle]

/-- A status that finds a removal. -/
lemma valuesAfter_status_removal (status : WorkloadStatus) :
    valuesAfter rules [.removal ⟨id, stored⟩] (.upsertStatus status) =
      [if status.taskEpoch ≤ stored then .removal ⟨id, stored⟩
        else .workload ⟨status, .placeholder, false⟩] := by
  split_ifs with hle <;>
    simp [valuesAfter, eventWrite, upsertStatus, persistValue, mergeStatusIntoValue, hle]

/-- A removal that finds another. -/
lemma valuesAfter_remove_removal (epoch : ℕ) :
    valuesAfter rules [.removal ⟨id, stored⟩] (.remove id epoch) =
      [.removal ⟨id, if epoch ≤ stored then stored else epoch⟩] := by
  split_ifs with hle <;> simp [valuesAfter, eventWrite, removeSpecThroughEpoch, hle]

end Removal

lemma taskEpoch_le_of_causalKey_le
    (h : causalKey rules a ≤ causalKey rules b) : a.taskEpoch ≤ b.taskEpoch :=
  taskEpoch_le_of_rowVersion_le (rowVersion_le_of_causalKey_le rules h)

lemma causalKey_lt_of_taskEpoch_lt (h : a.taskEpoch < b.taskEpoch) :
    causalKey rules a < causalKey rules b :=
  not_le.mp fun hle => (taskEpoch_le_of_causalKey_le hle).not_gt h

namespace Knowledge

/-! A status `b` is heard, alone or with its specification. -/

variable (full : Set ℕ)

lemma newest_of_nothing (hstatuses : k.statuses = ∅) (hremoved : k.removed = ∅) :
    Newest rules ⟨insert b k.statuses, full, k.removed⟩ b := by
  refine ⟨.inl rfl, ?_, ?_⟩
  · simp [hstatuses]
  · simp [hremoved]

lemma Newest.keep (h : k.Newest rules a) (hle : causalKey rules b ≤ causalKey rules a) :
    Newest rules ⟨insert b k.statuses, full, k.removed⟩ a :=
  ⟨.inr h.mem, Set.forall_mem_insert.mpr ⟨hle, h.max⟩, h.removed⟩

lemma Newest.replaced (h : k.Newest rules a) (hle : causalKey rules a ≤ causalKey rules b) :
    Newest rules ⟨insert b k.statuses, full, k.removed⟩ b where
  mem := .inl rfl
  max := Set.forall_mem_insert.mpr ⟨le_rfl, fun other hother => (h.max other hother).trans hle⟩
  removed n hn := (h.removed n hn).trans_le (taskEpoch_le_of_causalKey_le hle)

lemma Covers.keep (h : k.Covers epoch) (hle : b.taskEpoch ≤ epoch) :
    Covers ⟨insert b k.statuses, full, k.removed⟩ epoch :=
  ⟨h.mem, h.max, Set.forall_mem_insert.mpr ⟨hle, h.statuses⟩⟩

lemma Covers.replaced (h : k.Covers epoch) (hlt : epoch < b.taskEpoch) :
    Newest rules ⟨insert b k.statuses, full, k.removed⟩ b where
  mem := .inl rfl
  max := Set.forall_mem_insert.mpr ⟨le_rfl, fun other hother =>
    (causalKey_lt_of_taskEpoch_lt ((h.statuses other hother).trans_lt hlt)).le⟩
  removed n hn := (h.max n hn).trans_lt hlt

lemma Of.spec (hk : k.Of history) {spec : WorkloadSpec} (hspec : spec ∈ history.specs) :
    (k.after [.upsertSpec spec]).Of history := by
  rw [after_spec]
  refine ⟨Set.forall_mem_insert.mpr ⟨⟨spec, hspec, rfl⟩, hk.statuses⟩,
    Set.forall_mem_insert.mpr ⟨⟨spec.status, .inl rfl, rfl⟩, fun epoch hepoch => ?_⟩⟩
  obtain ⟨status, hstatus, heq⟩ := hk.full epoch hepoch
  exact ⟨status, .inr hstatus, heq⟩

lemma Of.status (hk : k.Of history) {status : WorkloadStatus}
    (hstatus : ∃ spec ∈ history.specs, spec.status = status) :
    (k.after [.upsertStatus status]).Of history := by
  rw [after_status]
  refine ⟨Set.forall_mem_insert.mpr ⟨hstatus, hk.statuses⟩, fun epoch hepoch => ?_⟩
  obtain ⟨other, hother, heq⟩ := hk.full epoch hepoch
  exact ⟨other, .inr hother, heq⟩

end Knowledge

/-- A specification becomes the row when it is newer, and completes a row of its own epoch. -/
lemma Summary.spec (hsteady : history.Steady) (hk : k.Of history) (h : Summary history k values)
    {spec : WorkloadSpec} (hspec : spec ∈ history.specs) :
    Summary history (k.after [.upsertSpec spec]) (valuesAfter rules values (.upsertSpec spec)) := by
  rw [Knowledge.after_spec]
  cases h with
  | nothing hstatuses hremoved =>
    exact .complete hspec (Knowledge.newest_of_nothing _ hstatuses hremoved) (.inl rfl)
  | removed hcovers =>
    rw [valuesAfter_spec_removal]
    split_ifs with hle
    · exact .removed (hcovers.keep _ hle)
    · exact .complete hspec (hcovers.replaced _ (not_le.mp hle)) (.inl rfl)
  | @incomplete status hnewest hfull =>
    rw [valuesAfter_spec_row, if_neg (by simp [workloadValuesMatch, specToValue])]
    obtain ⟨row, hrow, rfl⟩ := hk.statuses status hnewest.mem
    split_ifs with hnewer hsame
    · exact .complete hspec (hnewest.replaced _ hnewer.le) (.inl rfl)
    · -- the late definition of the epoch the status is of
      have heq : mergeDefinitionIntoValue ⟨row.status, .placeholder, false⟩ spec =
          specToValue row := by
        rw [mergeDefinitionIntoValue, hsteady.lifecycle spec hspec row hrow hsame.2.symm,
          hsteady.definition spec hspec row hrow hsame.2.symm]
        rfl
      rw [heq]
      exact .complete hrow (hnewest.keep _ (not_lt.mp hnewer)) (.inl hsame.2)
    · refine .incomplete (hnewest.keep _ (not_lt.mp hnewer)) ?_
      rintro (heq | hmem)
      · exact hsame ⟨rfl, heq⟩
      · exact hfull hmem
  | @complete row hrow hnewest hfull =>
    rw [valuesAfter_spec_row]
    split_ifs with hmatch hnewer hsame
    · -- the row and the specification agree but for the time, so they are one
      obtain ⟨hstatus, -⟩ := of_decide_eq_true hmatch
      obtain rfl := hsteady.distinct row hrow spec hspec hstatus
      exact .complete hrow (hnewest.keep _ le_rfl) (.inl rfl)
    · exact .complete hspec (hnewest.replaced _ hnewer.le) (.inl rfl)
    · exact absurd hsame.1 (by simp [specToValue])
    · exact .complete hrow (hnewest.keep _ (not_lt.mp hnewer)) (.inr hfull)

/-- A newer status moves the row on. It keeps the definition, which is that of its epoch unless a
complete row of an earlier one was stored. -/
lemma Summary.status (hsteady : history.Steady) (hk : k.Of history) (h : Summary history k values)
    {status : WorkloadStatus} (hstatus : ∃ spec ∈ history.specs, spec.status = status)
    (hkeeps : ∀ row, values = [.workload row] → row.definitionComplete = true →
      status.taskEpoch ≤ row.status.taskEpoch) : Summary history (k.after [.upsertStatus status])
      (valuesAfter rules values (.upsertStatus status)) := by
  rw [Knowledge.after_status]
  cases h with
  | nothing hstatuses hremoved =>
    refine .incomplete (Knowledge.newest_of_nothing _ hstatuses hremoved) fun hfull => ?_
    obtain ⟨other, hother, -⟩ := hk.full _ hfull
    exact hstatuses.subset hother
  | removed hcovers =>
    rw [valuesAfter_status_removal]
    split_ifs with hle
    · exact .removed (hcovers.keep _ hle)
    · refine .incomplete (hcovers.replaced _ (not_le.mp hle)) fun hfull => hle ?_
      obtain ⟨other, hother, heq⟩ := hk.full _ hfull
      exact heq ▸ hcovers.statuses other hother
  | @incomplete row hnewest hfull =>
    rw [valuesAfter_status_row]
    split_ifs with hnewer
    · refine .incomplete (hnewest.replaced _ hnewer.le) fun hmemfull => hfull ?_
      -- a definition of this epoch came with a status of it, which is not newer than the row's
      obtain ⟨other, hother, heq⟩ := hk.full _ hmemfull
      have hle := taskEpoch_le_of_causalKey_le (hnewest.max other hother)
      have hge := taskEpoch_le_of_causalKey_le hnewer.le
      exact (le_antisymm (heq ▸ hle) hge) ▸ hmemfull
    · exact .incomplete (hnewest.keep _ (not_lt.mp hnewer)) hfull
  | @complete row hrow hnewest hfull =>
    rw [valuesAfter_status_row]
    split_ifs with hnewer
    · obtain ⟨spec, hspec, rfl⟩ := hstatus
      have hepoch : spec.status.taskEpoch = row.status.taskEpoch :=
        le_antisymm (hkeeps _ rfl rfl) (taskEpoch_le_of_causalKey_le hnewer.le)
      have hvalue : ({ specToValue row with status := spec.status } : WorkloadValue)
          = specToValue spec := by
        dsimp only
        rw [hsteady.definition row hrow spec hspec hepoch.symm]
        rfl
      rw [hvalue]
      exact .complete hspec (hnewest.replaced _ hnewer.le) (hepoch ▸ hfull)
    · exact .complete hrow (hnewest.keep _ (not_lt.mp hnewer)) hfull

section Remove

variable {full : Set ℕ}

lemma Knowledge.Newest.keep_remove (h : k.Newest rules a) (hlt : epoch < a.taskEpoch) :
    Newest rules ⟨k.statuses, full, insert epoch k.removed⟩ a :=
  ⟨h.mem, h.max, Set.forall_mem_insert.mpr ⟨hlt, h.removed⟩⟩

/-- The newest status is covered, so all are. -/
lemma Knowledge.Newest.covered (h : k.Newest rules a) (hge : ¬ epoch < a.taskEpoch) :
    Covers ⟨k.statuses, full, insert epoch k.removed⟩ epoch where
  mem := .inl rfl
  max := Set.forall_mem_insert.mpr ⟨le_rfl, fun n hn => (h.removed n hn).le.trans (not_lt.mp hge)⟩
  statuses other hother :=
    (taskEpoch_le_of_causalKey_le (h.max other hother)).trans (not_lt.mp hge)

/-- A removal is stored unless something newer is. -/
lemma Summary.remove (h : Summary history k values) (epoch : ℕ) :
    Summary history (k.after [.remove history.id epoch])
      (valuesAfter rules values (.remove history.id epoch)) := by
  rw [Knowledge.after_remove]
  cases h with
  | nothing hstatuses hremoved =>
    refine .removed ⟨.inl rfl, ?_, ?_⟩
    · simp [hremoved]
    · simp [hstatuses]
  | @removed stored hcovers =>
    rw [valuesAfter_remove_removal]
    refine .removed ?_
    split_ifs with hle
    · exact ⟨.inr hcovers.mem, Set.forall_mem_insert.mpr ⟨hle, hcovers.max⟩, hcovers.statuses⟩
    · have hlt := (not_le.mp hle).le
      exact ⟨.inl rfl, Set.forall_mem_insert.mpr ⟨le_rfl, fun n hn => (hcovers.max n hn).trans hlt⟩,
        fun other hother => (hcovers.statuses other hother).trans hlt⟩
  | incomplete hnewest hfull =>
    rw [valuesAfter_remove_row]
    split_ifs with hlt
    · exact .incomplete (hnewest.keep_remove hlt) hfull
    · exact .removed (hnewest.covered hlt)
  | complete hspec hnewest hfull =>
    rw [valuesAfter_remove_row]
    split_ifs with hlt
    · exact .complete hspec (hnewest.keep_remove hlt) hfull
    · exact .removed (hnewest.covered hlt)

end Remove

/-- A stored row is what a node holds that has heard just that. -/
lemma OwnerHistory.Stores.summary (h : history.Stores values) :
    ∃ k : Knowledge, k.Of history ∧ Summary history k values := by
  rcases h with rfl | ⟨spec, hspec, rfl | rfl | rfl⟩
  · refine ⟨⟨∅, ∅, ∅⟩, ⟨?_, ?_⟩, .nothing rfl rfl⟩ <;> simp
  · refine ⟨⟨{spec.status}, {spec.status.taskEpoch}, ∅⟩, ⟨?_, ?_⟩,
      .complete hspec ⟨rfl, ?_, ?_⟩ rfl⟩
    · simpa using ⟨spec, hspec, rfl⟩
    all_goals simp
  · refine ⟨⟨{spec.status}, ∅, ∅⟩, ⟨?_, ?_⟩, .incomplete ⟨rfl, ?_, ?_⟩ (Set.notMem_empty _)⟩
    · simpa using ⟨spec, hspec, rfl⟩
    all_goals simp
  · refine ⟨⟨∅, ∅, {spec.status.taskEpoch}⟩, ⟨?_, ?_⟩, .removed ⟨rfl, ?_, ?_⟩⟩ <;> simp

/-! ## Handling all of them -/

section Deliver

variable [LinearOrder TaskRecord]

/-- **One event of the history keeps the summary.** -/
lemma Summary.handle (hsteady : history.Steady) (actor : Uuid) {reg : MvReg TaskRecord Uuid}
    (hk : k.Of history) (h : Summary history k reg.snapshot.vals) {event : WorkloadEvent}
    (hproduced : history.Produces event) (hkeeps : keepsDefinition rules reg event = true) :
    (k.after [event]).Of history ∧
      Summary history (k.after [event]) (handleEvent rules actor reg event).snapshot.vals := by
  rw [vals_handleEvent]
  cases event with
  | upsertSpec spec => exact ⟨hk.spec hproduced, h.spec hsteady hk hproduced⟩
  | upsertStatus status =>
    refine ⟨hk.status hproduced, h.status hsteady hk hproduced ?_⟩
    intro row hrow hcomplete
    simp only [keepsDefinition, selectedRow, hrow, selectBestWorkloadValue_row, Option.any_some,
      hcomplete, Bool.true_and, Bool.not_eq_true', decide_eq_false_iff_not, not_lt] at hkeeps
    exact hkeeps
  | remove id epoch =>
    obtain ⟨rfl, hepoch⟩ := hproduced
    refine ⟨?_, h.remove epoch⟩
    rw [Knowledge.after_remove]
    exact ⟨hk.statuses, hk.full⟩

/-- All events of a delivery keep it. -/
lemma Summary.deliver (hsteady : history.Steady) (actor : Uuid) :
    ∀ (events : List WorkloadEvent) {k : Knowledge} {reg : MvReg TaskRecord Uuid}, k.Of history →
      Summary history k reg.snapshot.vals → (∀ event ∈ events, history.Produces event) →
      KeepsDefinitions rules actor reg events → (k.after events).Of history ∧
        Summary history (k.after events) (deliver rules actor reg events).snapshot.vals := by
  intro events
  induction events with
  | nil =>
    intro k reg hk h _ _
    rw [show k.after [] = k by ext <;> simp [Knowledge.after]]
    exact ⟨hk, h⟩
  | cons event events ih =>
    intro k reg hk h hproduced hkeeps
    obtain ⟨hk', h'⟩ := h.handle hsteady actor hk (hproduced event (mem_cons_self ..)) hkeeps.1
    rw [Knowledge.after_cons]
    exact ih hk' h' (fun e he => hproduced e (mem_cons_of_mem event he)) hkeeps.2

/-- **Gossip order.** Two deliveries of the same events of a steady history, from the same stored
row and without a status over a complete row of an earlier epoch, select the same row; and a
complete row has the definition of its own epoch. -/
theorem gossip_order_irrelevant (history : OwnerHistory rules) (hsteady : history.Steady)
    (actor : Uuid) {reg : MvReg TaskRecord Uuid} (hstart : history.Stores reg.snapshot.vals)
    {events events' : List WorkloadEvent} (hproduced : ∀ event ∈ events, history.Produces event)
    (hsame : ∀ event, event ∈ events ↔ event ∈ events')
    (hkeeps : KeepsDefinitions rules actor reg events)
    (hkeeps' : KeepsDefinitions rules actor reg events') :
    selectedRow rules (deliver rules actor reg events) =
      selectedRow rules (deliver rules actor reg events') ∧
    ∀ row, selectedRow rules (deliver rules actor reg events) = some row →
      row.definitionComplete = true → ∃ spec ∈ history.specs,
        spec.status.taskEpoch = row.status.taskEpoch ∧
        row.definition = (specToValue spec).definition := by
  obtain ⟨k, hk, hsummary⟩ := hstart.summary
  obtain ⟨hk₁, h₁⟩ := hsummary.deliver hsteady actor events hk hproduced hkeeps
  obtain ⟨-, h₂⟩ := hsummary.deliver hsteady actor events' hk
    (fun event hevent => hproduced event ((hsame event).mpr hevent)) hkeeps'
  have hafter : k.after events = k.after events' := by
    ext x <;> simp only [Knowledge.after, hsame]
  rw [← hafter] at h₂
  refine ⟨congrArg (selectBestWorkloadValue rules) (h₁.unique hk₁ h₂), ?_⟩
  intro row hrow hcomplete
  unfold selectedRow at hrow
  generalize (deliver rules actor reg events).snapshot.vals = values at h₁ hrow
  cases h₁ with
  | nothing => cases hrow
  | removed => cases hrow
  | incomplete =>
    cases hrow
    cases hcomplete
  | @complete spec hspec =>
    cases hrow
    exact ⟨spec, hspec, rfl, rfl⟩

end Deliver

/-! ## A status ahead of its specification -/

/-- No time stamp parses and no text is blank. -/
def plainRules : TextRules := ⟨fun _ => none, fun _ => false⟩

/-- A row of workload 7 on node 1. -/
def gossipSpec (taskEpoch : ℕ) (slotIds : List Scheduler.SlotId) : WorkloadSpec where
  status :=
    { id := 7, name := "web", image := "web", executionPlatform := .oci, isolationMode := .standard
      isolationProfile := none, state := .pending, phaseReason := none, phaseProgress := none
      createdAt := "", updatedAt := "", nodeId := 1, nodeName := "n", owner := none, taskEpoch
      phaseVersion := 0, launchAttempt := 0, lastTerminalObservedLaunch := none }
  definition := { WorkloadDefinition.placeholder with slotIds }

/-- The workload moves from slot 3 to slot 4 and gets a new epoch. -/
def movedHistory : OwnerHistory plainRules where
  id := 7
  specs := [gossipSpec 1 [3], gossipSpec 2 [4]]
  sameId := by decide
  ordered := by decide

lemma movedHistory_steady : movedHistory.Steady where
  definition := by decide
  lifecycle := by decide
  distinct := by decide

/-- A node without a row, told of the second epoch in either order. -/
theorem gossip_order_irrelevant_moved :
    letI := someOrder TaskRecord
    selectedRow plainRules (deliver plainRules 1 .new
        [.upsertStatus (gossipSpec 2 [4]).status, .upsertSpec (gossipSpec 2 [4])]) =
      selectedRow plainRules (deliver plainRules 1 .new
        [.upsertSpec (gossipSpec 2 [4]), .upsertStatus (gossipSpec 2 [4]).status]) := by
  let _ := someOrder TaskRecord
  refine (gossip_order_irrelevant movedHistory movedHistory_steady 1 (.inl rfl) ?_ ?_ ?_ ?_).1
  · simp [OwnerHistory.Produces, movedHistory]
  · simp [or_comm]
  · refine ⟨rfl, rfl, trivial⟩
  · refine ⟨rfl, ?_, trivial⟩
    unfold keepsDefinition selectedRow
    rfl

/-- **A definition that comes late is lost.** A node holds the complete row of the first epoch. If
the status of the second epoch reaches it before the specification does, the row of the second epoch
keeps the definition of the first and stays marked complete, so that the specification is then
ignored; in the other order the row has the right definition. -/
theorem late_definition_ignored :
    letI := someOrder TaskRecord
    ∃ (reg : MvReg TaskRecord Uuid) (events events' : List WorkloadEvent) (row : WorkloadValue),
      movedHistory.Steady ∧ movedHistory.Stores reg.snapshot.vals ∧
      (∀ event ∈ events, movedHistory.Produces event) ∧
      (∀ event, event ∈ events ↔ event ∈ events') ∧
      selectedRow plainRules (deliver plainRules 1 reg events) ≠
        selectedRow plainRules (deliver plainRules 1 reg events') ∧
      selectedRow plainRules (deliver plainRules 1 reg events) = some row ∧
      row.definitionComplete = true ∧
      ∀ spec ∈ movedHistory.specs, spec.status.taskEpoch = row.status.taskEpoch →
        row.definition ≠ (specToValue spec).definition := by
  let _ := someOrder TaskRecord
  let reg : MvReg TaskRecord Uuid := MvReg.new.write 1 (.workload (specToValue (gossipSpec 1 [3])))
  let status := WorkloadEvent.upsertStatus (gossipSpec 2 [4]).status
  let spec := WorkloadEvent.upsertSpec (gossipSpec 2 [4])
  have hreg : reg.snapshot.vals = [.workload (specToValue (gossipSpec 1 [3]))] :=
    MvReg.vals_snapshot_write _ _ _
  refine ⟨reg, [status, spec], [spec, status],
    { specToValue (gossipSpec 1 [3]) with status := (gossipSpec 2 [4]).status },
    movedHistory_steady, .inr ⟨gossipSpec 1 [3], mem_cons_self .., .inl hreg⟩,
    ?_, ?_, ?_, ?_, rfl, ?_⟩
  · simp [OwnerHistory.Produces, movedHistory, status, spec]
  · simp [or_comm]
  · unfold selectedRow
    decide
  · unfold selectedRow
    rw [vals_deliver, hreg]
    rfl
  · decide

end Mantissa.Workload
