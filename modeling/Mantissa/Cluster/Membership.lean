import Mantissa.Cluster.Operations
import Mantissa.Core.Regroup

/-!
# The projected memberships

A split or a merge regroups nodes: `ClusterOperationRecord.regroup` says which views it dissolves,
which it creates and which one the nodes join. The replay carries out the operations of a history
one by one, each after those it depends on, and its map of views is at every moment what the
operations so far amount to (`Replayed`). Therefore it cannot get stuck, and neither the order of
the operations nor their time stamps matter (`projected_memberships_partition`).

Two operations with the same source are not excluded by their dependencies. The one that comes
first in lineage order takes the source away from the other (`shared_source_depends_on_times`).
-/

namespace Mantissa.Cluster

open ClusterOperationRecord List Function

open Regroup (Live Member Closed Next Partitioned ConsumedOnce History)

/-- What an operation does to the groups of nodes. -/
def ClusterOperationRecord.regroup (operation : ClusterOperationRecord) :
    Regroup ClusterViewId Uuid Uuid where
  id := operation.id
  dependencies := {id | id ∈ operation.dependencyOperationIds}
  consumed := {view | view ∈ operation.sourceViews ∧
    (operation.kind = .merge → operation.targetViews.head? ≠ some view)}
  created := fun view =>
    if operation.kind = .split ∧ view ∈ operation.targetViews then
      some {node | ∃ index, operation.targetViews[index]? = some view ∧
        ⟨node, index⟩ ∈ operation.splitAssignments}
    else none
  joined := if operation.kind = .merge then operation.targetViews.head? else none

variable (applied : List ClusterOperationRecord)

/-- The operations as a set of regroupings. -/
def regroups : Set (Regroup ClusterViewId Uuid Uuid) :=
  {o | ∃ operation ∈ applied, operation.regroup = o}

/-- A history of operations that goes back to one split. -/
structure Lineage (applied : List ClusterOperationRecord) (root : ClusterOperationRecord) :
    Prop where
  ids : (applied.map ClusterOperationRecord.id).Nodup
  rootMem : root ∈ applied
  history : History (regroups applied) root.regroup
  splits : ∀ operation ∈ applied, operation.kind = .split → operation.targetViews.Nodup ∧
    ∀ assignment ∈ operation.splitAssignments, assignment.targetIndex < operation.targetViews.length
  merges : ∀ operation ∈ applied, operation.kind = .merge → operation.targetViews ≠ []

/-- No view is a source of two operations. -/
def SourcesApart : Prop := ConsumedOnce (regroups applied)

/-! ## What an application does to the map -/

/-- The map after an operation, in terms of its regrouping. -/
structure Applied (operation : ClusterOperationRecord) (views views' : Views) : Prop where
  live : ∀ view, (views' view).isSome ↔ (operation.regroup.created view).isSome ∨
    (views view).isSome ∧ view ∉ operation.regroup.consumed
  members : ∀ view members', views' view = some members' → ∀ node, node ∈ members' ↔
    ((∃ members, views view = some members ∧ node ∈ members) ∧
      operation.regroup.created view = none) ∨
      (∃ assigned, operation.regroup.created view = some assigned ∧ node ∈ assigned) ∨
      operation.regroup.joined = some view ∧ ∃ source ∈ operation.regroup.consumed,
        ∃ members, views source = some members ∧ node ∈ members

lemma removeViews_apply (sources : List ClusterViewId) (views : Views) (view : ClusterViewId) :
    removeViews sources views view = if view ∈ sources then none else views view := by
  unfold removeViews
  induction sources generalizing views with
  | nil => simp
  | cons source sources ih =>
    rw [foldl_cons, ih]
    by_cases hmem : view ∈ sources
    · simp [hmem]
    · by_cases heq : view = source
      · simp [heq]
      · simp [hmem, heq]

/-- The sets of nodes a split assigns. -/
lemma assignTargets_spec (assignments : List SplitNodeAssignment) (targets : List (Finset Uuid))
    (hindex : ∀ assignment ∈ assignments, assignment.targetIndex < targets.length) :
    ∃ targets', assignTargets assignments targets = some targets' ∧
      targets'.length = targets.length ∧
      ∀ index members, targets[index]? = some members → ∃ members', targets'[index]? =
        some members' ∧ ∀ node, node ∈ members' ↔ node ∈ members ∨ ⟨node, index⟩ ∈ assignments := by
  induction assignments generalizing targets with
  | nil =>
    refine ⟨targets, rfl, rfl, ?_⟩
    intro index members hmembers
    exact ⟨members, hmembers, by simp⟩
  | cons assignment assignments ih =>
    have hfirst := hindex assignment mem_cons_self
    obtain ⟨targets', hassign, hlength, hmembers'⟩ :=
      ih (targets.modify assignment.targetIndex (insert assignment.nodeId)) (by
        intro other hother
        rw [length_modify]
        exact hindex other (mem_cons_of_mem _ hother))
    refine ⟨targets', ?_, by rw [hlength, length_modify], ?_⟩
    · unfold assignTargets at hassign ⊢
      simp only [foldlM_cons, if_pos hfirst, Option.bind_eq_bind, Option.bind_some]
      exact hassign
    · intro index members hmembers
      by_cases heq : assignment.targetIndex = index
      · obtain ⟨members', hget, hiff⟩ := hmembers' index (insert assignment.nodeId members) (by
          simp [heq, hmembers])
        refine ⟨members', hget, fun node => ?_⟩
        rw [hiff, Finset.mem_insert, mem_cons]
        have hfields : (⟨node, index⟩ : SplitNodeAssignment) = assignment ↔
            node = assignment.nodeId := by
          rw [← heq]
          cases assignment
          simp
        tauto
      · obtain ⟨members', hget, hiff⟩ := hmembers' index members (by simp [heq, hmembers])
        refine ⟨members', hget, fun node => ?_⟩
        rw [hiff, mem_cons]
        have hother : (⟨node, index⟩ : SplitNodeAssignment) ≠ assignment := by
          rintro rfl
          exact heq rfl
        simp [hother]

/-- The loop that inserts the targets of a split. -/
lemma insertTargets_spec (targetViews : List ClusterViewId) (targets : List (Finset Uuid))
    (views : Views) (hnodup : targetViews.Nodup) (hlength : targets.length = targetViews.length) :
    (∀ view, view ∉ targetViews → insertViews (targetViews.zip targets) views view = views view) ∧
      ∀ (index : ℕ) (view : ClusterViewId), targetViews[index]? = some view →
        insertViews (targetViews.zip targets) views view = targets[index]? := by
  unfold insertViews
  induction targetViews generalizing targets views with
  | nil => simp
  | cons first targetViews ih =>
    cases targets with
    | nil => simp at hlength
    | cons members targets =>
      obtain ⟨hfirst, hnodup⟩ := nodup_cons.mp hnodup
      simp only [length_cons, Nat.add_right_cancel_iff] at hlength
      obtain ⟨hother, hat⟩ := ih targets (update views first (some members)) hnodup hlength
      simp only [zip_cons_cons, foldl_cons]
      refine ⟨?_, ?_⟩
      · intro view hview
        simp only [mem_cons, not_or] at hview
        rw [hother view hview.2, update_of_ne hview.1]
      · intro index view hindex
        cases index with
        | zero =>
          obtain rfl : first = view := by simpa using hindex
          rw [hother first hfirst, update_self]
          rfl
        | succ index =>
          exact hat index view hindex

variable {operation : ClusterOperationRecord}

lemma applySplit_spec (hkind : operation.kind = .split)
    (hnodup : operation.targetViews.Nodup) (hindex : ∀ assignment ∈ operation.splitAssignments,
      assignment.targetIndex < operation.targetViews.length) (views : Views) :
    ∃ views', applyOperation operation views = some views' ∧ Applied operation views views' := by
  obtain ⟨targets, hassign, hlength, hmembers⟩ := assignTargets_spec operation.splitAssignments
    (replicate operation.targetViews.length ∅) (by simpa using hindex)
  rw [length_replicate] at hlength
  obtain ⟨hother, hat⟩ := insertTargets_spec operation.targetViews targets
    (removeViews operation.sourceViews views) hnodup hlength
  have hconsumed : ∀ view, view ∈ operation.regroup.consumed ↔ view ∈ operation.sourceViews := by
    simp [regroup, hkind]
  refine ⟨insertViews (operation.targetViews.zip targets) (removeViews operation.sourceViews views),
    by rw [applyOperation, hkind, applySplit, hassign]; rfl, ?_, ?_⟩
  · intro view
    by_cases hview : view ∈ operation.targetViews
    · obtain ⟨index, hget⟩ := mem_iff_getElem?.mp hview
      have hlt : index < targets.length := by
        rw [hlength]
        exact (List.getElem?_eq_some_iff.mp hget).1
      simp [hat index view hget, regroup, hkind, hview, getElem?_eq_getElem hlt]
    · rw [hother view hview, removeViews_apply, hconsumed]
      by_cases hsource : view ∈ operation.sourceViews
      · simp [hsource, regroup, hview]
      · simp [hsource, regroup, hview]
  · intro view members' hmembers' node
    by_cases hview : view ∈ operation.targetViews
    · obtain ⟨index, hget⟩ := mem_iff_getElem?.mp hview
      obtain ⟨members, hmem, hiff⟩ :=
        hmembers index ∅ (by simp [(List.getElem?_eq_some_iff.mp hget).1])
      rw [hat index view hget, hmem] at hmembers'
      cases hmembers'
      have honly : ∀ other, operation.targetViews[other]? = some view ↔ other = index := by
        intro other
        refine ⟨fun hsame => ?_, fun heq => heq ▸ hget⟩
        exact (List.getElem?_inj (List.getElem?_eq_some_iff.mp hsame).1 hnodup).mp
          (hsame.trans hget.symm)
      simp [hiff, regroup, hkind, hview, honly]
    · rw [hother view hview, removeViews_apply] at hmembers'
      split_ifs at hmembers' with hsource
      simp [hmembers', regroup, hview, hkind]

/-- The loop of a merge over its sources. -/
lemma mergeSources_spec (targetView : ClusterViewId) (sources : List ClusterViewId)
    (state : Views × Finset Uuid) : (∀ view, (sources.foldl (mergeSource targetView) state).1 view =
        if view ∈ sources ∧ view ≠ targetView then none else state.1 view) ∧
      ∀ node, node ∈ (sources.foldl (mergeSource targetView) state).2 ↔ node ∈ state.2 ∨
        ∃ source ∈ sources, source ≠ targetView ∧
          ∃ members, state.1 source = some members ∧ node ∈ members := by
  induction sources generalizing state with
  | nil => simp
  | cons source sources ih =>
    simp only [foldl_cons]
    by_cases htarget : source = targetView
    · rw [mergeSource, if_pos htarget]
      obtain ⟨hviews, hnodes⟩ := ih state
      refine ⟨fun view => ?_, fun node => ?_⟩
      · rw [hviews]
        by_cases hview : view = targetView
        · simp [hview]
        · simp [hview, htarget]
      · rw [hnodes]
        simp [htarget]
    · rw [mergeSource, if_neg htarget]
      cases hsource : state.1 source with
      | none =>
        obtain ⟨hviews, hnodes⟩ := ih state
        refine ⟨fun view => ?_, fun node => ?_⟩
        · rw [hviews]
          by_cases hview : view = source
          · simp [hview, hsource]
          · simp [hview]
        · rw [hnodes]
          simp [hsource]
      | some members =>
        obtain ⟨hviews, hnodes⟩ := ih (update state.1 source none, state.2 ∪ members)
        refine ⟨fun view => ?_, fun node => ?_⟩
        · rw [hviews]
          by_cases hview : view = source
          · simp [hview, htarget]
          · simp [hview]
        · rw [hnodes]
          simp only [Finset.mem_union, mem_cons, exists_eq_or_imp, hsource,
            Option.some.injEq, exists_eq_left', ne_eq, htarget, not_false_eq_true, true_and,
            or_assoc]
          refine or_congr_right ?_
          constructor
          · rintro (hnode | ⟨other, hother, hne, found, hfound, hnode⟩)
            · exact .inl hnode
            · by_cases heq : other = source
              · simp [heq] at hfound
              · exact .inr ⟨other, hother, hne, found, by simpa [heq] using hfound, hnode⟩
          · rintro (hnode | ⟨other, hother, hne, found, hfound, hnode⟩)
            · exact .inl hnode
            · by_cases heq : other = source
              · rw [heq, hsource] at hfound
                exact .inl (Option.some.inj hfound ▸ hnode)
              · exact .inr ⟨other, hother, hne, found, by simpa [heq] using hfound, hnode⟩

lemma applyMerge_spec (hkind : operation.kind = .merge)
    {targetView : ClusterViewId} (htarget : operation.targetViews.head? = some targetView)
    {views : Views} (hlive : (views targetView).isSome)
    (hsources : ∀ source ∈ operation.regroup.consumed, (views source).isSome) :
    ∃ views', applyOperation operation views = some views' ∧ Applied operation views views' := by
  have hconsumed : ∀ view, view ∈ operation.regroup.consumed ↔
      view ∈ operation.sourceViews ∧ view ≠ targetView := by
    simp [regroup, hkind, htarget, eq_comm]
  have hcreated : ∀ view, operation.regroup.created view = none := by
    simp [regroup, hkind]
  have hjoined : operation.regroup.joined = some targetView := by
    simp [regroup, hkind, htarget]
  obtain ⟨members, hmembers⟩ := Option.isSome_iff_exists.mp hlive
  have hall : (operation.sourceViews.all fun source => (views source).isSome) = true := by
    rw [all_eq_true]
    intro source hsource
    by_cases heq : source = targetView
    · rw [heq, hmembers]
      rfl
    · exact hsources source ((hconsumed source).mpr ⟨hsource, heq⟩)
  obtain ⟨hviews, hnodes⟩ := mergeSources_spec targetView operation.sourceViews
    (update views targetView none, members)
  generalize hmerged : operation.sourceViews.foldl (mergeSource targetView)
    (update views targetView none, members) = merged at hviews hnodes
  dsimp only at hviews hnodes
  refine ⟨update merged.1 targetView (some merged.2), ?_, ?_, ?_⟩
  · simp [applyOperation, hkind, applyMerge, htarget, hall, hmembers, hmerged]
  · intro view
    by_cases heq : view = targetView
    · simp [heq, hcreated, hmembers, hconsumed]
    · rw [update_of_ne heq, hviews, hcreated, hconsumed, update_of_ne heq]
      by_cases hsource : view ∈ operation.sourceViews
      · simp [hsource, heq]
      · simp [hsource]
  · intro view members' hmembers' node
    by_cases heq : view = targetView
    · subst heq
      rw [update_self] at hmembers'
      cases hmembers'
      rw [hnodes]
      simp only [hcreated, hjoined, hmembers, hconsumed, Option.some.injEq,
        exists_eq_left', and_true, reduceCtorEq, false_and, exists_false, false_or, true_and]
      refine or_congr_right ?_
      constructor
      · rintro ⟨source, hsource, hne, found, hfound, hnode⟩
        exact ⟨source, ⟨hsource, hne⟩, found, by simpa [hne] using hfound, hnode⟩
      · rintro ⟨source, ⟨hsource, hne⟩, found, hfound, hnode⟩
        exact ⟨source, hsource, hne, found, by simpa [hne] using hfound, hnode⟩
    · rw [update_of_ne heq, hviews, update_of_ne heq] at hmembers'
      split_ifs at hmembers' with hsource
      have hother : ¬ targetView = view := Ne.symm heq
      simp [hcreated, hjoined, hmembers', hother]

/-! ## The replay carries out the history -/

/-- The map is what the operations so far amount to. -/
structure Represents (done : Set (Regroup ClusterViewId Uuid Uuid)) (views : Views) : Prop where
  live : ∀ view, (views view).isSome ↔ Live done view
  members : ∀ view members, views view = some members → ∀ node, node ∈ members ↔
    Member done view node

variable {done : Set (Regroup ClusterViewId Uuid Uuid)}

/-- A map is determined by what it represents. -/
lemma Represents.unique {views views' : Views}
    (h : Represents done views) (h' : Represents done views') : views = views' := by
  funext view
  have hlive := (h.live view).trans (h'.live view).symm
  cases hview : views view with
  | none =>
    rw [hview] at hlive
    exact (Option.not_isSome_iff_eq_none.mp fun hsome => absurd (hlive.mpr hsome) nofun).symm
  | some members =>
    rw [hview] at hlive
    obtain ⟨members', hview'⟩ := Option.isSome_iff_exists.mp (hlive.mp rfl)
    rw [hview']
    congr 1
    ext node
    rw [h.members view members hview, h'.members view members' hview']

section Replay

variable {applied : List ClusterOperationRecord} {root : ClusterOperationRecord}

abbrev appliedIds (applied : List ClusterOperationRecord) : Finset Uuid :=
  (applied.map ClusterOperationRecord.id).toFinset

/-- The operations that have been projected. -/
def projected (applied : List ClusterOperationRecord) (ids : Finset Uuid) :
    Set (Regroup ClusterViewId Uuid Uuid) :=
  regroups (applied.filter fun operation => operation.id ∈ ids)

variable {ids : Finset Uuid}

lemma mem_projected {o : Regroup ClusterViewId Uuid Uuid} :
    o ∈ projected applied ids ↔ ∃ operation ∈ applied, operation.id ∈ ids ∧
      operation.regroup = o := by
  simp [projected, regroups, and_assoc]

variable {operation : ClusterOperationRecord}

lemma regroup_mem_projected
    (hmem : operation ∈ applied) : operation.regroup ∈ projected applied ids ↔
      operation.id ∈ ids := by
  rw [mem_projected]
  constructor
  · rintro ⟨other, hother, hid, heq⟩
    rw [← show other.id = operation.id from congrArg Regroup.id heq]
    exact hid
  · intro hid
    exact ⟨operation, hmem, hid, rfl⟩

/-- The state of the replay after some of the operations. -/
structure Replayed (applied : List ClusterOperationRecord) (root : ClusterOperationRecord)
    (state : Projection) : Prop where
  ids : state.projectedIds ⊆ appliedIds applied
  closed : Closed (regroups applied) (projected applied state.projectedIds)
  views : Represents (projected applied state.projectedIds) state.views
  partitioned : Partitioned root.regroup (projected applied state.projectedIds)

lemma replayed_start : Replayed applied root ⟨fun _ => none, ∅⟩ := by
  have hempty : projected applied ∅ = ∅ := by
    simp [projected, regroups]
  refine ⟨Finset.empty_subset _, ?_, ⟨?_, ?_⟩, ?_⟩
  · rw [hempty]
    exact Regroup.closed_empty
  · rw [hempty]
    simp [Live]
  · intro view members hmembers
    cases hmembers
  · rw [hempty]
    exact Regroup.partitioned_empty

variable {state : Projection}

/-- The operations whose turn it is are those of the history that can be carried out. -/
lemma ready_iff (h : Replayed applied root state) (hmem : operation ∈ applied) :
    ¬ (operation.id ∈ state.projectedIds ∨ hasUnprojectedDependency operation
        (appliedIds applied) state.projectedIds = true) ↔
      Next (regroups applied) (projected applied state.projectedIds) operation.regroup := by
  have hready : hasUnprojectedDependency operation (appliedIds applied)
      state.projectedIds = true ↔ ∃ other ∈ applied, other.id ∈ operation.dependencyOperationIds ∧
        other.id ∉ state.projectedIds := by
    simp only [hasUnprojectedDependency, any_eq_true, decide_eq_true_eq, mem_toFinset, mem_map]
    constructor
    · rintro ⟨id, hdep, ⟨other, hother, rfl⟩, hnot⟩
      exact ⟨other, hother, hdep, hnot⟩
    · rintro ⟨other, hother, hdep, hnot⟩
      exact ⟨other.id, hdep, ⟨other, hother, rfl⟩, hnot⟩
  rw [not_or, hready]
  constructor
  · rintro ⟨hnew, hdeps⟩
    refine ⟨h.closed, ⟨operation, hmem, rfl⟩, ?_, ?_⟩
    · rwa [regroup_mem_projected hmem]
    · rintro p ⟨other, hother, rfl⟩ hdep
      rw [regroup_mem_projected hother]
      by_contra hnot
      exact hdeps ⟨other, hother, hdep, hnot⟩
  · intro hnext
    refine ⟨?_, ?_⟩
    · rw [← regroup_mem_projected hmem]
      exact hnext.new
    · rintro ⟨other, hother, hdep, hnot⟩
      exact hnot ((regroup_mem_projected hother).mp
        (hnext.ready other.regroup ⟨other, hother, rfl⟩ hdep))

variable (hlineage : Lineage applied root)

include hlineage

lemma projected_insert (hmem : operation ∈ applied) :
    projected applied (insert operation.id ids) =
      insert operation.regroup (projected applied ids) := by
  ext o
  rw [mem_projected, Set.mem_insert_iff, mem_projected]
  constructor
  · rintro ⟨other, hother, hid, rfl⟩
    rcases Finset.mem_insert.mp hid with hid | hid
    · exact .inl (by rw [inj_on_of_nodup_map hlineage.ids hother hmem hid])
    · exact .inr ⟨other, hother, hid, rfl⟩
  · rintro (rfl | ⟨other, hother, hid, rfl⟩)
    · exact ⟨operation, hmem, Finset.mem_insert_self _ _, rfl⟩
    · exact ⟨other, hother, Finset.mem_insert_of_mem hid, rfl⟩

variable (hapart : SourcesApart applied)

include hapart

/-- An operation whose turn it is can be applied. -/
lemma applyOperation_spec (h : Replayed applied root state) (hmem : operation ∈ applied)
    (hnext : Next (regroups applied) (projected applied state.projectedIds) operation.regroup) :
    ∃ views', applyOperation operation state.views = some views' ∧
      Applied operation state.views views' := by
  cases hkind : operation.kind with
  | split =>
    obtain ⟨hnodup, hindex⟩ := hlineage.splits operation hmem hkind
    exact applySplit_spec hkind hnodup hindex state.views
  | merge =>
    obtain ⟨targetView, htarget⟩ := Option.isSome_iff_exists.mp
      (isSome_head?.mpr (hlineage.merges operation hmem hkind))
    have hjoined : operation.regroup.joined = some targetView := by
      simp [regroup, hkind, htarget]
    refine applyMerge_spec hkind htarget ?_ ?_
    · rw [h.views.live]
      exact hnext.live_joined hlineage.history hjoined
    · intro source hsource
      rw [h.views.live]
      exact hnext.live_consumed hlineage.history hapart
        (hlineage.history.ne_root_of_joined hjoined) hsource

/-- The map after an operation is what the operations amount to with it. -/
lemma represents_insert {views views' : Views} (h : Represents done views)
    (hnext : Next (regroups applied) done operation.regroup)
    (happlied : Applied operation views views') :
    Represents (insert operation.regroup done) views' := by
  refine ⟨?_, ?_⟩
  · intro view
    rw [happlied.live, h.live, hnext.live_insert hlineage.history]
  · intro view members' hmembers' node
    have hstored : ∀ other, (∃ members, views other = some members ∧ node ∈ members) ↔
        (views other).isSome ∧ Member done other node := by
      intro other
      constructor
      · rintro ⟨members, hmembers, hnode⟩
        exact ⟨by rw [hmembers]; rfl, (h.members other members hmembers node).mp hnode⟩
      · rintro ⟨hsome, hnode⟩
        obtain ⟨members, hmembers⟩ := Option.isSome_iff_exists.mp hsome
        exact ⟨members, hmembers, (h.members other members hmembers node).mpr hnode⟩
    rw [happlied.members view members' hmembers', hnext.member_insert hlineage.history, hstored]
    have hlive : (views' view).isSome := by
      rw [hmembers']
      rfl
    constructor
    · rintro (⟨⟨-, hold⟩, -⟩ | hcreated | ⟨hjoined, source, hsource, hfound⟩)
      · exact .inl hold
      · exact .inr (.inl hcreated)
      · exact .inr (.inr ⟨hjoined, source, hsource, ((hstored source).mp hfound).2⟩)
    · rintro (hold | hcreated | ⟨hjoined, source, hsource, hold⟩)
      · rcases (happlied.live view).mp hlive with hnew | ⟨hsome, -⟩
        · exact absurd hold (hnext.not_member_created hlineage.history hnew)
        · refine .inl ⟨⟨hsome, hold⟩, ?_⟩
          by_contra hcreated
          exact hnext.not_member_created hlineage.history (Option.isSome_iff_ne_none.mpr hcreated)
            hold
      · exact .inr (.inl hcreated)
      · have hsome : (views source).isSome := by
          rw [h.live]
          exact hnext.live_consumed hlineage.history hapart
            (hlineage.history.ne_root_of_joined hjoined) hsource
        exact .inr (.inr ⟨hjoined, source, hsource, (hstored source).mpr ⟨hsome, hold⟩⟩)

/-- One turn of the replay. -/
lemma projectOperation_spec (h : Replayed applied root state) (hmem : operation ∈ applied) :
    projectOperation (appliedIds applied) state operation = none ∧
        ¬ Next (regroups applied) (projected applied state.projectedIds) operation.regroup ∨
      ∃ state', projectOperation (appliedIds applied) state operation =
          some state' ∧ operation.id ∉ state.projectedIds ∧
        state'.projectedIds = insert operation.id state.projectedIds ∧
          Replayed applied root state' := by
  unfold projectOperation
  split_ifs with hwait
  · refine .inl ⟨rfl, ?_⟩
    rw [← ready_iff h hmem]
    exact not_not.mpr hwait
  · have hnext := (ready_iff h hmem).mp hwait
    obtain ⟨views', happly, happlied⟩ := applyOperation_spec hlineage hapart h hmem hnext
    refine .inr ⟨⟨views', insert operation.id state.projectedIds⟩, by rw [happly]; rfl, ?_, rfl, ?_⟩
    · exact fun hid => hwait (.inl hid)
    · refine ⟨?_, ?_, ?_, ?_⟩
      · refine Finset.insert_subset ?_ h.ids
        rw [mem_toFinset]
        exact mem_map_of_mem hmem
      · rw [projected_insert hlineage hmem]
        exact hnext.closed_insert
      · rw [projected_insert hlineage hmem]
        exact represents_insert hlineage hapart h.views hnext happlied
      · rw [projected_insert hlineage hmem]
        exact hnext.partitioned hlineage.history hapart h.partitioned

/-- How many operations are left. -/
def operationsLeft (applied : List ClusterOperationRecord) (state : Projection) : ℕ :=
  (appliedIds applied \ state.projectedIds).card

/-- **The replay projects every operation**, and its map is what they all amount to. -/
lemma projectOperations_spec : Represents (regroups applied) (projectOperations applied).views ∧
      Partitioned root.regroup (regroups applied) ∧
      (projectOperations applied).projectedIds = appliedIds applied ∧
      ∀ operation ∈ applied, projectOperation (appliedIds applied)
        (projectOperations applied) operation = none := by
  have hstep : ∀ state operation state', operation ∈ applied → Replayed applied root state →
      projectOperation (appliedIds applied) state operation = some state' →
        Replayed applied root state' ∧ operationsLeft applied state' <
          operationsLeft applied state := by
    intro state operation state' hmem h hsome
    rcases projectOperation_spec hlineage hapart h hmem with
      ⟨hnone, -⟩ | ⟨next, hnext, hnew, hids, h'⟩
    · rw [hnone] at hsome
      cases hsome
    · obtain rfl := Option.some.inj (hnext.symm.trans hsome)
      refine ⟨h', ?_⟩
      rw [operationsLeft, operationsLeft, hids, Finset.sdiff_insert]
      refine Finset.card_erase_lt_of_mem ?_
      rw [Finset.mem_sdiff, mem_toFinset]
      exact ⟨mem_map_of_mem hmem, hnew⟩
  have hfuel : operationsLeft applied ⟨fun _ => none, ∅⟩ < applied.length + 1 := by
    rw [operationsLeft, Finset.sdiff_empty, Nat.lt_succ_iff, ← length_map ClusterOperationRecord.id]
    exact toFinset_card_le _
  obtain ⟨hreplayed, hstuck⟩ := Worklist.loop_spec hstep replayed_start hfuel
  change Replayed applied root (projectOperations applied) at hreplayed
  change ∀ operation ∈ applied, projectOperation (appliedIds applied)
    (projectOperations applied) operation = none at hstuck
  -- Were operations left, one of them could be carried out, and the loop would go on.
  have hall : projected applied (projectOperations applied).projectedIds = regroups applied := by
    by_contra hleft
    have hfinite : (regroups applied).Finite := applied.finite_toSet.image regroup
    obtain ⟨o, hnext⟩ := hlineage.history.exists_next hfinite hreplayed.closed hleft
    obtain ⟨operation, hmem, rfl⟩ := hnext.mem
    rcases projectOperation_spec hlineage hapart hreplayed hmem with ⟨-, hwait⟩ | ⟨next, hsome, -⟩
    · exact hwait hnext
    · rw [hstuck operation hmem] at hsome
      cases hsome
  refine ⟨hall ▸ hreplayed.views, hall ▸ hreplayed.partitioned, ?_, hstuck⟩
  refine Finset.Subset.antisymm hreplayed.ids ?_
  intro id hid
  obtain ⟨operation, hmem, rfl⟩ := mem_map.mp (mem_toFinset.mp hid)
  rw [← regroup_mem_projected hmem, hall]
  exact ⟨operation, hmem, rfl⟩

end Replay

/-! ## Order and time stamps -/

/-- An operation without its time stamps. -/
def ClusterOperationRecord.untimed (operation : ClusterOperationRecord) : ClusterOperationRecord :=
  { operation with
    createdAtUnixMs := 0
    updatedAtUnixMs := 0 }

section Reordered

variable {applied applied' : List ClusterOperationRecord} {root : ClusterOperationRecord}

lemma exists_untimed_eq (hperm : (applied'.map untimed).Perm
      (applied.map untimed))
    (hmem : operation ∈ applied') : ∃ other ∈ applied, other.untimed = operation.untimed :=
  mem_map.mp (hperm.mem_iff.mp (mem_map_of_mem hmem))

lemma regroup_eq_of_untimed {a b : ClusterOperationRecord} (h : a.untimed = b.untimed) :
    a.regroup = b.regroup := by
  change a.untimed.regroup = b.untimed.regroup
  rw [h]

lemma regroups_reordered (hperm : (applied'.map untimed).Perm
      (applied.map untimed)) : regroups applied' = regroups applied := by
  ext o
  constructor
  · rintro ⟨operation, hmem, rfl⟩
    obtain ⟨other, hother, heq⟩ := exists_untimed_eq hperm hmem
    exact ⟨other, hother, regroup_eq_of_untimed heq⟩
  · rintro ⟨operation, hmem, rfl⟩
    obtain ⟨other, hother, heq⟩ := exists_untimed_eq hperm.symm hmem
    exact ⟨other, hother, regroup_eq_of_untimed heq⟩

/-- Neither the order of the operations nor their time stamps matter to a lineage. -/
lemma Lineage.reordered (h : Lineage applied root) (hperm : (applied'.map untimed).Perm
      (applied.map untimed)) :
    ∃ root' ∈ applied', root'.untimed = root.untimed ∧ Lineage applied' root' := by
  obtain ⟨root', hroot', heq⟩ := exists_untimed_eq hperm.symm h.rootMem
  have hfields : ∀ operation ∈ applied', ∃ other ∈ applied, other.kind = operation.kind ∧
      other.targetViews = operation.targetViews ∧
      other.splitAssignments = operation.splitAssignments := by
    intro operation hmem
    obtain ⟨other, hother, hsame⟩ := exists_untimed_eq hperm hmem
    simp only [untimed, mk.injEq] at hsame
    exact ⟨other, hother, by tauto⟩
  refine ⟨root', hroot', heq, ?_, hroot', ?_, ?_, ?_⟩
  · have hids := hperm.map ClusterOperationRecord.id
    rw [map_map, map_map] at hids
    exact (hids.nodup_iff).mpr h.ids
  · rw [regroups_reordered hperm, regroup_eq_of_untimed heq]
    exact h.history
  · intro operation hmem hkind
    obtain ⟨other, hother, hsame, hviews, hassignments⟩ := hfields operation hmem
    rw [← hviews, ← hassignments]
    exact h.splits other hother (hsame.trans hkind)
  · intro operation hmem hkind
    obtain ⟨other, hother, hsame, hviews, -⟩ := hfields operation hmem
    rw [← hviews]
    exact h.merges other hother (hsame.trans hkind)

/-- The nodes the first split brings in. -/
lemma Lineage.root_nodes (h : Lineage applied root) (node : Uuid) :
    (∃ view members, root.regroup.created view = some members ∧ node ∈ members) ↔
      ∃ assignment ∈ root.splitAssignments, assignment.nodeId = node := by
  have hkind : root.kind = .split := by
    cases hkind : root.kind with
    | split => rfl
    | merge =>
      have hjoined := h.history.rootCreates
      simp only [regroup, hkind, if_true, head?_eq_none_iff] at hjoined
      exact absurd hjoined (h.merges root h.rootMem hkind)
  constructor
  · rintro ⟨view, members, hcreated, hnode⟩
    simp only [regroup] at hcreated
    split_ifs at hcreated
    cases hcreated
    obtain ⟨index, -, hassigned⟩ := hnode
    exact ⟨_, hassigned, rfl⟩
  · rintro ⟨assignment, hmem, rfl⟩
    have hindex := (h.splits root h.rootMem hkind).2 assignment hmem
    exact ⟨_, _, if_pos ⟨hkind, getElem_mem hindex⟩, assignment.targetIndex,
      getElem?_eq_getElem hindex, hmem⟩

/-- The operations that are replayed, up to order and time stamps. -/
lemma appliedOperations_perm {operations operations' : List ClusterOperationRecord}
    (assumed : Option Uuid) (hperm : (operations'.map untimed).Perm (operations.map untimed)) :
    ((appliedOperations operations' assumed).map untimed).Perm
      ((operations.filter (operationIsApplied assumed)).map untimed) := by
  have hfilter : ∀ list : List ClusterOperationRecord,
      (list.filter (operationIsApplied assumed)).map untimed =
        (list.map untimed).filter (operationIsApplied assumed) := by
    intro list
    rw [filter_map]
    rfl
  refine ((perm_insertionSort _ _).map _).trans ?_
  rw [hfilter, hfilter]
  exact hperm.filter _

end Reordered

/-- **Projected memberships partition the nodes.** For a lineage in which no view is a source of
two operations, neither the order of the operations nor their time stamps matter, different views
have different nodes, together they have the nodes of the first split, and no operation is left
over. -/
theorem projected_memberships_partition {operations : List ClusterOperationRecord}
    {assumed : Option Uuid} {root : ClusterOperationRecord}
    (hlineage : Lineage (operations.filter (operationIsApplied assumed)) root)
    (hapart : SourcesApart (operations.filter (operationIsApplied assumed))) :
    (∀ operations', (operations'.map untimed).Perm
        (operations.map untimed) → ∀ view,
      projectedViewMembers operations' view assumed =
        projectedViewMembers operations view assumed) ∧
    (∀ view view' members members', view ≠ view' →
      projectedViewMembers operations view assumed = some members →
      projectedViewMembers operations view' assumed = some members' → Disjoint members members') ∧
    (∀ node, (∃ view members, projectedViewMembers operations view assumed = some members ∧
      node ∈ members) ↔ ∃ assignment ∈ root.splitAssignments, assignment.nodeId = node) ∧
    (∀ operation ∈ operations, operationIsApplied assumed operation = true →
      operation.id ∈ (projectOperations (appliedOperations operations assumed)).projectedIds) ∧
    Worklist.pass (projectOperation
        ((appliedOperations operations assumed).map ClusterOperationRecord.id).toFinset)
      (appliedOperations operations assumed)
      (projectOperations (appliedOperations operations assumed)) =
        (projectOperations (appliedOperations operations assumed), false) := by
  have hreplay : ∀ operations', (operations'.map untimed).Perm
      (operations.map untimed) →
      Represents (regroups (operations.filter (operationIsApplied assumed)))
        (projectOperations (appliedOperations operations' assumed)).views := by
    intro operations' hperm
    have hperm' := appliedOperations_perm assumed hperm
    obtain ⟨root', -, -, hlineage'⟩ := hlineage.reordered hperm'
    have hregroups := regroups_reordered hperm'
    have hspec := projectOperations_spec hlineage' (by rw [SourcesApart, hregroups]; exact hapart)
    rw [← hregroups]
    exact hspec.1
  have hperm := appliedOperations_perm assumed (List.Perm.refl (operations.map untimed))
  obtain ⟨root', -, hroot, hlineage'⟩ := hlineage.reordered hperm
  have hregroups := regroups_reordered hperm
  obtain ⟨hviews, hpart, hids, hstuck⟩ :=
    projectOperations_spec hlineage' (by rw [SourcesApart, hregroups]; exact hapart)
  have hlive : ∀ {view members}, projectedViewMembers operations view assumed = some members →
      Live (regroups (appliedOperations operations assumed)) view := by
    intro view members hmembers
    rw [← hviews.live]
    exact Option.isSome_of_eq_some hmembers
  refine ⟨?_, ?_, ?_, ?_, Worklist.pass_of_stuck hstuck⟩
  · intro operations' hperm' view
    exact congrFun ((hreplay operations' hperm').unique (hreplay operations (List.Perm.refl _)))
      view
  · intro view view' members members' hne hmembers hmembers'
    rw [Finset.disjoint_left]
    intro node hnode hnode'
    exact hne (hpart.unique view view' node (hlive hmembers) (hlive hmembers')
      ((hviews.members view members hmembers node).mp hnode)
      ((hviews.members view' members' hmembers' node).mp hnode'))
  · intro node
    have hassignments : root'.splitAssignments = root.splitAssignments := by
      simp only [untimed, mk.injEq] at hroot
      tauto
    rw [← hassignments, ← hlineage'.root_nodes node]
    constructor
    · rintro ⟨view, members, hmembers, hnode⟩
      exact ((hpart.covers node).mp ⟨view, hlive hmembers,
        (hviews.members view members hmembers node).mp hnode⟩).2
    · intro hnode
      obtain ⟨view, hview, hmember⟩ :=
        (hpart.covers node).mpr ⟨⟨root', hlineage'.rootMem, rfl⟩, hnode⟩
      obtain ⟨members, hmembers⟩ := Option.isSome_iff_exists.mp ((hviews.live view).mpr hview)
      exact ⟨view, members, hmembers, (hviews.members view members hmembers node).mpr hmember⟩
  · intro operation hmem happlied
    rw [hids, mem_toFinset]
    refine mem_map_of_mem ?_
    rw [appliedOperations, mem_insertionSort, mem_filter]
    exact ⟨hmem, happlied⟩

/-! ## One split and two merges -/

/-- The views of the sample; the split makes views 1 to 3, with one node each. -/
def sampleView (n : ℕ) : ClusterViewId := ⟨n, 1⟩

def sampleSplit : ClusterOperationRecord where
  id := 1
  submittedByNodeId := 1
  kind := .split
  stage := .finalized
  dryRun := false
  createdAtUnixMs := 10
  dependencyOperationIds := []
  sourceViews := [sampleView 0]
  targetViews := [sampleView 1, sampleView 2, sampleView 3]
  splitAssignments := [⟨1, 0⟩, ⟨2, 1⟩, ⟨3, 2⟩]
  updatedAtUnixMs := 10
  details := ""

def sampleMerge (id source target time : ℕ) : ClusterOperationRecord where
  id := id
  submittedByNodeId := 1
  kind := .merge
  stage := .finalized
  dryRun := false
  createdAtUnixMs := time
  dependencyOperationIds := [1]
  sourceViews := [sampleView source]
  targetViews := [sampleView target]
  splitAssignments := []
  updatedAtUnixMs := time
  details := ""

/-- The split and two merges, with the times of the merges. -/
def sampleOperations (source source' target target' time time' : ℕ) : List ClusterOperationRecord :=
  [sampleSplit, sampleMerge 2 source target time, sampleMerge 3 source' target' time']

/-- Merges let views of a split join other views of it, which are not merged themselves. -/
lemma lineage_of_merges {root : ClusterOperationRecord} {merges : List ClusterOperationRecord}
    (hids : ((root :: merges).map ClusterOperationRecord.id).Nodup)
    (hsplit : root.kind = .split ∧ root.dependencyOperationIds = [] ∧ root.targetViews.Nodup ∧
      ∀ view ∈ root.sourceViews, view ∉ root.targetViews)
    (hassigned : ∀ a ∈ root.splitAssignments, a.targetIndex < root.targetViews.length ∧
      ∀ b ∈ root.splitAssignments, a.nodeId = b.nodeId → a.targetIndex = b.targetIndex)
    (hmerges : ∀ merge ∈ merges, merge.kind = .merge ∧ merge.dependencyOperationIds = [root.id] ∧
      (∃ target ∈ root.targetViews, merge.targetViews = [target]) ∧
      ∀ view ∈ merge.sourceViews, view ∈ root.targetViews ∧
        ∀ other ∈ merges, view ∉ other.targetViews) : Lineage (root :: merges) root := by
  obtain ⟨hkind, hfirst, hnodup, hfresh⟩ := hsplit
  have hcreated : ∀ v, (root.regroup.created v).isSome ↔ v ∈ root.targetViews := by
    simp [regroup, hkind]
  have hnone : ∀ merge ∈ merges, ∀ v, merge.regroup.created v = none := by
    intro merge hmerge v
    simp [regroup, (hmerges merge hmerge).1]
  have hjoined : ∀ o ∈ regroups (root :: merges), ∀ v, o.joined = some v →
      ∃ merge ∈ merges, o = merge.regroup ∧ v ∈ merge.targetViews ∧ v ∈ root.targetViews := by
    rintro _ ⟨operation, hmem, rfl⟩ v hv
    rcases mem_cons.mp hmem with rfl | hmerge
    · simp [regroup, hkind] at hv
    · obtain ⟨hmerged, -, ⟨target, htarget, hviews⟩, -⟩ := hmerges operation hmerge
      obtain rfl : target = v := by simpa [regroup, hmerged, hviews] using hv
      exact ⟨operation, hmerge, rfl, by simp [hviews], htarget⟩
  have honly : ∀ o ∈ regroups (root :: merges), ∀ v, (o.created v).isSome → o = root.regroup := by
    rintro _ ⟨operation, hmem, rfl⟩ v hv
    rcases mem_cons.mp hmem with rfl | hmerge
    · rfl
    · simp [hnone operation hmerge v] at hv
  have hroot : ∀ merge ∈ merges,
      Relation.TransGen (Regroup.DependsOn (regroups (root :: merges))) merge.regroup
        root.regroup := by
    intro merge hmerge
    refine .single ⟨⟨merge, mem_cons_of_mem _ hmerge, rfl⟩, ⟨root, mem_cons_self, rfl⟩, ?_⟩
    simp [regroup, (hmerges merge hmerge).2.1]
  refine ⟨hids, mem_cons_self, ⟨?_, ?_, ?_, ?_, ⟨root, mem_cons_self, rfl⟩, ?_, ?_, ?_, ?_, ?_⟩,
    ?_, ?_⟩
  · refine Regroup.acyclic_of_rank (fun o => if o.id = root.id then 0 else 1) ?_
    rintro _ p ⟨⟨operation, hmem, rfl⟩, -, hdep⟩
    rcases mem_cons.mp hmem with rfl | hmerge
    · simp [regroup, hfirst] at hdep
    · have hid : p.id = root.id := by simpa [regroup, (hmerges operation hmerge).2.1] using hdep
      have hne : operation.id ≠ root.id := fun heq =>
        (nodup_cons.mp hids).1 (heq ▸ mem_map_of_mem hmerge)
      simp [hid, regroup, hne]
  · rintro _ ⟨operation, hmem, rfl⟩ v ⟨hv, -⟩ p hp hproduces
    rcases mem_cons.mp hmem with rfl | hmerge
    · rcases hproduces with hv' | hv'
      · exact absurd ((hcreated v).mp (honly p hp v hv' ▸ hv')) (hfresh v hv)
      · obtain ⟨-, -, -, -, htarget⟩ := hjoined p hp v hv'
        exact absurd htarget (hfresh v hv)
    · rcases hproduces with hv' | hv'
      · exact honly p hp v hv' ▸ hroot operation hmerge
      · obtain ⟨other, hother, -, htarget, -⟩ := hjoined p hp v hv'
        exact absurd htarget (((hmerges operation hmerge).2.2.2 v hv).2 other hother)
  · intro o ho v hv p hp hv'
    obtain ⟨merge, hmerge, rfl, -⟩ := hjoined o ho v hv
    exact honly p hp v hv' ▸ hroot merge hmerge
  · exact fun o ho p hp v hv hv' => (honly o ho v hv).trans (honly p hp v hv').symm
  · simp [regroup, hkind]
  · rintro _ ⟨operation, hmem, rfl⟩ hne v hv
    refine ⟨root.regroup, ⟨root, mem_cons_self, rfl⟩, (hcreated v).mpr ?_⟩
    rcases mem_cons.mp hmem with rfl | hmerge
    · exact absurd rfl hne
    · rcases hv with hv | hv
      · exact ((hmerges operation hmerge).2.2.2 v hv.1).1
      · obtain ⟨-, -, -, -, htarget⟩ := hjoined _ ⟨operation, hmem, rfl⟩ v hv
        exact htarget
  · intro o ho v hv
    obtain ⟨merge, hmerge, rfl, htarget, -⟩ := hjoined o ho v hv
    exact ⟨fun hself => ((hmerges merge hmerge).2.2.2 v hself.1).2 merge hmerge htarget,
      hnone merge hmerge⟩
  · intro o ho v w members members' n hv hw hnv hnw
    obtain rfl := honly o ho v (Option.isSome_of_eq_some hv)
    simp only [regroup] at hv hw
    split_ifs at hv hw
    cases hv
    cases hw
    obtain ⟨index, hindex, ha⟩ := hnv
    obtain ⟨index', hindex', hb⟩ := hnw
    obtain rfl : index = index' := (hassigned _ ha).2 _ hb rfl
    exact Option.some.inj (hindex.symm.trans hindex')
  · rintro _ ⟨operation, hmem, rfl⟩ hne hcreates
    rcases mem_cons.mp hmem with rfl | hmerge
    · exact absurd rfl hne
    · obtain ⟨hmerged, -, ⟨target, -, hviews⟩, -⟩ := hmerges operation hmerge
      simp [regroup, hmerged, hviews] at hcreates
  · intro operation hmem hkind'
    rcases mem_cons.mp hmem with rfl | hmerge
    · exact ⟨hnodup, fun assignment ha => (hassigned assignment ha).1⟩
    · simp [(hmerges operation hmerge).1] at hkind'
  · intro operation hmem hkind'
    rcases mem_cons.mp hmem with rfl | hmerge
    · simp [hkind] at hkind'
    · obtain ⟨-, -, ⟨target, -, hviews⟩, -⟩ := hmerges operation hmerge
      simp [hviews]

/-- Views 3 and 2 join view 1, in any order. -/
theorem projected_memberships_partition_sample :
    projectedViewMembers (sampleOperations 3 2 1 1 30 20).reverse (sampleView 1) none =
      projectedViewMembers (sampleOperations 3 2 1 1 20 30) (sampleView 1) none ∧
    projectedViewMembers (sampleOperations 3 2 1 1 20 30) (sampleView 1) none = some {1, 2, 3} := by
  have hlineage : Lineage ((sampleOperations 3 2 1 1 20 30).filter (operationIsApplied none))
      sampleSplit := lineage_of_merges (by decide) (by decide) (by decide) (by decide)
  have hapart : SourcesApart
      ((sampleOperations 3 2 1 1 20 30).filter (operationIsApplied none)) := by
    have hsources : ∀ a ∈ sampleOperations 3 2 1 1 20 30, ∀ b ∈ sampleOperations 3 2 1 1 20 30,
        ∀ v ∈ a.sourceViews, v ∈ b.sourceViews → a = b := by decide
    rintro _ ⟨a, ha, rfl⟩ _ ⟨b, hb, rfl⟩ v hva hvb
    rw [hsources a (mem_of_mem_filter ha) b (mem_of_mem_filter hb) v hva.1 hvb.1]
  refine ⟨(projected_memberships_partition hlineage hapart).1 _ ?_ _, by decide +kernel⟩
  decide +kernel

/-- Views 1 and 2 both want the nodes of view 3: who gets them is decided by the time stamps, and
the other merge is never projected. -/
theorem shared_source_depends_on_times :
    Lineage ((sampleOperations 3 3 1 2 20 30).filter (operationIsApplied none)) sampleSplit ∧
    ((sampleOperations 3 3 1 2 30 20).map untimed).Perm
      ((sampleOperations 3 3 1 2 20 30).map untimed) ∧
    projectedViewMembers (sampleOperations 3 3 1 2 20 30) (sampleView 1) none = some {1, 3} ∧
    projectedViewMembers (sampleOperations 3 3 1 2 30 20) (sampleView 1) none = some {1} ∧
    3 ∉ (projectOperations
      (appliedOperations (sampleOperations 3 3 1 2 20 30) none)).projectedIds := by
  refine ⟨?_, ?_, ?_, ?_, ?_⟩
  · exact lineage_of_merges (by decide) (by decide) (by decide) (by decide)
  · decide +kernel
  · decide +kernel
  · decide +kernel
  · decide +kernel

end Mantissa.Cluster
