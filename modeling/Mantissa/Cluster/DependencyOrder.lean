import Mantissa.Cluster.Membership

/-!
# Operations after their dependencies

A node works through its operations in the order of `orderClusterOperationsByDependency`: by lineage
key, but the first one whose listed dependencies are ordered already comes next. Where none is
ready the rest lies on cycles or behind them, and keeps the lineage order.

`InOrder` says what is right about the order; `orderLoop_inOrder` proves it turn by turn.
-/

namespace Mantissa.Cluster

open List

open Relation (TransGen)

variable (knownIds : List Uuid) (operations ordered : List ClusterOperationRecord)
  (operation : ClusterOperationRecord)

/-- The listed dependencies of an operation have been ordered. -/
def dependenciesOrdered : Bool :=
  operation.dependencyOperationIds.all fun dependency =>
    decide (dependency ∉ knownIds) || decide (dependency ∈ ordered.map ClusterOperationRecord.id)

/-- The loop. Every turn takes an operation, so that as many turns as operations are enough. -/
def orderLoop : ℕ → List ClusterOperationRecord → List ClusterOperationRecord →
    List ClusterOperationRecord
  | 0, pending, ordered => ordered ++ pending
  | turns + 1, pending, ordered =>
    match pending.find? (dependenciesOrdered knownIds ordered) with
    | none => ordered ++ pending
    | some operation => orderLoop turns (pending.eraseP (dependenciesOrdered knownIds ordered))
        (ordered ++ [operation])

/-- The operations by lineage key. -/
def byLineage : List ClusterOperationRecord :=
  operations.insertionSort fun a b => a.lineageOrderKey ≤ b.lineageOrderKey

/-- `order_cluster_operations_by_dependency`. -/
def orderClusterOperationsByDependency : List ClusterOperationRecord :=
  orderLoop ((byLineage operations).map ClusterOperationRecord.id) operations.length
    (byLineage operations) []

/-- The dependencies among the operations have no cycle. -/
def Acyclic : Prop :=
  ∀ operation, ¬ TransGen (fun a b : ClusterOperationRecord =>
    a ∈ operations ∧ b ∈ operations ∧ b.id ∈ a.dependencyOperationIds) operation operation

/-- What an operation depends on has been ordered. -/
def Ready : Prop :=
  ∀ dependency ∈ operations, dependency.id ∈ operation.dependencyOperationIds → dependency ∈ ordered

/-- Operations in the right place: after their dependencies if these have no cycle, and before the
later ones that were ready with them, which have a greater lineage key. -/
def InOrder : List ClusterOperationRecord → List ClusterOperationRecord → Prop
  | _, [] => True
  | ordered, operation :: rest =>
    (Acyclic operations → Ready operations ordered operation) ∧
      (∀ other ∈ rest, Ready operations ordered other →
        operation.lineageOrderKey < other.lineageOrderKey) ∧
      InOrder (ordered ++ [operation]) rest

variable {knownIds operations ordered} {pending : List ClusterOperationRecord}

/-- Operations that are sorted and without a cycle would not be left. -/
lemma inOrder_of_sorted
    (hsorted : pending.Pairwise fun a b => a.lineageOrderKey < b.lineageOrderKey)
    (hleft : Acyclic operations → pending = []) : InOrder operations ordered pending := by
  induction pending generalizing ordered with
  | nil => trivial
  | cons operation pending ih =>
    have hcycle : ¬ Acyclic operations := fun hacyclic => cons_ne_nil _ _ (hleft hacyclic)
    rw [pairwise_cons] at hsorted
    exact ⟨fun hacyclic => absurd hacyclic hcycle, fun other hother _ => hsorted.1 other hother,
      ih hsorted.2 fun hacyclic => absurd hacyclic hcycle⟩

/-- Without cycles an operation is ready as long as there are some. -/
lemma Acyclic.exists_ready (hacyclic : Acyclic operations)
    (hperm : (ordered ++ pending).Perm operations)
    (hpending : pending ≠ []) : ∃ operation ∈ pending, Ready operations ordered operation := by
  obtain ⟨operation, hmem, hnone⟩ := Regroup.exists_forall_not_of_acyclic hacyclic
    pending.finite_toSet (exists_mem_of_ne_nil pending hpending)
  refine ⟨operation, hmem, fun dependency hdependency hid => ?_⟩
  rcases mem_append.mp (hperm.mem_iff.mpr hdependency) with hordered | hleft
  · exact hordered
  · exact absurd ⟨hperm.mem_iff.mp (mem_append_right _ hmem), hdependency, hid⟩
      (hnone dependency hleft)

section Loop

variable (hdistinct : (operations.map ClusterOperationRecord.id).Nodup)
  (hknown : ∀ id, id ∈ knownIds ↔ id ∈ operations.map ClusterOperationRecord.id)

include hdistinct hknown

lemma dependenciesOrdered_iff (hperm : (ordered ++ pending).Perm operations) :
    dependenciesOrdered knownIds ordered operation = true ↔ Ready operations ordered operation := by
  simp only [dependenciesOrdered, all_eq_true, Bool.or_eq_true, decide_eq_true_eq, hknown,
    or_iff_not_imp_left, not_not]
  constructor
  · intro h dependency hmem hid
    obtain ⟨other, hother, heq⟩ := mem_map.mp (h _ hid (mem_map_of_mem hmem))
    have hlisted := hperm.mem_iff.mp (mem_append_left _ hother)
    rwa [← inj_on_of_nodup_map hdistinct hlisted hmem heq]
  · rintro h id hid hlisted
    obtain ⟨dependency, hmem, rfl⟩ := mem_map.mp hlisted
    exact mem_map_of_mem (h dependency hmem hid)

/-- **What the loop makes of the pending operations.** -/
lemma orderLoop_inOrder (hperm : (ordered ++ pending).Perm operations)
    (hsorted : pending.Pairwise fun a b => a.lineageOrderKey < b.lineageOrderKey) :
    ∃ rest, orderLoop knownIds pending.length pending ordered = ordered ++ rest ∧
      rest.Perm pending ∧ InOrder operations ordered rest := by
  generalize hturns : pending.length = turns
  induction turns generalizing ordered pending with
  | zero =>
    obtain rfl := length_eq_zero_iff.mp hturns
    exact ⟨[], rfl, .nil, trivial⟩
  | succ turns ih =>
    have hready := fun operation => dependenciesOrdered_iff operation hdistinct hknown hperm
    rw [orderLoop]
    cases hfind : pending.find? (dependenciesOrdered knownIds ordered) with
    | none =>
      refine ⟨pending, rfl, .rfl, inOrder_of_sorted hsorted fun hacyclic => ?_⟩
      by_contra hne
      obtain ⟨operation, hmem, hop⟩ := hacyclic.exists_ready hperm hne
      exact find?_eq_none.mp hfind operation hmem ((hready operation).mpr hop)
    | some operation =>
      obtain ⟨hop, skipped, later, rfl, hskipped⟩ := find?_eq_some_iff_append.mp hfind
      rw [eraseP_append_right _ (by simpa using hskipped), eraseP_cons_of_pos hop]
      have hperm' : ((ordered ++ [operation]) ++ (skipped ++ later)).Perm operations := by
        simpa using (perm_middle.symm.append_left ordered).trans hperm
      obtain ⟨rest, heq, hrest, hinOrder⟩ := ih hperm' (hsorted.sublist (by simp))
        (by simp at hturns ⊢; omega)
      refine ⟨operation :: rest, by simp [heq], (hrest.cons _).trans perm_middle.symm,
        fun _ => (hready _).mp hop, fun other hother hother' => ?_, hinOrder⟩
      -- What is ready was not skipped.
      rw [pairwise_append, pairwise_cons] at hsorted
      refine hsorted.2.1.1 other
        ((mem_append.mp (hrest.mem_iff.mp hother)).resolve_left fun hskip => ?_)
      exact absurd ((hready other).mpr hother') (by simpa using hskipped other hskip)

end Loop

lemma perm_byLineage : (byLineage operations).Perm operations := perm_insertionSort _ _

/-- Different operations have different lineage keys. -/
lemma pairwise_byLineage (hdistinct : (operations.map ClusterOperationRecord.id).Nodup) :
    (byLineage operations).Pairwise fun a b => a.lineageOrderKey < b.lineageOrderKey := by
  have hsorted : (byLineage operations).Pairwise fun a b => a.lineageOrderKey ≤ b.lineageOrderKey :=
    pairwise_insertionSort _ _
  have hnodup := (perm_byLineage.map ClusterOperationRecord.id).nodup_iff.mpr hdistinct
  refine (hsorted.and (pairwise_map.mp hnodup)).imp fun h => lt_of_le_of_ne h.1 fun hkey => h.2 ?_
  exact congrArg (fun key => (ofLex (ofLex key).2).2) hkey

/-- **Operations are ordered by dependency.** The result is a permutation of the operations in
which they are in order, and it is the same for every order of the input. -/
theorem operations_ordered_by_dependency (operations : List ClusterOperationRecord)
    (hdistinct : (operations.map ClusterOperationRecord.id).Nodup) :
    (orderClusterOperationsByDependency operations).Perm operations ∧
      InOrder operations [] (orderClusterOperationsByDependency operations) ∧
      ∀ other : List ClusterOperationRecord, other.Perm operations →
        orderClusterOperationsByDependency other =
          orderClusterOperationsByDependency operations := by
  have hsorted := pairwise_byLineage hdistinct
  have hperm : ([] ++ byLineage operations).Perm operations := perm_byLineage
  obtain ⟨rest, heq, hrest, hinOrder⟩ := orderLoop_inOrder hdistinct
    (fun id => (perm_byLineage.map ClusterOperationRecord.id).mem_iff) hperm hsorted
  rw [perm_byLineage.length_eq] at heq
  unfold orderClusterOperationsByDependency
  rw [heq]
  refine ⟨hrest.trans perm_byLineage, hinOrder, fun other hother => ?_⟩
  have hsame : byLineage other = byLineage operations := by
    refine (perm_byLineage.trans (hother.trans perm_byLineage.symm)).eq_of_pairwise
      (fun a b _ _ hab hba => absurd hab hba.asymm)
      (pairwise_byLineage ((hother.map _).nodup_iff.mpr hdistinct)) hsorted
  rw [hsame, hother.length_eq, heq]

/-- The merges, of which the second is older, come after the split they depend on. -/
theorem sampleOperations_ordered : InOrder (sampleOperations 1 2 3 3 5 4) []
    (orderClusterOperationsByDependency (sampleOperations 1 2 3 3 5 4)) :=
  (operations_ordered_by_dependency _ (by decide)).2.1

end Mantissa.Cluster
