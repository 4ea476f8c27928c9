import Mathlib

/-!
# Searching a graph with a stack

A search keeps a stack of nodes still to visit and the set of those it has seen. It ends with the
goal, or with an empty stack. The graph may have cycles: a node is expanded once only, so with
finitely many expandable nodes the loop ends (`loop_isSome`), and what it answers is reachability
(`loop_eq_iff`).

The loop takes fuel and answers `none` if that runs out; more fuel never changes an answer
(`loop_mono`).
-/

namespace Mantissa.GraphSearch

open List Finset

variable {K : Type*} (next : K → List K)

/-- One edge of the graph. -/
def Edge (x y : K) : Prop := y ∈ next x

/-- `goal` can be reached from one of the roots, which it may be itself. -/
def Reachable (roots : List K) (goal : K) : Prop :=
  ∃ x ∈ roots, Relation.ReflTransGen (Edge next) x goal

variable [DecidableEq K] (goal : K)

/-- The loop, with the top of the stack first; what a node leads to goes on top in its order. -/
def loop : ℕ → List K → Finset K → Option Bool
  | 0, _, _ => none
  | _ + 1, [], _ => some false
  | fuel + 1, x :: pending, seen =>
    if x = goal then some true
    else if x ∈ seen then loop fuel pending seen
    else loop fuel ((next x).reverse ++ pending) (insert x seen)

variable {next} {goal} {fuel fuel' : ℕ} {pending roots : List K} {seen : Finset K} {answer : Bool}

/-! ## Fuel -/

lemma loop_mono (hle : fuel ≤ fuel') (h : loop next goal fuel pending seen = some answer) :
    loop next goal fuel' pending seen = some answer := by
  induction fuel generalizing fuel' pending seen with
  | zero => cases h
  | succ fuel ih =>
    obtain ⟨fuel', rfl⟩ := Nat.exists_eq_succ_of_ne_zero (by omega : fuel' ≠ 0)
    cases pending with
    | nil => exact h
    | cons x pending =>
      rw [loop] at h ⊢
      split_ifs at h ⊢ with hgoal hseen
      · exact h
      · exact ih (by omega) h
      · exact ih (by omega) h

/-- **Every pop is paid for**, by a place on the stack or by a node expanded for the first time, so
the loop ends when only the nodes of a finite set lead anywhere. -/
theorem loop_isSome {nodes : Finset K} (hnodes : ∀ x ∉ nodes, next x = [])
    (hfuel : pending.length + ∑ x ∈ nodes \ seen, (next x).length < fuel) :
    (loop next goal fuel pending seen).isSome = true := by
  induction fuel generalizing pending seen with
  | zero => omega
  | succ fuel ih =>
    cases pending with
    | nil => rfl
    | cons x pending =>
      rw [length_cons] at hfuel
      rw [loop]
      split_ifs with hgoal hseen
      · rfl
      · exact ih (by omega)
      · have hsum : (next x).length + ∑ y ∈ nodes \ insert x seen, (next y).length =
            ∑ y ∈ nodes \ seen, (next y).length := by
          rw [sdiff_insert]
          by_cases hx : x ∈ nodes
          · exact add_sum_erase _ (fun y => (next y).length) (mem_sdiff.mpr ⟨hx, hseen⟩)
          · have hout : x ∉ nodes \ seen := fun h => hx (mem_sdiff.mp h).1
            rw [hnodes x hx, length_nil, Nat.zero_add, erase_eq_of_notMem hout]
        refine ih ?_
        rw [length_append, length_reverse]
        omega

/-! ## Reachability -/

lemma reachable_of_loop (h : loop next goal fuel pending seen = some true) :
    Reachable next pending goal := by
  induction fuel generalizing pending seen with
  | zero => cases h
  | succ fuel ih =>
    cases pending with
    | nil => cases h
    | cons x pending =>
      rw [loop] at h
      split_ifs at h with hgoal hseen
      · exact ⟨x, mem_cons_self, hgoal ▸ .refl⟩
      · obtain ⟨y, hy, hpath⟩ := ih h
        exact ⟨y, mem_cons_of_mem x hy, hpath⟩
      · obtain ⟨y, hy, hpath⟩ := ih h
        rcases mem_append.mp hy with hy | hy
        · exact ⟨x, mem_cons_self, .head (mem_reverse.mp hy) hpath⟩
        · exact ⟨y, mem_cons_of_mem x hy, hpath⟩

/-- A search that fails has seen a set without the goal that no edge leaves. -/
lemma exists_closed_of_loop (h : loop next goal fuel pending seen = some false)
    (hgoal : goal ∉ seen) (hseen : ∀ x ∈ seen, ∀ y ∈ next x, y ∈ seen ∨ y ∈ pending) :
    ∃ all : Finset K, goal ∉ all ∧ seen ⊆ all ∧ (∀ x ∈ pending, x ∈ all) ∧
      ∀ x ∈ all, ∀ y ∈ next x, y ∈ all := by
  induction fuel generalizing pending seen with
  | zero => cases h
  | succ fuel ih =>
    cases pending with
    | nil =>
      refine ⟨seen, hgoal, subset_rfl, nofun, ?_⟩
      exact fun x hx y hy => (hseen x hx y hy).resolve_right not_mem_nil
    | cons x pending =>
      rw [loop] at h
      split_ifs at h with hx hmem
      · cases h
      · -- `x` was seen before, and still is
        obtain ⟨all, hout, hsub, hpending, hclosed⟩ := ih h hgoal fun z hz y hy => by
          rcases hseen z hz y hy with hy | hy
          · exact .inl hy
          · rcases mem_cons.mp hy with rfl | hy
            · exact .inl hmem
            · exact .inr hy
        refine ⟨all, hout, hsub, ?_, hclosed⟩
        exact forall_mem_cons.mpr ⟨hsub hmem, hpending⟩
      · have hinsert : ∀ z ∈ insert x seen, ∀ y ∈ next z,
            y ∈ insert x seen ∨ y ∈ (next x).reverse ++ pending := by
          intro z hz y hy
          rcases mem_insert.mp hz with rfl | hz
          · exact .inr (mem_append_left _ (mem_reverse.mpr hy))
          · rcases hseen z hz y hy with hy | hy
            · exact .inl (mem_insert_of_mem hy)
            · rcases mem_cons.mp hy with rfl | hy
              · exact .inl (mem_insert_self y seen)
              · exact .inr (mem_append_right _ hy)
        have hout : goal ∉ insert x seen := by
          rw [mem_insert, not_or]
          exact ⟨fun heq => hx heq.symm, hgoal⟩
        obtain ⟨all, hout, hsub, hpending, hclosed⟩ := ih h hout hinsert
        refine ⟨all, hout, (subset_insert x seen).trans hsub, ?_, hclosed⟩
        refine forall_mem_cons.mpr ⟨hsub (mem_insert_self x seen), fun y hy => ?_⟩
        exact hpending y (mem_append_right _ hy)

/-- **The answer is reachability.** -/
theorem loop_eq_iff (h : loop next goal fuel roots ∅ = some answer) :
    answer = true ↔ Reachable next roots goal := by
  cases answer with
  | true => exact ⟨fun _ => reachable_of_loop h, fun _ => rfl⟩
  | false =>
    refine ⟨nofun, ?_⟩
    rintro ⟨x, hx, hpath⟩
    obtain ⟨all, hout, -, hroots, hclosed⟩ := exists_closed_of_loop h (notMem_empty goal)
      fun z hz => absurd hz (notMem_empty z)
    have hall : ∀ y, Relation.ReflTransGen (Edge next) x y → y ∈ all := by
      intro y hpath
      induction hpath with
      | refl => exact hroots x hx
      | tail _ hedge ih => exact hclosed _ ih _ hedge
    exact absurd (hall goal hpath) hout

end Mantissa.GraphSearch
