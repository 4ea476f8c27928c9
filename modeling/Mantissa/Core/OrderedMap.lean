import Mathlib

/-!
# Ordered finite maps

Rust's `BTreeMap` and an ordered key-value table are the same mathematical object: a finite map
that iterates in key order and is determined by its lookups. `Std.ExtTreeMap` is that object, so
this file only fixes the comparison to the one of a `LinearOrder` and states the lookup rules in
terms of `=` rather than of `compare`.

`upsertAll` is the one operation added: replaying a list of updates, later ones winning. It is
how an index that is patched row by row is compared with one that is rebuilt from scratch.
-/

namespace Mantissa

open List

/-- A finite map iterating in ascending key order, equal to another exactly when all lookups
agree. -/
abbrev BTreeMap (K V : Type*) [LinearOrder K] :=
  Std.ExtTreeMap K V (compare : K → K → Ordering)

section Instances

-- Named here once, so that all maps over a key type carry the same proofs.
variable {K : Type*} [LinearOrder K]

instance transCmpOfLinearOrder : Std.TransCmp (compare : K → K → Ordering) := inferInstance

instance transOrdLex : Std.TransOrd (Lex (ℕ × K)) := inferInstance

instance lawfulBEqOfLinearOrder : LawfulBEq K := inferInstance

end Instances

namespace BTreeMap

variable {K V W : Type*} [LinearOrder K]

variable (m : BTreeMap K V)

lemma getElem?_insert_eq (k a : K) (v : V) : (m.insert k v)[a]? = if k =
    a then some v else m[a]? := by
  simp [Std.ExtTreeMap.getElem?_insert]

lemma getElem?_erase_eq (k a : K) : (m.erase k)[a]? = if k = a then none else m[a]? := by
  simp [Std.ExtTreeMap.getElem?_erase]

@[simp] lemma getElem?_insert_same (k : K) (v : V) : (m.insert k v)[k]? = some v := by
  simp

variable {k : K}

lemma getElem?_insert_ne {a : K} (v : V) (h : k ≠ a) : (m.insert k v)[a]? = m[a]? := by
  simp [getElem?_insert_eq, h]

@[simp] lemma getElem?_erase_same (k : K) : (m.erase k)[k]? = none := by
  simp

lemma getElem?_erase_ne {a : K} (h : k ≠ a) : (m.erase k)[a]? = m[a]? := by
  simp [getElem?_erase_eq, h]

lemma mem_toList {m : BTreeMap K V} {v : V} : (k, v) ∈ m.toList ↔ m[k]? = some v :=
  Std.ExtTreeMap.mem_toList_iff_getElem?_eq_some

/-- Iteration is in strictly ascending key order. -/
lemma pairwise_toList : m.toList.Pairwise fun p q => p.1 < q.1 :=
  m.ordered_keys_toList.imp fun h => compare_lt_iff_lt.mp h

/-- Two maps with the same lookups are the same map. -/
lemma ext_lookup {m n : BTreeMap K V} (h : ∀ k : K, m[k]? = n[k]?) : m = n :=
  Std.ExtTreeMap.ext_getElem? h

/-! ## Replaying updates -/

/-- Insert every pair of a list, in order. -/
def upsertAll (l : List (K × V)) : BTreeMap K V :=
  l.foldl (fun acc p => acc.insert p.1 p.2) m

@[simp] lemma upsertAll_nil : upsertAll m [] = m := rfl

@[simp] lemma upsertAll_cons (p : K × V) (l : List (K × V)) :
    upsertAll m (p :: l) = upsertAll (m.insert p.1 p.2) l := rfl

lemma upsertAll_append (l l' : List (K × V)) : upsertAll m (l ++ l') =
    upsertAll (upsertAll m l) l' :=
  foldl_append

variable {l : List (K × V)}

/-- Updates of other keys do not disturb a key. -/
lemma getElem?_upsertAll_of_not_mem :
    ∀ (m : BTreeMap K V), k ∉ l.map Prod.fst → (upsertAll m l)[k]? = m[k]? := by
  induction l with
  | nil => intro m _; rfl
  | cons p l ih =>
    intro m hk
    simp only [map_cons, mem_cons, not_or] at hk
    rw [upsertAll_cons, ih _ hk.2, getElem?_insert_ne _ _ (Ne.symm hk.1)]

/-- Replaying updates whose keys are distinct looks each of them up. -/
lemma getElem?_upsertAll_of_mem {v : V} :
    ∀ (m : BTreeMap K V), (l.map Prod.fst).Nodup → (k, v) ∈ l → (upsertAll m l)[k]? = some v := by
  induction l with
  | nil => intro m _ h; simp at h
  | cons p l ih =>
    intro m hnd hmem
    simp only [map_cons, nodup_cons] at hnd
    rcases mem_cons.mp hmem with h | h
    · subst h
      rw [upsertAll_cons, getElem?_upsertAll_of_not_mem _ hnd.1, getElem?_insert_same]
    · exact ih _ hnd.2 h

/-- After replaying updates a key has one of its updates, or what it had before. -/
lemma getElem?_upsertAll_cases (k : K) : ∀ (l : List (K × V)) (m : BTreeMap K V),
    (k ∉ l.map Prod.fst ∧ (upsertAll m l)[k]? = m[k]?) ∨ ∃ v, (k, v) ∈ l ∧
      (upsertAll m l)[k]? = some v
  | [], _ => .inl ⟨by simp, rfl⟩
  | p :: l, m => by
    rw [upsertAll_cons]
    rcases getElem?_upsertAll_cases k l (m.insert p.1 p.2) with ⟨hnot, heq⟩ | ⟨v, hmem, heq⟩
    · rcases eq_or_ne p.1 k with rfl | hne
      · exact .inr ⟨p.2, mem_cons_self .., by rw [heq, getElem?_insert_same]⟩
      · rw [getElem?_insert_ne _ _ hne] at heq
        refine .inl ⟨?_, heq⟩
        simp only [map_cons, mem_cons, not_or]
        exact ⟨hne.symm, hnot⟩
    · exact .inr ⟨v, mem_cons_of_mem p hmem, heq⟩

/-- Replaying updates whose keys are distinct: an update, or what was there before. -/
lemma getElem?_upsertAll_eq_some {m : BTreeMap K V} {v : V} (hnodup : (l.map Prod.fst).Nodup) :
    (upsertAll m l)[k]? = some v ↔ (k, v) ∈ l ∨ k ∉ l.map Prod.fst ∧ m[k]? = some v := by
  rcases getElem?_upsertAll_cases k l m with ⟨hnot, heq⟩ | ⟨w, hmem, heq⟩
  · have hnot' : (k, v) ∉ l := fun h => hnot (mem_map.mpr ⟨_, h, rfl⟩)
    simp [heq, hnot, hnot']
  · have hkey : k ∈ l.map Prod.fst := mem_map.mpr ⟨_, hmem, rfl⟩
    rw [heq]
    constructor
    · intro h
      exact .inl (Option.some.inj h ▸ hmem)
    · rintro (h | ⟨hnot, -⟩)
      · rw [← heq]
        exact getElem?_upsertAll_of_mem m hnodup h
      · exact absurd hkey hnot

/-- Replaying updates that give a key at most one value looks that value up. -/
lemma getElem?_upsertAll_empty {o : Option V}
    (h : ∀ v, (k, v) ∈ l ↔ o = some v) : (upsertAll (∅ : BTreeMap K V) l)[k]? = o := by
  rcases getElem?_upsertAll_cases k l ∅ with ⟨hnot, heq⟩ | ⟨v, hmem, heq⟩
  · have hnone : o = none := Option.eq_none_iff_forall_ne_some.mpr fun v hv =>
      hnot (mem_map.mpr ⟨(k, v), (h v).mpr hv, rfl⟩)
    rw [heq, hnone]
    simp
  · rw [heq, (h v).mp hmem]

/-- Keys of the iteration are distinct. -/
lemma nodup_keys : (m.toList.map Prod.fst).Nodup := by
  have h := pairwise_toList m
  rw [nodup_iff_pairwise_ne, pairwise_map]
  exact h.imp fun hlt => ne_of_lt hlt

/-- Replaying all rows of one map, sent through `f`, over another: the replayed rows win. -/
lemma getElem?_upsertAll_map (m : BTreeMap K W) (n : BTreeMap K V) (f : V → W) (k : K) :
    (upsertAll m (n.toList.map fun p => (p.1, f p.2)))[k]? = (n[k]?.map f).or m[k]? := by
  have hkeys : (n.toList.map fun p => (p.1, f p.2)).map Prod.fst = n.toList.map Prod.fst := by
    simp [Function.comp_def]
  cases h : n[k]? with
  | some v =>
    have hmem : (k, f v) ∈ n.toList.map fun p => (p.1, f p.2) :=
      mem_map.mpr ⟨(k, v), mem_toList.mpr h, rfl⟩
    rw [getElem?_upsertAll_of_mem m (by rw [hkeys]; exact nodup_keys n) hmem]
    rfl
  | none =>
    have hk : k ∉ (n.toList.map fun p => (p.1, f p.2)).map Prod.fst := by
      rw [hkeys]
      rintro hk
      obtain ⟨p, hp, rfl⟩ := mem_map.mp hk
      rw [mem_toList.mp hp] at h
      exact Option.some_ne_none _ h
    rw [getElem?_upsertAll_of_not_mem m hk]
    rfl

end BTreeMap

end Mantissa
