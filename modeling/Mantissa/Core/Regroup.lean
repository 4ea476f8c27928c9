import Mathlib

/-!
# Regrouping members in causal order

Members live in groups. An operation dissolves some groups; their members go to groups it creates,
or join a group that exists already. Operations name the ones they depend on, and some of them have
been carried out: `Live done v` says that group `v` exists then, `Member done v n` that `n` has got
into it.

In a `History` every operation depends, directly or not, on those that shaped the groups it
dissolves and on the one that created the group its members join. If no group is dissolved twice,
the order of the operations does not matter: what a ready operation does to the groups is determined
by the set of operations before it (`Next.live_insert`, `Next.member_insert`), and the groups stay a
partition of the members the first operation brought in (`Next.partitioned`).
-/

namespace Mantissa

open Relation (TransGen)

/-- An operation on groups named by `V`, with members from `N`. -/
structure Regroup (V N ι : Type*) where
  id : ι
  dependencies : Set ι
  /-- The groups that are dissolved. -/
  consumed : Set V
  /-- The new groups, with their members. -/
  created : V → Option (Set N)
  /-- The group that the members of the dissolved ones join. -/
  joined : Option V

namespace Regroup

variable {V N ι : Type*}

/-- The operation has a part in what the group is. -/
def Produces (o : Regroup V N ι) (v : V) : Prop := (o.created v).isSome ∨ o.joined = some v

/-- `n` gets into the group `v` by one of the operations. -/
inductive Member (ops : Set (Regroup V N ι)) : V → N → Prop
  | created {o : Regroup V N ι} {v : V} {members : Set N} {n : N} :
      o ∈ ops → o.created v = some members → n ∈ members → Member ops v n
  | joined {o : Regroup V N ι} {s v : V} {n : N} :
      o ∈ ops → o.joined = some v → s ∈ o.consumed → Member ops s n → Member ops v n

variable (ops : Set (Regroup V N ι))

/-- The group has been created and not dissolved. -/
def Live (v : V) : Prop :=
  (∃ o ∈ ops, (o.created v).isSome) ∧ ∀ o ∈ ops, v ∉ o.consumed

/-- One of the operations depends on another. -/
def DependsOn (o p : Regroup V N ι) : Prop :=
  o ∈ ops ∧ p ∈ ops ∧ p.id ∈ o.dependencies

/-- Operations that regroup what `root` has brought in. -/
structure History (ops : Set (Regroup V N ι)) (root : Regroup V N ι) : Prop where
  acyclic : ∀ o, ¬ TransGen (DependsOn ops) o o
  afterProducers : ∀ o ∈ ops, ∀ v ∈ o.consumed, ∀ p ∈ ops, p.Produces v →
    TransGen (DependsOn ops) o p
  afterCreation : ∀ o ∈ ops, ∀ v, o.joined = some v → ∀ p ∈ ops, (p.created v).isSome →
    TransGen (DependsOn ops) o p
  createdOnce : ∀ o ∈ ops, ∀ p ∈ ops, ∀ v, (o.created v).isSome → (p.created v).isSome → o = p
  rootMem : root ∈ ops
  rootCreates : root.joined = none
  known : ∀ o ∈ ops, o ≠ root → ∀ v, v ∈ o.consumed ∨ o.joined = some v →
    ∃ p ∈ ops, (p.created v).isSome
  joinsOrCreates : ∀ o ∈ ops, ∀ t, o.joined = some t → t ∉ o.consumed ∧ ∀ v, o.created v = none
  apart : ∀ o ∈ ops, ∀ v w members members' n, o.created v = some members →
    o.created w = some members' → n ∈ members → n ∈ members' → v = w
  conserved : ∀ o ∈ ops, o ≠ root → o.joined = none → ∀ n,
    (∃ v members, o.created v = some members ∧ n ∈ members) ↔ ∃ s ∈ o.consumed, Member ops s n

/-- No group is dissolved twice. -/
def ConsumedOnce : Prop :=
  ∀ o ∈ ops, ∀ p ∈ ops, ∀ v, v ∈ o.consumed → v ∈ p.consumed → o = p

/-- Operations that were carried out after the ones they depend on. -/
structure Closed (ops done : Set (Regroup V N ι)) : Prop where
  subset : done ⊆ ops
  dependencies : ∀ q ∈ done, ∀ p ∈ ops, p.id ∈ q.dependencies → p ∈ done

/-- An operation that can be carried out now. -/
structure Next (ops done : Set (Regroup V N ι)) (o : Regroup V N ι) : Prop where
  closed : Closed ops done
  mem : o ∈ ops
  new : o ∉ done
  ready : ∀ p ∈ ops, p.id ∈ o.dependencies → p ∈ done

variable {ops done : Set (Regroup V N ι)} {root o : Regroup V N ι} {v : V} {n : N}

lemma closed_empty : Closed ops ∅ := ⟨Set.empty_subset _, nofun⟩

lemma Closed.of_transGen (h : Closed ops done) {p q : Regroup V N ι} (hq : q ∈ done)
    (hdep : TransGen (DependsOn ops) q p) : p ∈ done := by
  induction hdep with
  | single hdep => exact h.dependencies q hq _ hdep.2.1 hdep.2.2
  | tail _ hdep ih => exact h.dependencies _ ih _ hdep.2.1 hdep.2.2

lemma Next.of_transGen (h : Next ops done o) {p : Regroup V N ι}
    (hdep : TransGen (DependsOn ops) o p) : p ∈ done := by
  induction hdep with
  | single hdep => exact h.ready _ hdep.2.1 hdep.2.2
  | tail _ hdep ih => exact h.closed.dependencies _ ih _ hdep.2.1 hdep.2.2

lemma Next.closed_insert (h : Next ops done o) : Closed ops (insert o done) := by
  refine ⟨Set.insert_subset h.mem h.closed.subset, ?_⟩
  rintro q (rfl | hq) p hp hdep
  · exact .inr (h.ready p hp hdep)
  · exact .inr (h.closed.dependencies q hq p hp hdep)

lemma Member.mono {ops' : Set (Regroup V N ι)} (hsub : done ⊆ ops') (h : Member done v n) :
    Member ops' v n := by
  induction h with
  | created ho hcreated hn => exact .created (hsub ho) hcreated hn
  | joined ho hjoined hs _ ih => exact .joined (hsub ho) hjoined hs ih

/-- Without cycles some element of a finite set has no successor in it. -/
lemma exists_forall_not_of_acyclic {α : Type*} {r : α → α → Prop} (hacyclic : ∀ a, ¬ TransGen r a a)
    {s : Set α} (hfinite : s.Finite) (hnonempty : s.Nonempty) : ∃ a ∈ s, ∀ b ∈ s, ¬ r a b := by
  have hstrict : IsStrictOrder α fun b a => TransGen r a b :=
    { irrefl := hacyclic
      trans := fun _ _ _ hab hbc => hbc.trans hab }
  have hwell := hfinite.wellFoundedOn (r := fun b a => TransGen r a b)
  obtain ⟨⟨a, ha⟩, -, hmin⟩ := WellFounded.has_min hwell Set.univ
    ⟨⟨hnonempty.some, hnonempty.some_mem⟩, trivial⟩
  exact ⟨a, ha, fun b hb hab => hmin ⟨b, hb⟩ trivial (.single hab)⟩

/-- If operations are left, one of them can be carried out. -/
lemma History.exists_next (h : History ops root) (hfinite : ops.Finite) (hclosed : Closed ops done)
    (hleft : done ≠ ops) : ∃ o, Next ops done o := by
  have hnonempty : (ops \ done).Nonempty := by
    rw [Set.nonempty_iff_ne_empty, Ne, Set.sdiff_eq_empty]
    exact fun hsub => hleft (hclosed.subset.antisymm hsub)
  obtain ⟨o, ho, hnone⟩ :=
    exists_forall_not_of_acyclic h.acyclic (hfinite.subset Set.sdiff_subset) hnonempty
  refine ⟨o, hclosed, ho.1, ho.2, fun p hp hdep => ?_⟩
  by_contra hnot
  exact hnone p ⟨hp, hnot⟩ ⟨ho.1, hp, hdep⟩

/-- Dependencies that go down in some rank have no cycles. -/
lemma acyclic_of_rank (rank : Regroup V N ι → ℕ) (h : ∀ o p, DependsOn ops o p → rank p < rank o)
    (o : Regroup V N ι) : ¬ TransGen (DependsOn ops) o o := by
  intro hcycle
  have hlt : TransGen (· > ·) (rank o) (rank o) := hcycle.lift rank h
  rw [Relation.transGen_eq_self] at hlt
  exact lt_irrefl _ hlt

section Step

variable (hist : History ops root) (h : Next ops done o)

include hist

lemma History.ne_root_of_joined (hv : o.joined = some v) : o ≠ root := by
  rintro rfl
  rw [hist.rootCreates] at hv
  cases hv

/-- A group some member of which is known has been created. -/
lemma History.created_of_member (hclosed : Closed ops done) (hmem : Member done v n) :
    ∃ p ∈ done, (p.created v).isSome := by
  cases hmem with
  | created ho hcreated _ => exact ⟨_, ho, by rw [hcreated]; rfl⟩
  | @joined o _ _ _ ho hjoined _ _ =>
    obtain ⟨p, hp, hcreated⟩ :=
      hist.known o (hclosed.subset ho) (hist.ne_root_of_joined hjoined) v (.inr hjoined)
    exact ⟨p, hclosed.of_transGen ho
      (hist.afterCreation o (hclosed.subset ho) v hjoined p hp hcreated), hcreated⟩

/-- Whoever gets into a group at all is in it once all its producers have been carried out. -/
lemma History.member_of_producers (hclosed : Closed ops done) (hmem : Member ops v n)
    (hdone : ∀ p ∈ ops, p.Produces v → p ∈ done) : Member done v n := by
  induction hmem with
  | created ho hcreated hn =>
    exact .created (hdone _ ho (.inl (by rw [hcreated]; rfl))) hcreated hn
  | @joined o s v n ho hjoined hs _ ih =>
    have ho' : o ∈ done := hdone o ho (.inr hjoined)
    refine .joined ho' hjoined hs (ih ?_)
    intro p hp hproduces
    exact hclosed.of_transGen ho' (hist.afterProducers o ho s hs p hp hproduces)

include h

/-- Nothing that has been carried out depends on the operation. -/
lemma Next.not_depended {q : Regroup V N ι} (hq : q ∈ insert o done) :
    ¬ TransGen (DependsOn ops) q o := by
  intro hdep
  rcases hq with rfl | hq
  · exact hist.acyclic q hdep
  · exact h.new (h.closed.of_transGen hq hdep)

/-- So nothing that has been carried out dissolves a group the operation produces. -/
lemma Next.not_consumed {q : Regroup V N ι} (hq : q ∈ insert o done) (hproduces : o.Produces v) :
    v ∉ q.consumed := fun hconsumed =>
  h.not_depended hist hq (hist.afterProducers q (h.closed_insert.subset hq) v hconsumed o
    h.mem hproduces)

/-- The groups an operation creates are new. -/
lemma Next.not_member_created (hcreated : (o.created v).isSome) : ¬ Member done v n := by
  intro hmem
  obtain ⟨p, hp, hcreated'⟩ := hist.created_of_member h.closed hmem
  obtain rfl := hist.createdOnce o h.mem p (h.closed.subset hp) v hcreated hcreated'
  exact h.new hp

lemma Next.live_consumed (honce : ConsumedOnce ops) (hne : o ≠ root) (hv : v ∈ o.consumed) :
    Live done v := by
  refine ⟨?_, ?_⟩
  · obtain ⟨p, hp, hcreated⟩ := hist.known o h.mem hne v (.inl hv)
    exact ⟨p, h.of_transGen (hist.afterProducers o h.mem v hv p hp (.inl hcreated)), hcreated⟩
  · intro q hq hconsumed
    obtain rfl := honce o h.mem q (h.closed.subset hq) v hv hconsumed
    exact h.new hq

lemma Next.live_joined (hv : o.joined = some v) : Live done v := by
  refine ⟨?_, fun q hq => h.not_consumed hist (.inr hq) (.inr hv)⟩
  obtain ⟨p, hp, hcreated⟩ := hist.known o h.mem (hist.ne_root_of_joined hv) v (.inr hv)
  exact ⟨p, h.of_transGen (hist.afterCreation o h.mem v hv p hp hcreated), hcreated⟩

/-- **Which groups there are after the operation.** -/
lemma Next.live_insert :
    Live (insert o done) v ↔ (o.created v).isSome ∨ Live done v ∧ v ∉ o.consumed := by
  constructor
  · rintro ⟨⟨p, rfl | hp, hcreated⟩, hconsumed⟩
    · exact .inl hcreated
    · exact .inr ⟨⟨⟨p, hp, hcreated⟩, fun q hq => hconsumed q (.inr hq)⟩, hconsumed o (.inl rfl)⟩
  · rintro (hcreated | ⟨⟨⟨p, hp, hcreated⟩, hkept⟩, hconsumed⟩)
    · exact ⟨⟨o, .inl rfl, hcreated⟩, fun q hq => h.not_consumed hist hq (.inl hcreated)⟩
    · refine ⟨⟨p, .inr hp, hcreated⟩, ?_⟩
      rintro q (rfl | hq)
      · exact hconsumed
      · exact hkept q hq

/-- **Who is in a group after the operation.** -/
lemma Next.member_insert : Member (insert o done) v n ↔ Member done v n ∨
      (∃ members, o.created v = some members ∧ n ∈ members) ∨
      o.joined = some v ∧ ∃ s ∈ o.consumed, Member done s n := by
  constructor
  · intro hmem
    induction hmem with
    | @created p v members n hp hcreated hn =>
      rcases hp with rfl | hp
      · exact .inr (.inl ⟨members, hcreated, hn⟩)
      · exact .inl (.created hp hcreated hn)
    | @joined p s v n hp hjoined hs _ ih =>
      -- Members of `s` are old, since nothing dissolves a group the operation produces.
      have hold : Member done s n := by
        rcases ih with hold | ⟨members, hcreated, -⟩ | ⟨hjoin, -⟩
        · exact hold
        · exact absurd hs (h.not_consumed hist hp (.inl (by rw [hcreated]; rfl)))
        · exact absurd hs (h.not_consumed hist hp (.inr hjoin))
      rcases hp with rfl | hp
      · exact .inr (.inr ⟨hjoined, s, hs, hold⟩)
      · exact .inl (.joined hp hjoined hs hold)
  · rintro (hold | ⟨members, hcreated, hn⟩ | ⟨hjoined, s, hs, hold⟩)
    · exact hold.mono (Set.subset_insert _ _)
    · exact .created (.inl rfl) hcreated hn
    · exact .joined (.inl rfl) hjoined hs (hold.mono (Set.subset_insert _ _))

end Step

/-! ## The groups form a partition -/

/-- The groups divide up what the root has brought in. -/
structure Partitioned (root : Regroup V N ι) (done : Set (Regroup V N ι)) : Prop where
  unique : ∀ v w n, Live done v → Live done w → Member done v n → Member done w n → v = w
  covers : ∀ n, (∃ v, Live done v ∧ Member done v n) ↔
    root ∈ done ∧ ∃ v members, root.created v = some members ∧ n ∈ members

lemma partitioned_empty : Partitioned root (∅ : Set (Regroup V N ι)) := by
  refine ⟨?_, ?_⟩
  · rintro v w n ⟨⟨o, ho, -⟩, -⟩
    exact absurd ho (Set.notMem_empty o)
  · intro n
    constructor
    · rintro ⟨v, ⟨⟨o, ho, -⟩, -⟩, -⟩
      exact absurd ho (Set.notMem_empty o)
    · rintro ⟨hroot, -⟩
      exact absurd hroot (Set.notMem_empty root)

section Partition

variable (hist : History ops root) (h : Next ops done o)

include hist h

variable (honce : ConsumedOnce ops)

include honce

/-- The members of the dissolved groups are those of the new ones. -/
lemma Next.created_iff (hne : o ≠ root) (hjoined : o.joined = none) :
    (∃ v members, o.created v = some members ∧ n ∈ members) ↔
      ∃ s ∈ o.consumed, Live done s ∧ Member done s n := by
  rw [hist.conserved o h.mem hne hjoined n]
  constructor
  · rintro ⟨s, hs, hmem⟩
    refine ⟨s, hs, h.live_consumed hist honce hne hs, ?_⟩
    refine hist.member_of_producers h.closed hmem ?_
    intro p hp hproduces
    exact h.of_transGen (hist.afterProducers o h.mem s hs p hp hproduces)
  · rintro ⟨s, hs, -, hmem⟩
    exact ⟨s, hs, hmem.mono h.closed.subset⟩

omit honce in
/-- The members of live groups after the operation: those of a group that is kept, of a new one, or
of the group that was joined. -/
lemma Next.live_member_cases (hlive : Live (insert o done) v) (hmem : Member (insert o done) v n) :
    (Live done v ∧ v ∉ o.consumed ∧ Member done v n) ∨
      (∃ members, o.created v = some members ∧ n ∈ members) ∨
      o.joined = some v ∧ ∃ s ∈ o.consumed, Member done s n := by
  rcases (h.member_insert hist).mp hmem with hold | hcreated | hjoined
  · rcases (h.live_insert hist).mp hlive with hnew | ⟨hlive', hkept⟩
    · exact absurd hold (h.not_member_created hist hnew)
    · exact .inl ⟨hlive', hkept, hold⟩
  · exact .inr (.inl hcreated)
  · exact .inr (.inr hjoined)

variable (hpart : Partitioned root done)

include hpart

/-- Operations that create groups keep the partition. -/
lemma Next.partitioned_of_creates
    (hjoined : o.joined = none) (hne : o ≠ root) : Partitioned root (insert o done) := by
  have hcases : ∀ {v n}, Live (insert o done) v → Member (insert o done) v n →
      (Live done v ∧ v ∉ o.consumed ∧ Member done v n) ∨
        ∃ members, o.created v = some members ∧ n ∈ members := by
    intro v n hlive hmem
    rcases h.live_member_cases hist hlive hmem with hold | hnew | ⟨hjoin, -⟩
    · exact .inl hold
    · exact .inr hnew
    · rw [hjoined] at hjoin
      cases hjoin
  -- Nobody is both in a kept group and in a new one.
  have hapart : ∀ {v w n members}, Live done v → v ∉ o.consumed → Member done v n →
      o.created w = some members → n ∉ members := by
    intro v w n members hlive hkept hmem hcreated hn
    obtain ⟨s, hs, hslive, hsmem⟩ :=
      (h.created_iff hist honce hne hjoined).mp ⟨w, members, hcreated, hn⟩
    exact hkept (hpart.unique v s n hlive hslive hmem hsmem ▸ hs)
  refine ⟨?_, ?_⟩
  · intro v w n hv hw hvn hwn
    rcases hcases hv hvn with ⟨hvlive, hvkept, hvmem⟩ | ⟨members, hvcreated, hvn'⟩
    · rcases hcases hw hwn with ⟨hwlive, -, hwmem⟩ | ⟨members, hwcreated, hwn'⟩
      · exact hpart.unique v w n hvlive hwlive hvmem hwmem
      · exact absurd hwn' (hapart hvlive hvkept hvmem hwcreated)
    · rcases hcases hw hwn with ⟨hwlive, hwkept, hwmem⟩ | ⟨members', hwcreated, hwn'⟩
      · exact absurd hvn' (hapart hwlive hwkept hwmem hvcreated)
      · exact hist.apart o h.mem v w members members' n hvcreated hwcreated hvn' hwn'
  · intro n
    have hroot : root ∈ insert o done ↔ root ∈ done :=
      ⟨fun hmem => hmem.resolve_left (Ne.symm hne), .inr⟩
    rw [hroot, ← hpart.covers n]
    constructor
    · rintro ⟨v, hlive, hmem⟩
      rcases hcases hlive hmem with ⟨hlive', -, hmem'⟩ | ⟨members, hcreated, hn⟩
      · exact ⟨v, hlive', hmem'⟩
      · obtain ⟨s, -, hs⟩ := (h.created_iff hist honce hne hjoined).mp ⟨v, members, hcreated, hn⟩
        exact ⟨s, hs⟩
    · rintro ⟨v, hlive, hmem⟩
      by_cases hv : v ∈ o.consumed
      · obtain ⟨w, members, hcreated, hn⟩ :=
          (h.created_iff hist honce hne hjoined).mpr ⟨v, hv, hlive, hmem⟩
        exact ⟨w, (h.live_insert hist).mpr (.inl (by rw [hcreated]; rfl)),
          .created (.inl rfl) hcreated hn⟩
      · exact ⟨v, (h.live_insert hist).mpr (.inr ⟨hlive, hv⟩), hmem.mono (Set.subset_insert _ _)⟩

omit honce in
/-- So does the first operation. -/
lemma Next.partitioned_of_root (heq : o = root) : Partitioned root (insert o done) := by
  subst heq
  have hnobody : ∀ v n, Live done v → ¬ Member done v n := fun v n hlive hmem =>
    h.new ((hpart.covers n).mp ⟨v, hlive, hmem⟩).1
  have hcases : ∀ {v n}, Live (insert o done) v → Member (insert o done) v n →
      ∃ members, o.created v = some members ∧ n ∈ members := by
    intro v n hlive hmem
    rcases h.live_member_cases hist hlive hmem with ⟨hlive', -, hold⟩ | hnew | ⟨hjoin, -⟩
    · exact absurd hold (hnobody v n hlive')
    · exact hnew
    · rw [hist.rootCreates] at hjoin
      cases hjoin
  refine ⟨?_, ?_⟩
  · intro v w n hv hw hvn hwn
    obtain ⟨members, hcreated, hn⟩ := hcases hv hvn
    obtain ⟨members', hcreated', hn'⟩ := hcases hw hwn
    exact hist.apart o h.mem v w members members' n hcreated hcreated' hn hn'
  · intro n
    constructor
    · rintro ⟨v, hlive, hmem⟩
      exact ⟨.inl rfl, v, hcases hlive hmem⟩
    · rintro ⟨-, v, members, hcreated, hn⟩
      exact ⟨v, (h.live_insert hist).mpr (.inl (by rw [hcreated]; rfl)),
        .created (.inl rfl) hcreated hn⟩

/-- And so do operations that let members join. -/
lemma Next.partitioned_of_joins {t : V}
    (hjoined : o.joined = some t) : Partitioned root (insert o done) := by
  have hne : o ≠ root := hist.ne_root_of_joined hjoined
  obtain ⟨htarget, hnone⟩ := hist.joinsOrCreates o h.mem t hjoined
  have hcases : ∀ {v n}, Live (insert o done) v → Member (insert o done) v n →
      (Live done v ∧ v ∉ o.consumed ∧ Member done v n) ∨
        v = t ∧ ∃ s ∈ o.consumed, Live done s ∧ Member done s n := by
    intro v n hlive hmem
    rcases h.live_member_cases hist hlive hmem with
      hold | ⟨members, hcreated, -⟩ | ⟨hjoin, s, hs, hmem'⟩
    · exact .inl hold
    · rw [hnone] at hcreated
      cases hcreated
    · rw [hjoined] at hjoin
      exact .inr ⟨(Option.some.inj hjoin).symm, s, hs, h.live_consumed hist honce hne hs, hmem'⟩
  refine ⟨?_, ?_⟩
  · intro v w n hv hw hvn hwn
    rcases hcases hv hvn with ⟨hvlive, hvkept, hvmem⟩ | ⟨rfl, s, hs, hslive, hsmem⟩
    · rcases hcases hw hwn with ⟨hwlive, -, hwmem⟩ | ⟨rfl, s, hs, hslive, hsmem⟩
      · exact hpart.unique v w n hvlive hwlive hvmem hwmem
      · exact absurd (hpart.unique v s n hvlive hslive hvmem hsmem ▸ hs) hvkept
    · rcases hcases hw hwn with ⟨hwlive, hwkept, hwmem⟩ | ⟨rfl, -⟩
      · exact absurd (hpart.unique w s n hwlive hslive hwmem hsmem ▸ hs) hwkept
      · rfl
  · intro n
    have hroot : root ∈ insert o done ↔ root ∈ done :=
      ⟨fun hmem => hmem.resolve_left (Ne.symm hne), .inr⟩
    rw [hroot, ← hpart.covers n]
    constructor
    · rintro ⟨v, hlive, hmem⟩
      rcases hcases hlive hmem with ⟨hlive', -, hmem'⟩ | ⟨-, s, -, hs⟩
      · exact ⟨v, hlive', hmem'⟩
      · exact ⟨s, hs⟩
    · rintro ⟨v, hlive, hmem⟩
      by_cases hv : v ∈ o.consumed
      · refine ⟨t, (h.live_insert hist).mpr (.inr ⟨h.live_joined hist hjoined, htarget⟩), ?_⟩
        exact .joined (.inl rfl) hjoined hv (hmem.mono (Set.subset_insert _ _))
      · exact ⟨v, (h.live_insert hist).mpr (.inr ⟨hlive, hv⟩), hmem.mono (Set.subset_insert _ _)⟩

/-- **Every operation of a history keeps the partition.** -/
theorem Next.partitioned : Partitioned root (insert o done) := by
  cases hjoined : o.joined with
  | some t => exact h.partitioned_of_joins hist honce hpart hjoined
  | none =>
    by_cases hroot : o = root
    · exact h.partitioned_of_root hist hpart hroot
    · exact h.partitioned_of_creates hist honce hpart hjoined hroot

end Partition

end Regroup

end Mantissa
