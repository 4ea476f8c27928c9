import Mantissa.Core.Run
import Mantissa.Network.Allocator
import Mantissa.Scheduler.Snapshot

/-!
# Creating networks

A node keeps the subnets of its active networks in a cache: the overlap index and the block of each
network. `create` rejects an explicit subnet that overlaps another active network, keeps the subnet
of a network that is updated without one, and searches the default subnets otherwise.

`Indexed` says that the cache describes the specifications, and `Separated` that no two active
networks overlap. Both hold in every state (`registryStep_keeps`). The check compares masked
blocks, so it says something about the addresses only as far as these stay in their blocks:
`overlay_addresses_iff`. Two networks that the check accepted can share an address otherwise
(`shared_overlay_address`).
-/

namespace Mantissa.Network

open CidrBlock List

inductive NetworkStatus
  | pending
  | provisioning
  | ready
  | degraded
  | deleting
  | deleted
  deriving DecidableEq

inductive NetworkDriver
  | vxlan
  | bridge
  deriving DecidableEq

inductive NetworkRealizationPolicy
  | allNodes
  | onDemand
  deriving DecidableEq

inductive BpfAttachPoint
  | vxlanXdp
  | bridgeXdp
  | bridgeTcIngress
  | bridgeTcEgress
  deriving DecidableEq

structure BpfProgramSpec where
  name : String
  attachPoint : BpfAttachPoint
  deriving DecidableEq

/-- `NetworkSpecValue`. -/
structure NetworkSpecValue where
  id : Uuid
  name : String
  description : String
  driver : NetworkDriver
  subnetCidr : String
  vni : ℕ
  mtu : ℕ
  createdAt : String
  updatedAt : String
  status : NetworkStatus
  isSealed : Bool
  realization : NetworkRealizationPolicy
  bpfPrograms : List BpfProgramSpec
  deriving DecidableEq

namespace NetworkSpecValue

/-- `is_deleted`. -/
def isDeleted (spec : NetworkSpecValue) : Bool := decide (spec.status = .deleted)

/-- `mark_deleted`. -/
def markDeleted (spec : NetworkSpecValue) (now : String) : NetworkSpecValue :=
  { spec with isSealed := true, status := .deleted, updatedAt := now }

end NetworkSpecValue

/-! ## The cache -/

/-- `active_subnet_index` and `active_cidrs_by_spec`. -/
structure SubnetCache where
  index : CidrOverlapIndex
  activeCidrs : List (Uuid × CidrBlock)

/-- An empty cache. -/
def SubnetCache.new : SubnetCache := ⟨.new, []⟩

variable (text : CidrText)

/-- `active_subnet_key`. -/
def activeSubnetKey (spec : NetworkSpecValue) : Option String :=
  if spec.isDeleted then none
  else
    let subnet := text.trim spec.subnetCidr
    if subnet.isEmpty then none else some subnet

variable (cache : SubnetCache)

/-- `add_active_subnet`. -/
def SubnetCache.addActiveSubnet (specId : Uuid) (subnet : String) : SubnetCache :=
  match cache.index.insertCidr text subnet with
  | .ok (index, block) =>
    ⟨index, (specId, block) :: cache.activeCidrs.eraseP (fun entry => decide (entry.1 = specId))⟩
  | .error _ => cache

/-- `remove_active_subnet`. -/
def SubnetCache.removeActiveSubnet (specId : Uuid) : SubnetCache :=
  match cache.activeCidrs.find? (fun entry => decide (entry.1 = specId)) with
  | some (_, block) =>
    ⟨cache.index.remove block,
      cache.activeCidrs.eraseP (fun entry => decide (entry.1 = specId))⟩
  | none => cache

/-- Index a specification if it is active. -/
def SubnetCache.addSpec (value : NetworkSpecValue) : SubnetCache :=
  match activeSubnetKey text value with
  | some subnet => cache.addActiveSubnet text value.id subnet
  | none => cache

/-! ## The registry -/

/-- `NetworkRegistry`: the specifications and what is derived from them. -/
structure NetworkRegistry where
  specs : List NetworkSpecValue
  cache : SubnetCache

namespace NetworkRegistry

/-- A registry without networks. -/
def new : NetworkRegistry := ⟨[], .new⟩

variable (registry : NetworkRegistry)

/-- `get_spec`. -/
def getSpec (id : Uuid) : Option NetworkSpecValue :=
  registry.specs.find? (fun spec => decide (spec.id = id))

/-- `apply_spec_upsert`, after the specification was stored. -/
def upsertSpec (value : NetworkSpecValue) : NetworkRegistry :=
  if (registry.getSpec value.id).isSome then
    ⟨registry.specs.map fun spec => if spec.id = value.id then value else spec,
      (registry.cache.removeActiveSubnet value.id).addSpec text value⟩
  else ⟨registry.specs ++ [value], registry.cache.addSpec text value⟩

/-- `apply_spec_remove`, but for the order: the source moves the last specification into the gap. -/
def removeSpec (id : Uuid) : NetworkRegistry :=
  if (registry.getSpec id).isSome then
    ⟨registry.specs.filter fun spec => decide (spec.id ≠ id), registry.cache.removeActiveSubnet id⟩
  else registry

/-- `refresh_spec_cache_if_needed`, when it rebuilds. -/
def refresh : NetworkRegistry :=
  { registry with cache := registry.specs.foldl (fun cache spec => cache.addSpec text spec) .new }

/-- `subnet_overlaps_active`. -/
def subnetOverlapsActive (subnet : String) (excludedId : Option Uuid) : Except CidrError Bool :=
  match parse text subnet with
  | .error error => .error error
  | .ok block =>
    let count := registry.cache.index.overlapCount block
    let excluded := excludedId.bind fun id =>
      registry.cache.activeCidrs.find? (fun entry => decide (entry.1 = id))
    let remaining : ℕ :=
      match excluded with
      | some (_, excluded) => if excluded.overlaps block then count - 1 else count
      | none => count
    .ok (decide (0 < remaining))

end NetworkRegistry

/-! ## Requests -/

/-- A create request: the id of the name, the subnet after trimming, `none` if it is empty, the
default subnets of the name in the order in which they are tried, and the sorted programs; then the
times at which a new specification is made and the stored one is touched last. -/
structure CreateRequest where
  id : Uuid
  name : String
  description : String
  driver : NetworkDriver
  subnet : Option String
  defaults : List String
  vni : ℕ
  mtu : ℕ
  isSealed : Bool
  realization : NetworkRealizationPolicy
  bpfPrograms : List BpfProgramSpec
  createdAt : String
  updatedAt : String

inductive CreateError
  | cidr (error : CidrError)
  | subnetOverlaps (subnet : String)
  | noDefaultSubnet
  | networkSealed
  | driverChanged
  deriving DecidableEq

/-- `explicit_or_existing_create_subnet`. -/
def explicitOrExistingCreateSubnet (requested : Option String)
    (existing : Option NetworkSpecValue) : Option String :=
  match requested with
  | some subnet => some subnet
  | none => (existing.filter fun spec => !spec.isDeleted).map (·.subnetCidr)

variable (registry : NetworkRegistry)

/-- `validate_create_subnet_available`. -/
def validateCreateSubnetAvailable (id : Uuid) (subnet : String) : Except CreateError Unit :=
  match registry.subnetOverlapsActive text subnet (some id) with
  | .error error => .error (.cidr error)
  | .ok true => .error (.subnetOverlaps subnet)
  | .ok false => .ok ()

/-- `default_create_subnet`. -/
def defaultCreateSubnet (defaults : List String) : Except CreateError String :=
  match defaults.find? (fun candidate => !registry.cache.index.overlapsCidr text candidate) with
  | some candidate => .ok candidate
  | none => .error .noDefaultSubnet

/-- The subnet `create` decides on. -/
def createSubnet (request : CreateRequest) : Except CreateError String :=
  match explicitOrExistingCreateSubnet request.subnet (registry.getSpec request.id) with
  | some subnet =>
    if request.subnet.isSome then
      match validateCreateSubnetAvailable text registry request.id subnet with
      | .ok () => .ok subnet
      | .error error => .error error
    else .ok subnet
  | none => defaultCreateSubnet text registry request.defaults

/-- The specification `create` stores. -/
def createSpec (existing : Option NetworkSpecValue) (request : CreateRequest) (subnet : String) :
    Except CreateError NetworkSpecValue :=
  match existing with
  | none => .ok { request with subnetCidr := subnet, status := .ready }
  | some current =>
    if current.isDeleted then
      .ok { request with
        id := current.id, name := current.name, subnetCidr := subnet, createdAt :=
          current.createdAt,
        status := .ready }
    else if current.isSealed then .error .networkSealed
    else if current.driver ≠ request.driver then .error .driverChanged
    else .ok { request with
      id := current.id, name := current.name, driver := current.driver, subnetCidr := subnet,
      createdAt := current.createdAt, status := current.status,
      isSealed := current.isSealed || request.isSealed }

/-- `create`. -/
def create (request : CreateRequest) : Except CreateError NetworkRegistry :=
  match createSubnet text registry request with
  | .error error => .error error
  | .ok subnet =>
    match createSpec (registry.getSpec request.id) request subnet with
    | .error error => .error error
    | .ok value => .ok (registry.upsertSpec text value)

/-- `delete`, for one id. -/
def delete (id : Uuid) (now : String) : NetworkRegistry :=
  match registry.getSpec id with
  | some spec => registry.upsertSpec text (spec.markDeleted now)
  | none => registry

inductive RegistryAction
  | create (request : CreateRequest)
  | delete (id : Uuid) (now : String)
  | refresh

/-- A request or a rebuild of the cache. A request that fails changes nothing. -/
def registryStep : RegistryAction → Option NetworkRegistry
  | .create request => some ((create text registry request).toOption.getD registry)
  | .delete id now => some (delete text registry id now)
  | .refresh => some (registry.refresh text)

/-! ## What the cache describes -/

/-- The block of an active network. -/
def activeBlock (spec : NetworkSpecValue) : Option CidrBlock :=
  (activeSubnetKey text spec).bind fun subnet => (parse text subnet).toOption

/-- The cache holds these blocks, each under its network. -/
structure Cached (cache : SubnetCache) (blocks : Uuid → CidrBlock → Prop) : Prop where
  nodup : (cache.activeCidrs.map Prod.fst).Nodup
  mem : ∀ id block, (id, block) ∈ cache.activeCidrs ↔ blocks id block
  holds : cache.index.Holds (cache.activeCidrs.map Prod.snd : List CidrBlock)

section CacheLemmas

variable {text} {cache : SubnetCache} {blocks : Uuid → CidrBlock → Prop}

lemma cached_new : Cached .new fun _ _ => False :=
  ⟨nodup_nil, fun _ _ => by simp [SubnetCache.new], CidrOverlapIndex.holds_new⟩

/-- Taking the entry of a network out of the list. -/
lemma find_split {entries : List (Uuid × CidrBlock)} {id : Uuid} {entry : Uuid × CidrBlock}
    (hnodup : (entries.map Prod.fst).Nodup)
    (h : entries.find? (fun entry => decide (entry.1 = id)) = some entry) :
    entry.1 = id ∧ (entry :: entries.eraseP (fun entry => decide (entry.1 = id))).Perm entries ∧
      ∀ other ∈ entries.eraseP (fun entry => decide (entry.1 = id)), other.1 ≠ id := by
  obtain ⟨hid, before, after, rfl, hbefore⟩ := find?_eq_some_iff_append.mp h
  simp only [decide_eq_true_eq] at hid
  have herase : (before ++ entry :: after).eraseP (fun entry => decide (entry.1 = id)) =
      before ++ after := by
    rw [eraseP_append_right _ (by simpa using hbefore), eraseP_cons_of_pos]
    simpa using hid
  rw [herase]
  refine ⟨hid, perm_middle.symm, ?_⟩
  intro other hother
  rw [map_append, map_cons, nodup_middle, ← map_append] at hnodup
  intro heq
  exact (nodup_cons.mp hnodup).1 (mem_map.mpr ⟨other, hother, heq.trans hid.symm⟩)

variable (h : Cached cache blocks)

include h

lemma Cached.remove (id : Uuid) :
    Cached (cache.removeActiveSubnet id) fun other block => other ≠ id ∧ blocks other block := by
  unfold SubnetCache.removeActiveSubnet
  cases hfind : cache.activeCidrs.find? (fun entry => decide (entry.1 = id)) with
  | none =>
    refine ⟨h.nodup, ?_, h.holds⟩
    intro other block
    rw [h.mem]
    refine ⟨fun hblock => ⟨?_, hblock⟩, And.right⟩
    rintro rfl
    have hnot := find?_eq_none.mp hfind _ ((h.mem other block).mpr hblock)
    simp at hnot
  | some entry =>
    obtain ⟨rfl, hperm, hother⟩ := find_split h.nodup hfind
    refine ⟨(nodup_cons.mp ((hperm.map Prod.fst).nodup_iff.mpr h.nodup)).2, ?_, ?_⟩
    · intro other block'
      rw [← h.mem, ← hperm.mem_iff]
      constructor
      · intro hmem
        exact ⟨hother _ hmem, mem_cons_of_mem _ hmem⟩
      · rintro ⟨hne, hmem⟩
        rcases mem_cons.mp hmem with heq | hmem
        · exact absurd (congrArg Prod.fst heq) hne
        · exact hmem
    · have hholds := h.holds
      rw [← Multiset.coe_eq_coe.mpr (hperm.map Prod.snd), map_cons, ← Multiset.cons_coe] at hholds
      exact hholds.remove

section Add

variable {id : Uuid} (hnew : ∀ block, ¬ blocks id block)

include hnew

lemma Cached.nodup_with : (id :: cache.activeCidrs.map Prod.fst).Nodup := by
  refine nodup_cons.mpr ⟨fun hmem => ?_, h.nodup⟩
  obtain ⟨⟨_, block⟩, hentry, rfl⟩ := mem_map.mp hmem
  exact hnew block ((h.mem _ _).mp hentry)

/-- A cache without one of the networks has room for it. -/
lemma Cached.length_lt {ids : List Uuid} (hid : id ∈ ids)
    (hblocks : ∀ other block, blocks other block → other ∈ ids) :
    cache.activeCidrs.length < ids.length := by
  have hsubset : id :: cache.activeCidrs.map Prod.fst ⊆ ids := by
    refine cons_subset.mpr ⟨hid, fun other hmem => ?_⟩
    obtain ⟨⟨_, block⟩, hentry, rfl⟩ := mem_map.mp hmem
    exact hblocks _ block ((h.mem _ _).mp hentry)
  simpa using ((h.nodup_with hnew).subperm hsubset).length_le

lemma Cached.add (hroom : cache.activeCidrs.length < u64Max)
    (subnet : String) : Cached (cache.addActiveSubnet text id subnet) fun other block =>
      blocks other block ∨ other = id ∧ parse text subnet = .ok block := by
  unfold SubnetCache.addActiveSubnet CidrOverlapIndex.insertCidr
  have hnodup := h.nodup_with hnew
  cases hparse : parse text subnet with
  | error error =>
    refine ⟨h.nodup, ?_, h.holds⟩
    intro other block
    rw [h.mem]
    simp
  | ok block =>
    have herase : cache.activeCidrs.eraseP (fun entry => decide (entry.1 = id)) =
        cache.activeCidrs := by
      refine eraseP_of_forall_not fun entry hentry heq => (nodup_cons.mp hnodup).1 ?_
      exact mem_map.mpr ⟨entry, hentry, of_decide_eq_true heq⟩
    simp only [herase]
    refine ⟨hnodup, ?_, h.holds.insert (by simpa using hroom)⟩
    intro other block'
    rw [mem_cons, h.mem, Prod.mk.injEq, or_comm, Except.ok.injEq, eq_comm (a := block)]

end Add

lemma Cached.congr {blocks' : Uuid → CidrBlock → Prop}
    (hiff : ∀ id block, blocks id block ↔ blocks' id block) : Cached cache blocks' :=
  ⟨h.nodup, fun id block => (h.mem id block).trans (hiff id block), h.holds⟩

lemma Cached.addSpec {value : NetworkSpecValue} (hnew : ∀ block, ¬ blocks value.id block)
    (hroom : cache.activeCidrs.length < u64Max) :
    Cached (cache.addSpec text value) fun other block =>
      blocks other block ∨ other = value.id ∧ activeBlock text value = some block := by
  unfold SubnetCache.addSpec activeBlock
  cases activeSubnetKey text value with
  | none => exact h.congr fun other block => by simp
  | some subnet =>
    refine (h.add hnew hroom subnet).congr ?_
    cases hparse : parse text subnet <;> simp [Except.toOption, hparse]

end CacheLemmas

/-! ## Whole runs -/

section Runs

variable {text} {registry : NetworkRegistry} {spec : NetworkSpecValue}

/-- The cache describes the specifications, of which each network has one. -/
structure Indexed (text : CidrText) (registry : NetworkRegistry) : Prop where
  nodup : (registry.specs.map NetworkSpecValue.id).Nodup
  cached : Cached registry.cache fun id block =>
    ∃ spec ∈ registry.specs, spec.id = id ∧ activeBlock text spec = some block

/-- No two active networks overlap. -/
def Separated (text : CidrText) (specs : List NetworkSpecValue) : Prop :=
  ∀ spec ∈ specs, ∀ spec' ∈ specs, spec.id ≠ spec'.id → ∀ block block',
    activeBlock text spec = some block → activeBlock text spec' = some block' →
      block.overlaps block' = false

lemma getSpec_eq_none (registry : NetworkRegistry) (id : Uuid) :
    registry.getSpec id = none ↔ ∀ spec ∈ registry.specs, spec.id ≠ id := by
  simp [NetworkRegistry.getSpec]

lemma getSpec_mem {id : Uuid} (h : registry.getSpec id = some spec) :
    spec ∈ registry.specs ∧ spec.id = id :=
  ⟨mem_of_find?_eq_some h, by simpa using find?_some h⟩

/-- After an upsert the written specification stands for its network. -/
lemma mem_upsertSpec (registry : NetworkRegistry) (value spec : NetworkSpecValue) :
    spec ∈ (registry.upsertSpec text value).specs ↔
      spec = value ∨ spec ∈ registry.specs ∧ spec.id ≠ value.id := by
  unfold NetworkRegistry.upsertSpec
  cases hget : registry.getSpec value.id with
  | none =>
    have habsent := (getSpec_eq_none registry value.id).mp hget
    simp only [Option.isSome_none, Bool.false_eq_true, if_false, mem_append, mem_singleton]
    rw [or_comm]
    exact or_congr_right ⟨fun hmem => ⟨hmem, habsent spec hmem⟩, And.left⟩
  | some current =>
    obtain ⟨hcurrent, hid⟩ := getSpec_mem hget
    simp only [Option.isSome_some, if_true, mem_map]
    constructor
    · rintro ⟨old, hold, rfl⟩
      by_cases hsame : old.id = value.id
      · exact .inl (if_pos hsame)
      · rw [if_neg hsame]
        exact .inr ⟨hold, hsame⟩
    · rintro (rfl | ⟨hmem, hne⟩)
      · exact ⟨current, hcurrent, if_pos hid⟩
      · exact ⟨spec, hmem, if_neg hne⟩

lemma Indexed.without (h : Indexed text registry) (id : Uuid) :
    Cached (if (registry.getSpec id).isSome then registry.cache.removeActiveSubnet id
      else registry.cache) fun id' block =>
        id' ≠ id ∧ ∃ spec ∈ registry.specs, spec.id = id' ∧ activeBlock text spec = some block := by
  cases hget : registry.getSpec id with
  | none =>
    have habsent := (getSpec_eq_none registry id).mp hget
    refine h.cached.congr fun id' block => ⟨?_, And.right⟩
    rintro ⟨spec, hspec, rfl, hblock⟩
    exact ⟨habsent spec hspec, spec, hspec, rfl, hblock⟩
  | some current => exact h.cached.remove id

lemma Indexed.removeSpec (h : Indexed text registry) (id : Uuid) :
    Indexed text (registry.removeSpec id) := by
  have hwithout := h.without id
  unfold NetworkRegistry.removeSpec
  split_ifs at hwithout ⊢
  · refine ⟨h.nodup.sublist (filter_sublist.map _), hwithout.congr fun id' block => ?_⟩
    simp only [mem_filter, decide_eq_true_eq]
    constructor
    · rintro ⟨hne, spec, hspec, rfl, hblock⟩
      exact ⟨spec, ⟨hspec, hne⟩, rfl, hblock⟩
    · rintro ⟨spec, ⟨hspec, hne⟩, rfl, hblock⟩
      exact ⟨hne, spec, hspec, rfl, hblock⟩
  · exact h

lemma length_le_upsertSpec (registry : NetworkRegistry) (value : NetworkSpecValue) :
    registry.specs.length ≤ (registry.upsertSpec text value).specs.length := by
  unfold NetworkRegistry.upsertSpec
  split_ifs <;> simp

lemma Indexed.upsertSpec (h : Indexed text registry) {value : NetworkSpecValue}
    (hroom : (registry.upsertSpec text value).specs.length ≤ u64Max) :
    Indexed text (registry.upsertSpec text value) := by
  have hids : ((registry.upsertSpec text value).specs.map NetworkSpecValue.id).Nodup := by
    unfold NetworkRegistry.upsertSpec
    cases hget : registry.getSpec value.id with
    | none =>
      have habsent := (getSpec_eq_none registry value.id).mp hget
      simp only [Option.isSome_none, Bool.false_eq_true, if_false, map_append, map_cons, map_nil]
      refine nodup_append.mpr ⟨h.nodup, nodup_singleton _, ?_⟩
      intro id hmem id' hid'
      obtain ⟨spec, hspec, rfl⟩ := mem_map.mp hmem
      rw [mem_singleton.mp hid']
      exact habsent spec hspec
    | some current =>
      have hsame : (registry.specs.map fun spec => if spec.id = value.id then value else spec).map
          NetworkSpecValue.id = registry.specs.map NetworkSpecValue.id := by
        rw [map_map]
        refine map_congr_left fun spec _ => ?_
        simp only [Function.comp_apply]
        split_ifs with hid
        · exact hid.symm
        · rfl
      simp only [Option.isSome_some, if_true, hsame]
      exact h.nodup
  refine ⟨hids, ?_⟩
  have hcache : (registry.upsertSpec text value).cache =
      (if (registry.getSpec value.id).isSome then registry.cache.removeActiveSubnet value.id
        else registry.cache).addSpec text value := by
    unfold NetworkRegistry.upsertSpec
    split_ifs <;> rfl
  rw [hcache]
  -- The cache without the network, then with its new block.
  have hwithout := h.without value.id
  have hlength : _ < ((registry.upsertSpec text value).specs.map NetworkSpecValue.id).length :=
    hwithout.length_lt (fun block hblock => hblock.1 rfl)
      (mem_map_of_mem ((mem_upsertSpec _ _ _).mpr (.inl rfl))) (by
        rintro _ block ⟨hne, spec, hspec, rfl, -⟩
        exact mem_map_of_mem ((mem_upsertSpec _ _ _).mpr (.inr ⟨hspec, hne⟩)))
  rw [length_map] at hlength
  refine (hwithout.addSpec (fun block hblock => hblock.1 rfl) (hlength.trans_le hroom)).congr
    fun id block => ?_
  simp only [mem_upsertSpec]
  constructor
  · rintro (⟨hne, spec, hspec, rfl, hblock⟩ | ⟨rfl, hblock⟩)
    · exact ⟨spec, .inr ⟨hspec, hne⟩, rfl, hblock⟩
    · exact ⟨value, .inl rfl, rfl, hblock⟩
  · rintro ⟨spec, rfl | ⟨hspec, hne⟩, rfl, hblock⟩
    · exact .inr ⟨rfl, hblock⟩
    · exact .inl ⟨hne, spec, hspec, rfl, hblock⟩

lemma indexed_new : Indexed text .new :=
  ⟨nodup_nil, cached_new.congr fun id block => by simp [NetworkRegistry.new]⟩

/-- Adding new specifications one by one is upserting them. -/
lemma indexed_foldl_addSpec : ∀ (specs : List NetworkSpecValue) {registry : NetworkRegistry},
    Indexed text registry → ((registry.specs ++ specs).map NetworkSpecValue.id).Nodup →
    (registry.specs ++ specs).length ≤ u64Max → Indexed text ⟨registry.specs ++ specs,
      specs.foldl (fun cache spec => cache.addSpec text spec) registry.cache⟩
  | [], _, h, _, _ => by simpa using h
  | spec :: specs, registry, h, hnodup, hroom => by
    have habsent : registry.getSpec spec.id = none := by
      rw [getSpec_eq_none]
      intro other hother heq
      rw [map_append, map_cons] at hnodup
      exact (nodup_append.mp hnodup).2.2 _ (mem_map_of_mem hother) _ mem_cons_self heq
    have hnew : registry.upsertSpec text spec =
        ⟨registry.specs ++ [spec], registry.cache.addSpec text spec⟩ := by
      rw [NetworkRegistry.upsertSpec, habsent]
      rfl
    rw [append_cons] at hnodup hroom ⊢
    have hnext : Indexed text (registry.upsertSpec text spec) := by
      refine h.upsertSpec ?_
      rw [hnew]
      exact (prefix_append _ _).length_le.trans hroom
    rw [hnew] at hnext
    exact indexed_foldl_addSpec specs hnext hnodup hroom

lemma indexed_refresh (hnodup : (registry.specs.map NetworkSpecValue.id).Nodup)
    (hroom : registry.specs.length ≤ u64Max) : Indexed text (registry.refresh text) :=
  indexed_foldl_addSpec registry.specs indexed_new hnodup hroom

/-! ## The check -/

lemma activeBlock_iff {block : CidrBlock} : activeBlock text spec = some block ↔
      parse text spec.subnetCidr = .ok block ∧ spec.isDeleted = false := by
  unfold activeBlock activeSubnetKey
  cases spec.isDeleted with
  | true => simp
  | false =>
    simp only [Bool.false_eq_true, if_false, and_true]
    by_cases hempty : (text.trim spec.subnetCidr).isEmpty = true
    · have herror : parse text spec.subnetCidr = .error (.missingDelimiter "") := by
        simp only [parse, String.isEmpty_iff.mp hempty, text.splitOnce_empty]
      simp [hempty, herror]
    · rw [if_neg hempty, Option.bind_some, parse, text.trim_trim, ← parse]
      cases parse text spec.subnetCidr <;> simp [Except.toOption]

variable (h : Indexed text registry)

include h

/-- **The answer of the check**: whether the block of another network overlaps. -/
lemma subnetOverlapsActive_eq (subnet : String)
    (excludedId : Option Uuid) : registry.subnetOverlapsActive text subnet excludedId =
      (parse text subnet).map fun block => decide (∃ entry ∈ registry.cache.activeCidrs,
        excludedId ≠ some entry.1 ∧ entry.2.overlaps block = true) := by
  unfold NetworkRegistry.subnetOverlapsActive
  cases parse text subnet with
  | error error => rfl
  | ok block =>
    have hcount : registry.cache.index.overlapCount block =
        registry.cache.activeCidrs.countP (fun entry => entry.2.overlaps block) := by
      rw [h.cached.holds.overlapCount_eq block, Multiset.coe_countP, countP_map]
      simp [Function.comp_def, @overlaps_comm block]
    simp only [Except.map, Except.ok.injEq, decide_eq_decide, hcount]
    cases hexcluded : excludedId.bind fun id =>
      registry.cache.activeCidrs.find? (fun entry => decide (entry.1 = id)) with
    | none =>
      simp only [countP_pos_iff]
      refine exists_congr fun entry => and_congr_right fun hentry => (and_iff_right ?_).symm
      rintro rfl
      simpa using find?_eq_none.mp hexcluded entry hentry
    | some excluded =>
      obtain ⟨id, rfl, hfind⟩ := Option.bind_eq_some_iff.mp hexcluded
      obtain ⟨rfl, hperm, hother⟩ := find_split h.cached.nodup hfind
      -- The blocks of the other networks are counted after the subtraction.
      have hremaining : (if excluded.2.overlaps block = true then
          registry.cache.activeCidrs.countP (fun entry => entry.2.overlaps block) - 1
          else registry.cache.activeCidrs.countP fun entry => entry.2.overlaps block) =
          (registry.cache.activeCidrs.eraseP fun entry => decide (entry.1 = excluded.1)).countP
            fun entry => entry.2.overlaps block := by
        rw [← hperm.countP_eq, countP_cons]
        split_ifs
        · exact Nat.add_sub_cancel _ _
        · exact Nat.add_zero _
      simp only [hremaining, countP_pos_iff]
      refine exists_congr fun entry => ?_
      rw [← hperm.mem_iff, mem_cons]
      constructor
      · rintro ⟨hentry, hoverlaps⟩
        exact ⟨.inr hentry, fun heq => hother entry hentry (Option.some.inj heq).symm, hoverlaps⟩
      · rintro ⟨rfl | hentry, hne, hoverlaps⟩
        · exact absurd rfl hne
        · exact ⟨hentry, hoverlaps⟩

/-- **The subnet of a new specification overlaps no other active network.** -/
lemma createSubnet_separate (hsep : Separated text registry.specs)
    {request : CreateRequest} {subnet : String}
    (hsubnet : createSubnet text registry request = .ok subnet) {block : CidrBlock}
    (hblock : parse text subnet = .ok block)
    (hspec : spec ∈ registry.specs) (hne : spec.id ≠ request.id) {block' : CidrBlock}
    (hblock' : activeBlock text spec = some block') : block.overlaps block' = false := by
  have hentry : (spec.id, block') ∈ registry.cache.activeCidrs :=
    (h.cached.mem _ _).mpr ⟨spec, hspec, rfl, hblock'⟩
  unfold createSubnet at hsubnet
  cases hexplicit : explicitOrExistingCreateSubnet request.subnet (registry.getSpec request.id) with
  | none =>
    simp only [hexplicit, defaultCreateSubnet] at hsubnet
    split at hsubnet
    case h_2 => cases hsubnet
    case h_1 candidate hfind =>
      cases hsubnet
      have hfree := find?_some hfind
      simp only [CidrOverlapIndex.overlapsCidr, hblock, Bool.not_eq_true', decide_eq_false_iff_not,
        not_lt, Nat.le_zero] at hfree
      rw [h.cached.holds.overlapCount_eq block] at hfree
      simpa using Multiset.countP_eq_zero.mp hfree _ (Multiset.mem_coe.mpr (mem_map_of_mem hentry))
  | some subnet' =>
    simp only [hexplicit] at hsubnet
    cases hrequested : request.subnet with
    | some requested =>
      simp only [hrequested, Option.isSome_some, if_true, validateCreateSubnetAvailable] at hsubnet
      rcases hcheck : registry.subnetOverlapsActive text subnet' (some request.id) with
        error | _ | _ <;> simp only [hcheck, reduceCtorEq, Except.ok.injEq] at hsubnet
      subst hsubnet
      rw [subnetOverlapsActive_eq h, hblock] at hcheck
      have hnone := of_decide_eq_false (Except.ok.inj hcheck)
      rw [overlaps_comm]
      refine Bool.eq_false_iff.mpr fun hoverlaps => hnone ⟨_, hentry, ?_, hoverlaps⟩
      exact fun heq => hne (Option.some.inj heq).symm
    | none =>
      -- The network keeps its own subnet.
      simp only [hrequested, Option.isSome_none, Bool.false_eq_true, if_false,
        Except.ok.injEq] at hsubnet
      subst hsubnet
      rw [hrequested] at hexplicit
      obtain ⟨current, hcurrent, rfl⟩ := Option.map_eq_some_iff.mp hexplicit
      obtain ⟨hget, hactive⟩ := Option.filter_eq_some_iff.mp hcurrent
      obtain ⟨hmem, hid⟩ := getSpec_mem hget
      have hactiveBlock : activeBlock text current = some block :=
        activeBlock_iff.mpr ⟨hblock, by simpa using hactive⟩
      exact hsep current hmem spec hspec (by rw [hid]; exact Ne.symm hne) block block'
        hactiveBlock hblock'

omit h

lemma Separated.upsertSpec (hsep : Separated text registry.specs) {value : NetworkSpecValue}
    (hvalue : ∀ block, activeBlock text value = some block → ∀ spec ∈ registry.specs,
      spec.id ≠ value.id → ∀ block', activeBlock text spec = some block' →
        block.overlaps block' = false) : Separated text (registry.upsertSpec text value).specs := by
  intro spec hspec spec' hspec' hne block block' hblock hblock'
  rw [mem_upsertSpec] at hspec hspec'
  rcases hspec with rfl | ⟨hspec, hold⟩
  · rcases hspec' with rfl | ⟨hspec', hold'⟩
    · exact absurd rfl hne
    · exact hvalue block hblock spec' hspec' hold' block' hblock'
  · rcases hspec' with rfl | ⟨hspec', hold'⟩
    · rw [overlaps_comm]
      exact hvalue block' hblock' spec hspec hold block hblock
    · exact hsep spec hspec spec' hspec' hne block block' hblock hblock'

/-- One request keeps the cache right and the networks apart. -/
lemma registryStep_keeps {next : NetworkRegistry} {act : RegistryAction}
    (h : registry.specs.length ≤ u64Max → Indexed text registry ∧ Separated text registry.specs)
    (hstep : registryStep text registry act = some next) (hroom : next.specs.length ≤ u64Max) :
    Indexed text next ∧ Separated text next.specs := by
  cases act with
  | refresh =>
    cases hstep
    obtain ⟨hindexed, hsep⟩ := h hroom
    exact ⟨indexed_refresh hindexed.nodup hroom, hsep⟩
  | delete id now =>
    cases hstep
    unfold delete at hroom ⊢
    cases hget : registry.getSpec id with
    | none =>
      rw [hget] at hroom
      exact h hroom
    | some spec =>
      rw [hget] at hroom
      obtain ⟨hindexed, hsep⟩ := h ((length_le_upsertSpec _ _).trans hroom)
      refine ⟨hindexed.upsertSpec hroom, hsep.upsertSpec ?_⟩
      intro block hblock
      exact absurd (activeBlock_iff.mp hblock).2 (by simp [NetworkSpecValue.markDeleted,
        NetworkSpecValue.isDeleted])
  | create request =>
    cases hstep
    unfold create at hroom ⊢
    cases hsubnet : createSubnet text registry request with
    | error error =>
      rw [hsubnet] at hroom
      exact h hroom
    | ok subnet =>
      rw [hsubnet] at hroom
      simp only at hroom ⊢
      cases hvalue : createSpec (registry.getSpec request.id) request subnet with
      | error error =>
        rw [hvalue] at hroom
        exact h hroom
      | ok value =>
        rw [hvalue] at hroom
        obtain ⟨hindexed, hsep⟩ := h ((length_le_upsertSpec _ _).trans hroom)
        obtain ⟨hid, hcidr⟩ : value.id = request.id ∧ value.subnetCidr = subnet := by
          unfold createSpec at hvalue
          cases hget : registry.getSpec request.id with
          | none =>
            rw [hget] at hvalue
            cases hvalue
            exact ⟨rfl, rfl⟩
          | some current =>
            have hcurrent := (getSpec_mem hget).2
            rw [hget] at hvalue
            simp only at hvalue
            split_ifs at hvalue
            all_goals
              cases hvalue
              exact ⟨hcurrent, rfl⟩
        refine ⟨hindexed.upsertSpec hroom, hsep.upsertSpec ?_⟩
        intro block hblock spec hspec hne block' hblock'
        rw [activeBlock_iff, hcidr] at hblock
        rw [hid] at hne
        exact createSubnet_separate hindexed hsep hsubnet hblock.1 hspec hne hblock'

/-- The specifications of the registry change: one is written or removed, or those of the other
nodes are taken over, of which each network has one. -/
inductive SpecChange
  | upsert (value : NetworkSpecValue)
  | remove (id : Uuid)
  | sync (specs : List NetworkSpecValue) (nodup : (specs.map NetworkSpecValue.id).Nodup)

/-- The registry after a change. -/
def NetworkRegistry.change (text : CidrText) (registry : NetworkRegistry) :
    SpecChange → NetworkRegistry
  | .upsert value => registry.upsertSpec text value
  | .remove id => registry.removeSpec id
  | .sync specs _ => { registry with specs }.refresh text

lemma Indexed.foldl_change : ∀ (changes : List SpecChange) {registry : NetworkRegistry},
    Indexed text registry →
    (∀ done, done <+: changes →
      (done.foldl (NetworkRegistry.change text) registry).specs.length ≤ u64Max) →
    Indexed text (changes.foldl (NetworkRegistry.change text) registry)
  | [], _, h, _ => h
  | change :: changes, registry, h, hroom => by
    have hnext : Indexed text (registry.change text change) := by
      have hlength := hroom [change] (by simp)
      cases change with
      | upsert value => exact h.upsertSpec hlength
      | remove id => exact h.removeSpec id
      | sync specs nodup => exact indexed_refresh nodup hlength
    exact hnext.foldl_change changes
      fun done hdone => hroom (change :: done) (cons_prefix_cons.mpr ⟨rfl, hdone⟩)

/-- **The index counts overlaps exactly.** After any insertions and removals it counts the inserted
blocks that overlap the given one, and the check of a subnet says whether an active network other
than the excluded one overlaps it, as long as there are never more blocks or networks than a counter
can count. -/
theorem overlap_count_exact (text : CidrText) :
    (∀ (changes : List CidrOverlapIndex.IndexChange) (block : CidrBlock),
      (∀ done, done <+: changes →
        (done.foldl CidrOverlapIndex.IndexChange.inserted 0).card ≤ u64Max) →
      (changes.foldl CidrOverlapIndex.change .new).overlapCount block =
        (changes.foldl CidrOverlapIndex.IndexChange.inserted 0).countP
          (fun other => other.overlaps block = true)) ∧
    ∀ (changes : List SpecChange) (subnet : String) (excludedId : Option Uuid),
      (∀ done, done <+: changes →
        (done.foldl (NetworkRegistry.change text) .new).specs.length ≤ u64Max) →
      let registry := changes.foldl (NetworkRegistry.change text) .new
      registry.subnetOverlapsActive text subnet excludedId =
        (parse text subnet).map fun block => decide (∃ spec ∈ registry.specs,
          excludedId ≠ some spec.id ∧ ∃ other ∈ activeBlock text spec,
            other.overlaps block = true) := by
  constructor
  · intro changes block hroom
    rw [(CidrOverlapIndex.holds_new.foldl_change changes hroom).overlapCount_eq block]
    simp [@overlaps_comm block]
  · intro changes subnet excludedId hroom registry
    have hindexed : Indexed text registry := indexed_new.foldl_change changes hroom
    rw [subnetOverlapsActive_eq hindexed]
    congr 1
    funext block
    rw [decide_eq_decide]
    constructor
    · rintro ⟨⟨id, other⟩, hentry, hne, hoverlaps⟩
      obtain ⟨spec, hspec, rfl, hblock⟩ := (hindexed.cached.mem id other).mp hentry
      exact ⟨spec, hspec, hne, other, hblock, hoverlaps⟩
    · rintro ⟨spec, hspec, hne, other, hblock, hoverlaps⟩
      exact ⟨(spec.id, other), (hindexed.cached.mem _ _).mpr ⟨spec, hspec, rfl, hblock⟩,
        hne, hoverlaps⟩

end Runs

/-! ## Addresses of different networks -/

section Addresses

variable {text}

/-- An address the allocator can return for a task. -/
def TaskAddress (text : CidrText) (spec : NetworkSpecValue) (address : IpAddr) : Prop :=
  ∃ digest occupiedCount isOccupied mac, allocateOverlayAddressAvoiding text spec.subnetCidr digest
    occupiedCount isOccupied = .ok (address, mac)

/-- An address a resolver can get. -/
def ResolverAddress (text : CidrText) (spec : NetworkSpecValue) (address : IpAddr) : Prop :=
  ∃ digest, resolverIpAddress text spec.subnetCidr digest = .ok address

/-- An address a service can get. -/
def ServiceAddress (text : CidrText) (spec : NetworkSpecValue) (address : IpAddr) : Prop :=
  ∃ digest backends mac, computeServiceVip text spec.subnetCidr digest backends =
    some (address, mac)

/-- An address a network can hand out. -/
def HandsOut (text : CidrText) (spec : NetworkSpecValue) (address : IpAddr) : Prop :=
  TaskAddress text spec address ∨ ResolverAddress text spec address ∨
    ServiceAddress text spec address

/-- The addresses of the active networks stay in their blocks, and are different for different
purposes and for different networks. -/
structure AddressesSeparate (text : CidrText) (specs : List NetworkSpecValue) : Prop where
  inBlock : ∀ spec ∈ specs, spec.isDeleted = false → ∀ address, HandsOut text spec address →
    ∃ block, parse text spec.subnetCidr = .ok block ∧ block.Contains address
  classes : ∀ spec ∈ specs, spec.isDeleted = false → ∀ address,
    ¬ (TaskAddress text spec address ∧ ResolverAddress text spec address) ∧
    ¬ (TaskAddress text spec address ∧ ServiceAddress text spec address) ∧
    ¬ (ResolverAddress text spec address ∧ ServiceAddress text spec address)
  networks : ∀ spec ∈ specs, ∀ spec' ∈ specs, spec.isDeleted = false → spec'.isDeleted = false →
    spec.id ≠ spec'.id → ∀ address, ¬ (HandsOut text spec address ∧ HandsOut text spec' address)

/-- The base address of a subnet that has addresses fits its block. -/
def BaseFits (text : CidrText) (spec : NetworkSpecValue) : Prop :=
  ∀ subnet, parseOverlayCidr text spec.subnetCidr = .ok subnet → Serves subnet → subnet.FitsBlock

variable {spec : NetworkSpecValue} {address : IpAddr}

/-- An address at an offset of the given kind. -/
def AtOffset (text : CidrText) (spec : NetworkSpecValue) (kind : ℕ → Prop) (address : IpAddr) :
    Prop :=
  ∃ subnet, parseOverlayCidr text spec.subnetCidr = .ok subnet ∧ Serves subnet ∧
    ∃ offset, kind offset ∧ offset + 3 ≤ 2 ^ subnet.hostBits ∧ address = subnet.addressAt offset

lemma TaskAddress.atOffset (h : TaskAddress text spec address) :
    AtOffset text spec (· % 4 = 2) address := by
  obtain ⟨digest, occupiedCount, isOccupied, mac, h⟩ := h
  exact task_offset h

lemma ResolverAddress.atOffset (h : ResolverAddress text spec address) :
    AtOffset text spec (· % 2 = 1) address := by
  obtain ⟨digest, h⟩ := h
  exact resolver_offset h

lemma ServiceAddress.atOffset (hfits : BaseFits text spec) (h : ServiceAddress text spec address) :
    AtOffset text spec (· % 4 = 0) address := by
  obtain ⟨digest, backends, mac, h⟩ := h
  obtain ⟨subnet, hparse, hserves, offset, hmod, hle, rfl⟩ := vip_offset h
  exact ⟨subnet, hparse, hserves, offset, hmod, hle,
    vip_addressAt hserves (hfits subnet hparse hserves) hle⟩

/-- Kinds of offsets without a common one give different addresses. -/
lemma AtOffset.disjoint {kind kind' : ℕ → Prop} (hkinds : ∀ offset, kind offset → ¬ kind' offset)
    (h : AtOffset text spec kind address) : ¬ AtOffset text spec kind' address := by
  obtain ⟨subnet, hparse, -, offset, hkind, hle, rfl⟩ := h
  rintro ⟨subnet', hparse', -, offset', hkind', hle', haddress⟩
  obtain rfl : subnet = subnet' := Except.ok.inj (hparse.symm.trans hparse')
  obtain rfl := ParsedOverlaySubnet.addressAt_inj (by omega) (by omega) haddress
  exact hkinds offset hkind hkind'

lemma HandsOut.atOffset (hfits : BaseFits text spec) (h : HandsOut text spec address) :
    AtOffset text spec (fun _ => True) address := by
  have hany : ∀ {kind : ℕ → Prop}, AtOffset text spec kind address →
      AtOffset text spec (fun _ => True) address := by
    rintro kind ⟨subnet, hparse, hserves, offset, -, hrest⟩
    exact ⟨subnet, hparse, hserves, offset, trivial, hrest⟩
  rcases h with h | h | h
  · exact hany h.atOffset
  · exact hany h.atOffset
  · exact hany (h.atOffset hfits)

/-- If the base fits, the addresses are in the block. -/
lemma HandsOut.inBlock (hfits : BaseFits text spec) (h : HandsOut text spec address) :
    ∃ block, parse text spec.subnetCidr = .ok block ∧ block.Contains address := by
  obtain ⟨subnet, hparse, hserves, offset, -, hle, rfl⟩ := h.atOffset hfits
  refine ⟨subnet.block, (parse_of_parseOverlayCidr hparse).2, rfl, ?_⟩
  have hhost : subnet.block.hostBits = subnet.hostBits := rfl
  rw [ParsedOverlaySubnet.value_addressAt, hhost]
  have hend := subnet.block_end_le
  rcases hfits subnet hparse hserves with hwhole | hbase
  · rw [hwhole] at hend ⊢
    omega
  · have hbase_eq := subnet.base_eq
    rw [Nat.mod_eq_of_lt (by omega)]
    omega

/-- **When overlay networks share no address.** In every state the networks of a registry keep to
their own blocks and share no address exactly if the base address of each active one fits its block.
-/
theorem overlay_addresses_iff (text : CidrText) {registry : NetworkRegistry}
    (h : Reaches (registryStep text) anyStep NetworkRegistry.new registry)
    (hroom : registry.specs.length ≤ u64Max) : AddressesSeparate text registry.specs ↔
      ∀ spec ∈ registry.specs, spec.isDeleted = false → BaseFits text spec := by
  obtain ⟨-, hsep⟩ := h.invariant
    (P := fun registry => registry.specs.length ≤ u64Max →
      Indexed text registry ∧ Separated text registry.specs)
    (fun _ => ⟨indexed_new, fun _ => nofun⟩) (fun hkept _ hstep =>
      registryStep_keeps hkept hstep) hroom
  constructor
  · intro hseparate spec hspec hactive subnet hparse hserves
    obtain ⟨digest, hresolver⟩ := resolver_reaches hparse hserves
    obtain ⟨block, hblock, hcontains⟩ :=
      hseparate.inBlock spec hspec hactive _ (.inr (.inl ⟨digest, hresolver⟩))
    rw [(parse_of_parseOverlayCidr hparse).2] at hblock
    cases hblock
    exact ParsedOverlaySubnet.fitsBlock_of_contains hcontains
  · intro hfits
    refine ⟨?_, ?_, ?_⟩
    · intro spec hspec hactive address haddress
      exact haddress.inBlock (hfits spec hspec hactive)
    · intro spec hspec hactive address
      have hbase := hfits spec hspec hactive
      refine ⟨?_, ?_, ?_⟩
      · rintro ⟨htask, hresolver⟩
        exact htask.atOffset.disjoint (fun offset hkind hkind' => by omega) hresolver.atOffset
      · rintro ⟨htask, hservice⟩
        exact htask.atOffset.disjoint (fun offset hkind hkind' => by omega)
          (hservice.atOffset hbase)
      · rintro ⟨hresolver, hservice⟩
        exact hresolver.atOffset.disjoint (fun offset hkind hkind' => by omega)
          (hservice.atOffset hbase)
    · rintro spec hspec spec' hspec' hactive hactive' hne address ⟨haddress, haddress'⟩
      obtain ⟨block, hblock, hcontains⟩ := haddress.inBlock (hfits spec hspec hactive)
      obtain ⟨block', hblock', hcontains'⟩ := haddress'.inBlock (hfits spec' hspec' hactive')
      have hdisjoint := hsep spec hspec spec' hspec' hne block block'
        (activeBlock_iff.mpr ⟨hblock, hactive⟩) (activeBlock_iff.mpr ⟨hblock', hactive'⟩)
      rw [overlaps_iff.mpr ⟨address, hcontains, hcontains'⟩] at hdisjoint
      cases hdisjoint

/-! ## Two networks that share an address -/

/-- Texts are looked up in a table. -/
def sampleCidrText : CidrText where
  trim := id
  splitOnce cidr :=
    if cidr = "10.0.0.200/24" then some ("10.0.0.200", "24")
    else if cidr = "10.0.0.0/24" then some ("10.0.0.0", "24")
    else if cidr = "10.0.1.0/24" then some ("10.0.1.0", "24")
    else none
  parseAddress base :=
    if base = "10.0.0.200" then some ⟨.ipv4, 0x0a0000c8, by decide⟩
    else if base = "10.0.0.0" then some ⟨.ipv4, 0x0a000000, by decide⟩
    else if base = "10.0.1.0" then some ⟨.ipv4, 0x0a000100, by decide⟩
    else none
  parseU8 length := if length = "24" then some 24 else none
  trim_trim _ := rfl
  splitOnce_empty := by decide
  trim_eq _ _ _ := rfl

/-- A request of the sample, and the specification it makes. -/
def sampleCreate (id : Uuid) (subnet : String) : CreateRequest where
  id := id
  name := ""
  description := ""
  driver := .vxlan
  subnet := some subnet
  defaults := []
  vni := id
  mtu := 1450
  isSealed := false
  realization := .allNodes
  bpfPrograms := []
  createdAt := ""
  updatedAt := ""

def sampleNetwork (id : Uuid) (subnet : String) : NetworkSpecValue :=
  { sampleCreate id subnet with subnetCidr := subnet, status := .ready }

theorem overlay_addresses_aligned : ∃ registry,
    Reaches (registryStep sampleCidrText) anyStep NetworkRegistry.new registry ∧
      registry.specs = [sampleNetwork 1 "10.0.0.0/24", sampleNetwork 2 "10.0.1.0/24"] ∧
      AddressesSeparate sampleCidrText registry.specs := by
  refine (exists_reaches_of_runActions [.create (sampleCreate 1 "10.0.0.0/24"),
      .create (sampleCreate 2 "10.0.1.0/24")] (by decide +kernel)).imp
    fun registry ⟨hreaches, hspecs⟩ =>
      ⟨hreaches, hspecs, (overlay_addresses_iff sampleCidrText hreaches
        (hspecs ▸ by decide)).mpr ?_⟩
  rw [hspecs]
  intro spec hspec _ subnet hparse _
  rcases mem_cons.mp hspec with rfl | hspec
  · cases hparse
    exact .inr (by decide)
  · rw [mem_singleton.mp hspec] at hparse
    cases hparse
    exact .inr (by decide)

/-- The first network's base address is not its network address, so its resolvers leave the block
and run into the second network. -/
theorem shared_overlay_address : ∃ registry,
    Reaches (registryStep sampleCidrText) anyStep NetworkRegistry.new registry ∧
      registry.specs = [sampleNetwork 1 "10.0.0.200/24", sampleNetwork 2 "10.0.1.0/24"] ∧
      ∃ address,
        ResolverAddress sampleCidrText (sampleNetwork 1 "10.0.0.200/24") address ∧
        ResolverAddress sampleCidrText (sampleNetwork 2 "10.0.1.0/24") address ∧
        ∀ block, parse sampleCidrText "10.0.0.200/24" = .ok block →
          ¬ block.Contains address := by
  refine (exists_reaches_of_runActions [.create (sampleCreate 1 "10.0.0.200/24"),
      .create (sampleCreate 2 "10.0.1.0/24")] (by decide +kernel)).imp
    fun registry ⟨hreaches, hspecs⟩ =>
      ⟨hreaches, hspecs, ⟨.ipv4, 0x0a0001c5, by decide⟩, ⟨⟨126, 0⟩, ?_⟩, ⟨⟨98, 0⟩, ?_⟩, ?_⟩
  · decide +kernel
  · decide +kernel
  · intro block hblock hcontains
    cases hblock
    exact absurd hcontains.2.2 (by decide)

end Addresses

end Mantissa.Network
