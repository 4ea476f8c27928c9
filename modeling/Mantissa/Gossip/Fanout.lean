import Mantissa.Scheduler.Snapshot

/-!
# The peers of a gossip round

A round of gossip goes to a window of the peers in the order of their ids. The window starts where
the one before has ended, so the cursor goes round: the windows of enough rounds in a row cover
every peer, wherever earlier rounds with other peers have left the cursor.
-/

namespace Mantissa.Gossip

open List

structure PeerHandle where
  id : Uuid
  address : String
  deriving DecidableEq, Inhabited

/-- `peers.sort_by_key(|peer| peer.id)`. -/
def sortById (peers : List PeerHandle) : List PeerHandle :=
  peers.insertionSort fun left right => left.id ≤ right.id

/-- `select_fanout_window`: the selected peers and the cursor afterwards. -/
def selectFanoutWindow (peers : List PeerHandle) (fanout cursor : ℕ) : List PeerHandle × ℕ :=
  if peers.isEmpty then (peers, 0)
  else
    let peers := sortById peers
    let target := if fanout = 0 then peers.length else min fanout peers.length
    if target ≥ peers.length then (peers, 0)
    else
      let start := cursor % peers.length
      ((range target).map fun offset => peers[(start + offset) % peers.length]!,
        (start + target) % peers.length)

/-- The cursor after calls with the given peers and fanouts. -/
def cursorAfter (calls : List (List PeerHandle × ℕ)) (cursor : ℕ) : ℕ :=
  calls.foldl (fun cursor call => (selectFanoutWindow call.1 call.2 cursor).2) cursor

/-- What consecutive calls with one fanout select. -/
def selectWindows (fanout : ℕ) : List (List PeerHandle) → ℕ → List (List PeerHandle)
  | [], _ => []
  | peers :: calls, cursor =>
    let (window, next) := selectFanoutWindow peers fanout cursor
    window :: selectWindows fanout calls next

variable {peers call : List PeerHandle} {calls : List (List PeerHandle)} {fanout cursor : ℕ}

lemma sortById_perm (peers : List PeerHandle) : sortById peers ~ peers := perm_insertionSort _ _

@[simp]
lemma length_sortById (peers : List PeerHandle) : (sortById peers).length = peers.length :=
  length_insertionSort _ _

variable (hids : (peers.map PeerHandle.id).Nodup)

include hids

/-- The order in which the peers are listed does not matter. -/
lemma sortById_eq (hcall : call ~ peers) : sortById call = sortById peers := by
  have hperm := (sortById_perm call).trans (hcall.trans (sortById_perm peers).symm)
  refine hperm.eq_of_pairwise ?_ (pairwise_insertionSort _ _) (pairwise_insertionSort _ _)
  intro left right hleft hright hle hge
  exact inj_on_of_nodup_map hids (hcall.mem_iff.mp ((sortById_perm call).mem_iff.mp hleft))
    ((sortById_perm peers).mem_iff.mp hright) (le_antisymm hle hge)

/-- A call selects all peers, or the next ones from the cursor on. -/
lemma selectFanoutWindow_eq (hcall : call ~ peers) (fanout cursor : ℕ) :
    selectFanoutWindow call fanout cursor =
      if fanout = 0 ∨ peers.length ≤ fanout then (sortById peers, 0)
      else (((sortById peers).rotate cursor).take fanout,
        (cursor % peers.length + fanout) % peers.length) := by
  simp only [selectFanoutWindow, sortById_eq hids hcall, length_sortById]
  by_cases hall : fanout = 0 ∨ peers.length ≤ fanout
  · have htarget : peers.length ≤ if fanout = 0 then peers.length else min fanout peers.length := by
      split_ifs <;> omega
    rw [if_pos htarget, if_pos hall, ite_eq_right_iff]
    intro hempty
    have hnil : peers = [] := nil_perm.mp (isEmpty_iff.mp hempty ▸ hcall)
    simp [isEmpty_iff.mp hempty, hnil, sortById]
  · obtain ⟨hpos, hlt⟩ := not_or.mp hall
    have hempty : ¬ call.isEmpty = true := by
      rw [isEmpty_iff_length_eq_zero, hcall.length_eq]
      omega
    rw [if_neg hempty, if_neg hall, if_neg hpos, min_eq_left (by omega), if_neg hlt]
    refine Prod.ext (ext_getElem (by simp; omega) fun offset hleft hright => ?_) rfl
    have hindex : (cursor + offset) % peers.length < (sortById peers).length :=
      (length_sortById peers).symm ▸ Nat.mod_lt _ (by omega)
    simp only [getElem_map, getElem_range, getElem_take, getElem_rotate, length_sortById,
      Nat.mod_add_mod, Nat.add_comm offset]
    exact getElem!_pos (sortById peers) _ hindex

variable (hcalls : ∀ call ∈ calls, call ~ peers)

include hcalls

/-- The windows follow one another round the sorted peers. -/
lemma selectWindows_eq (fanout cursor : ℕ) : selectWindows fanout calls cursor =
    (range calls.length).map fun i => if fanout = 0 ∨ peers.length ≤ fanout then sortById peers
      else ((sortById peers).rotate (cursor + i * fanout)).take fanout := by
  induction calls generalizing cursor with
  | nil => rfl
  | cons call calls ih =>
    have hround (i : ℕ) :
        (sortById peers).rotate ((cursor % peers.length + fanout) % peers.length + i * fanout) =
          (sortById peers).rotate (cursor + (i + 1) * fanout) := by
      rw [← rotate_mod _ (_ % _ + _), ← rotate_mod _ (cursor + _), length_sortById, Nat.mod_add_mod,
        Nat.add_assoc, Nat.mod_add_mod, Nat.succ_mul, Nat.add_comm fanout]
    have hrest := ih fun call hcall => hcalls call (mem_cons_of_mem _ hcall)
    rw [length_cons, range_succ_eq_map, map_cons, map_map]
    by_cases hall : fanout = 0 ∨ peers.length ≤ fanout
    · simp only [selectWindows, selectFanoutWindow_eq hids (hcalls call mem_cons_self),
        if_pos hall, hrest, Function.comp_def]
    · simp only [selectWindows, selectFanoutWindow_eq hids (hcalls call mem_cons_self),
        if_neg hall, hrest, Function.comp_def, hround, Nat.zero_mul, Nat.add_zero]

/-- **Fanout covers all peers.** After any earlier calls, consecutive calls with the same peers
select every one of them, and each call selects none but them, as many different ones as the fanout
allows. -/
theorem fanout_covers (earlier : List (List PeerHandle × ℕ)) (cursor : ℕ)
    (hcount : if fanout = 0 then calls ≠ [] else calls.length = peers.length ⌈/⌉ fanout) :
    let windows := selectWindows fanout calls (cursorAfter earlier cursor)
    (∀ window ∈ windows, window ⊆ peers ∧ window.Nodup ∧
      window.length = if fanout = 0 then peers.length else min peers.length fanout) ∧
    ∀ peer ∈ peers, ∃ window ∈ windows, peer ∈ window := by
  generalize cursorAfter earlier cursor = start
  have hsub : sortById peers ⊆ peers := (sortById_perm peers).subset
  have hnodup : (sortById peers).Nodup := (sortById_perm peers).nodup_iff.mpr (.of_map _ hids)
  simp only [selectWindows_eq hids hcalls, mem_map, mem_range, exists_exists_and_eq_and,
    forall_exists_index, and_imp, forall_apply_eq_imp_iff₂]
  constructor
  · intro i _
    split_ifs with hall hzero hzero
    · exact ⟨hsub, hnodup, length_sortById peers⟩
    · exact ⟨hsub, hnodup, by rw [length_sortById, min_eq_left (hall.resolve_left hzero)]⟩
    · exact absurd (.inl hzero) hall
    · have hpeer : ∀ peer ∈ (sortById peers).rotate (start + i * fanout), peer ∈ peers :=
        fun peer hpeer => hsub (mem_rotate.mp hpeer)
      exact ⟨fun peer hmem => hpeer peer (mem_of_mem_take hmem),
        (nodup_rotate.mpr hnodup).sublist (take_sublist _ _), by simp [min_comm]⟩
  · intro peer hpeer
    have hsorted : peer ∈ sortById peers := (sortById_perm peers).mem_iff.mpr hpeer
    have hplaces (hzero : fanout ≠ 0) : peers.length ≤ calls.length * fanout := by
      rw [if_neg hzero] at hcount
      rw [hcount, Nat.mul_comm]
      exact le_smul_ceilDiv (Nat.pos_of_ne_zero hzero)
    by_cases hall : fanout = 0 ∨ peers.length ≤ fanout
    · refine ⟨0, ?_, by rwa [if_pos hall]⟩
      by_cases hzero : fanout = 0
      · exact length_pos_iff.mpr (by simpa [hzero] using hcount)
      · exact Nat.pos_of_mul_pos_right ((length_pos_of_mem hpeer).trans_le (hplaces hzero))
    · obtain ⟨hzero, hlt⟩ := not_or.mp hall
      -- the place of the peer, counted from the cursor
      obtain ⟨place, hplace, rfl⟩ := getElem_of_mem (mem_rotate (n := start).mpr hsorted)
      have hplace_lt : place < peers.length := by simpa using hplace
      have hoffset := Nat.mod_lt place (Nat.pos_of_ne_zero hzero)
      refine ⟨place / fanout,
        Nat.div_lt_of_lt_mul (Nat.mul_comm .. ▸ hplace_lt.trans_le (hplaces hzero)), ?_⟩
      rw [if_neg hall, ← rotate_rotate, mem_iff_getElem?]
      refine ⟨place % fanout, ?_⟩
      rw [getElem?_take_of_lt hoffset, getElem?_rotate (by simp; omega), length_rotate,
        length_sortById,
        Nat.mul_comm, Nat.mod_add_div, Nat.mod_eq_of_lt hplace_lt, getElem?_eq_getElem hplace]

omit hids hcalls

def samplePeers : List PeerHandle := [⟨3, "10.0.0.3"⟩, ⟨1, "10.0.0.1"⟩, ⟨2, "10.0.0.2"⟩]

/-- Two calls cover three peers after a call with one peer less. -/
theorem fanout_covers_three : samplePeers.length = 3 ∧
    ∀ peer ∈ samplePeers, ∃ window ∈ selectWindows 2
    [samplePeers, samplePeers.reverse] (cursorAfter [(samplePeers.tail, 1)] 5), peer ∈ window :=
  ⟨rfl, (fanout_covers (by decide) (by decide) [(samplePeers.tail, 1)] 5 (by decide)).2⟩

end Mantissa.Gossip
