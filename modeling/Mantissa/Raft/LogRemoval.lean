import Mantissa.Raft.LogAppend

/-!
# Committing and removing

Each of these calls changes what the log stands for in one transaction, and everything before and
after it only touches files that no row refers to. `delete_from` leaves a beginning of each
segment. `delete_through` first writes what a segment keeps into a new one; the frames of the new
segments are in files before they have rows (`Prepared`), and the transaction then exchanges old
rows for new ones.
-/

namespace Mantissa.EncryptedLog

open List Nat SegmentMap

variable {N P : Type} {settings : LogSettings N P} {dir : GroupDirectory}
  {segments : SegmentMap N P}
variable {log : EncryptedLog N P} {view : LogView N P} {database : LogDatabase N}

/-! ## Views -/

/-- A view with a newer commit point. -/
def LogView.commit (view : LogView N P) (logId : LogId N) : LogView N P :=
  if view.committed.any fun current => decide (logId.index ≤ current.index) then view
  else { view with committed := some logId }

/-- A view without the entries from an index on. -/
def LogView.deleteFrom (view : LogView N P) (index : ℕ) : LogView N P :=
  { view with entries := fun i => if i < index then view.entries i else none }

/-- A view without the entries through a log id. -/
def LogView.deleteThrough (view : LogView N P) (logId : LogId N) : LogView N P :=
  { view with
    entries := fun i => if logId.index < i then view.entries i else none
    lastRemoved := if view.lastRemoved.any fun removed => decide (logId.index ≤ removed.index) then
      view.lastRemoved else some logId }

/-! ## Between transactions -/

lemma Ready.shows (h : Ready settings dir view log) :
    ∃ segments, Shows settings dir segments view log := by
  obtain ⟨segments, hshows, -⟩ := h
  exact ⟨segments, hshows⟩

variable (h : Shows settings dir segments view log)

include h

lemma Shows.kept_self (hactive : log.active = none)
    (hpending : log.pending = []) : Kept settings dir segments log.database log :=
  ⟨rfl, hactive, hpending, h.files⟩

/-- With nothing in memory, standing for a view is enough. -/
lemma Shows.ready (hkept : Kept settings dir segments log.database log) :
    Ready settings dir view log :=
  ⟨segments, h, hkept.pending, fun _ hactive => absurd (hkept.active.symm.trans hactive) nofun⟩

omit h in
/-- `self.active = None` between two calls. -/
lemma Ready.dropActive (h : Ready settings dir view log) :
    ∃ segments, Shows settings dir segments view { log with active := none } ∧
      Kept settings dir segments log.database { log with active := none } := by
  obtain ⟨segments, hshows, hpending, -⟩ := h
  have hfiles : FilesOf settings dir segments { log with active := none } :=
    hshows.files.congr rfl rfl le_rfl
  exact ⟨segments, hshows.of_files rfl hfiles, rfl, rfl, hpending, hfiles⟩

lemma Shows.ready_of_kept {log' : EncryptedLog N P}
    (hkept : Kept settings dir segments log.database log') : Ready settings dir view log' :=
  (h.kept hkept).ready ((h.kept hkept).kept_self hkept.active hkept.pending)

omit h

/-! ## Committing -/

/-- A log id may be committed: the commit point is not below it, or it is stored under its index. -/
def LogView.Committable (view : LogView N P) (logId : LogId N) : Prop :=
  (view.committed.any fun current => decide (logId.index ≤ current.index)) = true ∨
    ∃ entry, view.entries logId.index = some entry ∧ entry.logId = logId

/-- **The commit point.** -/
theorem saveCommitted_spec [DecidableEq N] {logId : LogId N} (h : Ready settings dir view log) :
    wp (saveCommitted logId) log
      (fun _ log' => view.Committable logId ∧ Ready settings dir (view.commit logId) log')
      fun stop log' =>
        ∃ view', (view' = view ∨ view.Committable logId ∧ view' = view.commit logId) ∧
          Stopped settings dir view' stop log' := by
  have hsame : ∀ stop, ∃ view', (view' = view ∨ view.Committable logId ∧
      view' = view.commit logId) ∧
        Stopped settings dir view' stop log := fun stop => ⟨view, .inl rfl, h.stopped stop⟩
  obtain ⟨segments, hshows, hpending, hactive⟩ := id h
  refine (wp.query ?_ fun stop _ => hsame stop).bind
  rw [hshows.committed]
  cases hfilter : view.committed.filter fun current => decide (logId.index ≤ current.index) with
  | some current =>
    have hany : (view.committed.any fun current => decide (logId.index ≤ current.index)) =
        true := by
      obtain ⟨hcommitted, hle⟩ := Option.filter_eq_some_iff.mp hfilter
      rw [hcommitted]
      exact hle
    simp only
    split_ifs with hconflict
    · exact wp.reject (hsame _)
    · refine wp.pure ⟨.inl hany, ?_⟩
      rw [LogView.commit, if_pos hany]
      exact h
  | none =>
    have hany : ¬ (view.committed.any fun current =>
        decide (logId.index ≤ current.index)) = true := by
      intro hany
      obtain ⟨current, hcommitted, hle⟩ := (Option.any_eq_true _ _).mp hany
      rw [hcommitted, Option.filter_some, if_pos hle] at hfilter
      exact absurd hfilter nofun
    refine (Shows.location_spec hshows.rows logId.index).seq
      (fun stop _ hstop => hstop.2 ▸ hsame stop) ?_
    rintro _ log ⟨rfl, rfl⟩
    cases hlocation : log.database.locations[logId.index]? with
    | none => exact wp.reject (hsame _)
    | some location =>
      simp only
      split_ifs with hconflict
      · exact wp.reject (hsame _)
      · have hcommit : Ready settings dir (view.commit logId)
            { log with database := { log.database with committedLogId := some logId } } := by
          rw [LogView.commit, if_neg hany]
          refine ⟨segments, ⟨⟨hshows.rows.wellFormed, hshows.rows.keyed, hshows.rows.rows, ?_⟩,
            hshows.files.congr rfl rfl le_rfl, hshows.entries, hshows.lastRemoved, rfl⟩,
            hpending, ?_⟩
          · intro removed hremoved
            obtain ⟨hrows, committed, hcommitted, hle⟩ := hshows.rows.removed removed hremoved
            refine ⟨hrows, logId, rfl, ?_⟩
            rw [hshows.committed] at hcommitted
            have hlt : committed.index < logId.index := by
              simpa [hcommitted] using hany
            omega
          · intro active hsome
            obtain ⟨hfile, hwell, hbytes, hnumber, hframes, hlayout⟩ := hactive active hsome
            exact ⟨hfile, hwell, hbytes, hnumber, hframes, hlayout⟩
        have hcommittable : view.Committable logId := by
          cases hentry : view.entries logId.index with
          | none => exact absurd (hlocation.symm.trans (hshows.location_none.mpr hentry)) nofun
          | some entry =>
            obtain ⟨location', hlocation', hlogId⟩ := hshows.location_some hentry
            obtain rfl := Option.some.inj (hlocation.symm.trans hlocation')
            exact .inr ⟨entry, hentry, hlogId.symm.trans (not_not.mp hconflict)⟩
        exact wp.perform ⟨hcommittable, hcommit⟩ (fun stop _ => hsame stop)
          fun stop _ => ⟨_, .inr ⟨hcommittable, rfl⟩, hcommit.stopped stop⟩

/-! ## Dropping rows -/

lemma getElem?_foldl_erase (locations : List (LogLocation N)) (rows : BTreeMap ℕ (LogLocation N))
    (index : ℕ) :
    (locations.foldl (fun rows location => rows.erase location.logId.index) rows)[index]? =
      if ∃ location ∈ locations, location.logId.index = index then none else rows[index]? := by
  induction locations generalizing rows with
  | nil => simp
  | cons location locations ih =>
    rw [foldl_cons, ih, BTreeMap.getElem?_erase_eq]
    by_cases hlater : ∃ other ∈ locations, other.logId.index = index
    · rw [if_pos hlater, if_pos]
      obtain ⟨other, hother, heq⟩ := hlater
      exact ⟨other, mem_cons_of_mem _ hother, heq⟩
    · rw [if_neg hlater]
      by_cases hhere : location.logId.index = index
      · rw [if_pos hhere, if_pos ⟨location, mem_cons_self, hhere⟩]
      · rw [if_neg hhere, if_neg]
        rintro ⟨other, hother, heq⟩
        rcases mem_cons.mp hother with rfl | hmem
        · exact hhere heq
        · exact hlater ⟨other, hmem, heq⟩

/-- The rows after those that satisfy a condition on the index are dropped. -/
lemma dropRows_getElem? (hrows : RowsOf settings segments log.database) (drop : ℕ → Bool)
    (index : ℕ) : (log.dropRows ((log.database.locations.toList.map Prod.snd).filter
        fun location => drop location.logId.index)).database.locations[index]? =
      if drop index then none else log.database.locations[index]? := by
  rw [dropRows, getElem?_foldl_erase]
  by_cases hdrop : drop index = true
  · rw [if_pos hdrop]
    cases hlocation : log.database.locations[index]? with
    | none => simp
    | some location =>
      rw [if_pos]
      have hindex := hrows.keyed index location hlocation
      refine ⟨location, mem_filter.mpr ⟨?_, by rw [hindex]; exact hdrop⟩, hindex⟩
      exact mem_map.mpr ⟨_, BTreeMap.mem_toList.mpr hlocation, rfl⟩
  · rw [if_neg hdrop, if_neg]
    rintro ⟨location, hlocation, rfl⟩
    exact hdrop (mem_filter.mp hlocation).2

/-- An ordered list is the part that has a property of small elements, and then the rest. -/
lemma filter_append_filter {α : Type} {r : α → α → Prop} {l : List α} (keep : α → Bool)
    (hkeep : ∀ a b, r a b → keep b = true → keep a = true) (hordered : l.Pairwise r) :
    l.filter keep ++ l.filter (fun a => !keep a) = l := by
  induction l with
  | nil => rfl
  | cons a l ih =>
    obtain ⟨hfirst, hrest⟩ := pairwise_cons.mp hordered
    by_cases ha : keep a = true
    · rw [filter_cons_of_pos ha, filter_cons_of_neg (by simpa using ha), cons_append, ih hrest]
    · have hnone : l.filter keep = [] := by
        rw [filter_eq_nil_iff]
        intro b hb hkept
        exact ha (hkeep a b (hfirst b hb) hkept)
      have hall : l.filter (fun a => !keep a) = l := by
        rw [filter_eq_self]
        intro b hb
        simpa using filter_eq_nil_iff.mp hnone b hb
      rw [filter_cons_of_neg ha, filter_cons_of_pos (by simpa using ha), hnone, hall, nil_append]

/-! ## Removing the newest entries -/

section DeleteFrom

variable {index : ℕ}

/-- The frames below an index. -/
def SegmentMap.below (segments : SegmentMap N P) (index : ℕ) : SegmentMap N P :=
  fun id => (segments id).filter fun frame => decide (frame.entry.logId.index < index)

variable (hrows : RowsOf settings segments database)

include hrows

lemma below_split (index : ℕ) (id : SegmentId) : segments.below index id ++ (segments id).filter
      (fun frame => !decide (frame.entry.logId.index < index)) = segments id := by
  by_cases hnil : segments id = []
  · simp [below, hnil]
  · refine filter_append_filter _ ?_ (hrows.wellFormed id hnil).ordered
    intro a b hlt hb
    simp only [decide_eq_true_eq] at hb ⊢
    omega

lemma below_start (id : SegmentId) : segments.below index id <+: segments id := by
  conv_rhs => rw [← below_split hrows index id]
  exact prefix_append _ _

lemma mem_layout_below {id : SegmentId} {location : LogLocation N} :
    location ∈ layout settings id (segments.below index id) ↔
      location ∈ layout settings id (segments id) ∧ location.logId.index < index := by
  conv_rhs => rw [← below_split hrows index id]
  rw [layout, layout, layoutFrom_append, mem_append]
  constructor
  · intro hmem
    obtain ⟨frame, hframe, hlogId⟩ := exists_frame_of_mem_layoutFrom hmem
    exact ⟨.inl hmem, by simpa [hlogId] using (mem_filter.mp hframe).2⟩
  · rintro ⟨hmem | hmem, hlt⟩
    · exact hmem
    · obtain ⟨frame, hframe, hlogId⟩ := exists_frame_of_mem_layoutFrom hmem
      have hnot := (mem_filter.mp hframe).2
      simp only [Bool.not_eq_true', decide_eq_false_iff_not, hlogId] at hnot
      exact absurd hlt hnot

omit hrows

/-- What the log stands for after the transaction of `delete_from`. -/
lemma Shows.deleteFrom (h : Shows settings dir segments view log) (index : ℕ) :
    Shows settings dir (segments.below index) (view.deleteFrom index)
      (log.dropRows ((log.database.locations.toList.map Prod.snd).filter
        fun location => decide (index ≤ location.logId.index))) := by
  have hlookup : ∀ i, (log.dropRows ((log.database.locations.toList.map Prod.snd).filter
      fun location => decide (index ≤ location.logId.index))).database.locations[i]? =
      if index ≤ i then none else log.database.locations[i]? := fun i => by
    simpa using dropRows_getElem? h.rows (fun i => decide (index ≤ i)) i
  refine ⟨⟨?_, ?_, ?_, ?_⟩, ?_, ?_, h.lastRemoved, h.committed⟩
  · intro id hne
    have hne' : segments id ≠ [] := fun hnil => hne (by simp [below, hnil])
    exact (h.rows.wellFormed id hne').of_start (below_start h.rows id)
  · intro i location hlocation
    rw [hlookup] at hlocation
    split_ifs at hlocation
    exact h.rows.keyed i location hlocation
  · intro location
    rw [hlookup, mem_layout_below h.rows, ← h.rows.rows]
    split_ifs with hle
    · simp [not_lt.mpr hle]
    · simp [not_le.mp hle]
  · intro removed hremoved
    refine ⟨?_, (h.rows.removed removed hremoved).2⟩
    intro i location hlocation
    rw [hlookup] at hlocation
    split_ifs at hlocation
    exact (h.rows.removed removed hremoved).1 i location hlocation
  · exact (h.files.shrink (below_start h.rows)).congr rfl rfl le_rfl
  · intro i entry
    simp only [LogView.deleteFrom, SegmentMap.Has, below, mem_filter, decide_eq_true_eq]
    split_ifs with hlt
    · rw [h.entries]
      constructor
      · rintro ⟨rfl, id, frame, hframe, rfl⟩
        exact ⟨rfl, id, frame, ⟨hframe, hlt⟩, rfl⟩
      · rintro ⟨rfl, id, frame, ⟨hframe, -⟩, rfl⟩
        exact ⟨rfl, id, frame, hframe, rfl⟩
    · constructor
      · intro hnone
        cases hnone
      · rintro ⟨rfl, id, frame, ⟨-, hbelow⟩, rfl⟩
        exact absurd hbelow hlt

/-- **Removing the newest entries.** -/
theorem deleteFrom_spec [DecidableEq N] (h : Ready settings dir view log) :
    wp (deleteFrom settings index) log (fun _ => Ready settings dir (view.deleteFrom index))
      fun stop log' => ∃ view', (view' = view ∨ view' = view.deleteFrom index) ∧
        Stopped settings dir view' stop log' := by
  obtain ⟨segments, hshows⟩ := h.shows
  refine (wp.query ?_ fun stop _ => ⟨view, .inl rfl, h.stopped stop⟩).bind
  rw [hshows.committed]
  cases view.committed.filter fun committed => decide (index ≤ committed.index) with
  | some committed => exact wp.reject ⟨view, .inl rfl, h.stopped _⟩
  | none =>
    clear hshows
    obtain ⟨segments, hshows, hkept⟩ := h.dropActive
    refine (wp.remember ?_).bind
    refine (recoverFiles_spec hshows.rows hkept).seq (fun stop log' hstop =>
        ⟨view, .inl rfl, (hshows.ready_of_kept hstop.2).stopped stop⟩) ?_
    intro _ log' hkept'
    have hshows' := hshows.kept hkept'
    have hready' := hshows.ready_of_kept hkept'
    refine (allLocations_spec hshows'.rows).seq
      (fun stop _ hstop => ⟨view, .inl rfl, hstop.2 ▸ hready'.stopped stop⟩) ?_
    rintro _ log' ⟨rfl, rfl⟩
    have hdeleted := hshows'.deleteFrom index
    dsimp only
    split_ifs with hnone
    · -- There is nothing to remove.
      refine wp.pure ?_
      have hsame : view.deleteFrom index = view := by
        have hentries : (view.deleteFrom index).entries = view.entries := by
          funext i
          simp only [LogView.deleteFrom]
          split_ifs with hlt
          · rfl
          · rw [eq_comm, ← hshows'.location_none, Option.eq_none_iff_forall_ne_some]
            intro location hlocation
            have hindex := hshows'.rows.keyed i location hlocation
            rw [List.isEmpty_iff, List.filter_eq_nil_iff] at hnone
            refine hnone location (mem_map.mpr ⟨_, BTreeMap.mem_toList.mpr hlocation, rfl⟩) ?_
            simpa [hindex] using not_lt.mp hlt
        simp only [LogView.deleteFrom] at hentries ⊢
        rw [hentries]
      rw [hsame]
      exact hready'
    · have hafter := hdeleted.kept_self hkept'.active hkept'.pending
      refine (wp.perform ?_ (fun stop _ => ⟨view, .inl rfl, hready'.stopped stop⟩)
        fun stop _ => ⟨_, .inr rfl, (hdeleted.ready hafter).stopped stop⟩).bind
      refine (recoverFiles_spec hdeleted.rows hafter).mono ?_ ?_
      · intro _ log'' hkept''
        exact hdeleted.ready_of_kept hkept''
      · intro stop log'' hstop
        exact ⟨_, .inr rfl, (hdeleted.ready_of_kept hstop.2).stopped stop⟩

end DeleteFrom

/-! ## Replacement segments -/

section Replacement

variable {oldId newId : SegmentId}

/-- Frames as they are written into another segment. -/
def renumberFrom (id : SegmentId) : ℕ → List (Frame (LogEntry N P)) → List (Frame (LogEntry N P))
  | _, [] => []
  | number, frame :: frames =>
    ⟨id, number, frame.bytes, frame.entry⟩ :: renumberFrom id (number + 1) frames

lemma map_entry_renumberFrom (newId : SegmentId) (number : ℕ)
    (frames : List (Frame (LogEntry N P))) :
    (renumberFrom newId number frames).map Frame.entry = frames.map Frame.entry := by
  induction frames generalizing number with
  | nil => rfl
  | cons frame frames ih => simp [renumberFrom, map_cons, ih]

lemma framesBytes_renumberFrom (number : ℕ) (frames : List (Frame (LogEntry N P))) :
    framesBytes (renumberFrom newId number frames) = framesBytes frames := by
  induction frames generalizing number with
  | nil => rfl
  | cons frame frames ih => simp [renumberFrom, framesBytes_cons, ih]

variable {frames low high : List (Frame (LogEntry N P))}

lemma renumberFrom_eq_append {number : ℕ} {before after : List (Frame (LogEntry N P))}
    {frame : Frame (LogEntry N P)}
    (h : renumberFrom newId number frames = before ++ frame :: after) :
    ∃ old ∈ frames, frame = ⟨newId, number + before.length, old.bytes, old.entry⟩ := by
  induction frames generalizing number before with
  | nil => simp [renumberFrom] at h
  | cons first frames ih =>
    cases before with
    | nil =>
      obtain ⟨rfl, -⟩ := cons.inj h
      exact ⟨first, mem_cons_self, rfl⟩
    | cons head before =>
      obtain ⟨-, hrest⟩ := cons.inj h
      obtain ⟨old, hold, rfl⟩ := ih hrest
      refine ⟨old, mem_cons_of_mem _ hold, ?_⟩
      simp only [length_cons, Frame.mk.injEq, true_and, and_true]
      omega

/-- The end of a segment fits into another one. -/
lemma WellFormed.renumber (h : WellFormed settings oldId (low ++ high)) :
    WellFormed settings newId (renumberFrom newId 0 high) := by
  refine ⟨?_, ?_, ?_⟩
  · intro before frame after heq
    obtain ⟨old, hold, rfl⟩ := renumberFrom_eq_append heq
    obtain ⟨first, last, rfl⟩ := append_of_mem hold
    obtain ⟨-, -, hbytes, hmax⟩ := h.frame (low ++ first) old last (by simp)
    exact ⟨rfl, zero_add _, hbytes, hmax⟩
  · have hhigh := (pairwise_append.mp h.ordered).2.1
    have hmap : (high.map Frame.entry).Pairwise fun a b => a.logId.index < b.logId.index :=
      pairwise_map.mpr hhigh
    rw [← map_entry_renumberFrom newId 0 high] at hmap
    exact (pairwise_map (f := Frame.entry)).mp hmap
  · have := h.size
    rw [framesBytes_append] at this
    rw [framesBytes_renumberFrom]
    omega

/-- The unfinished replacement: a header and some frames, and no file under its final name. -/
def Unfinished (newId : SegmentId) (frames : List (Frame (LogEntry N P)))
    (log : EncryptedLog N P) : Prop :=
  log.files[segmentPath newId]? = none ∧ ∃ onDisk,
    log.files[replacementPath newId]? = some ⟨true, false, ⟨some newId, frames, 0⟩, onDisk⟩

lemma replacementPath_ne (newId id : SegmentId) : replacementPath newId ≠ segmentPath id := by
  intro h
  cases h

lemma Unfinished.writeFrame (h : Unfinished newId frames log) (frame : Frame (LogEntry N P)) :
    Unfinished newId (frames ++ [frame])
      (log.writeFile (replacementPath newId) (SegmentContent.writeFrame frame)) := by
  obtain ⟨hnone, onDisk, hfile⟩ := h
  refine ⟨?_, onDisk, ?_⟩
  · rw [writeFile, updateFile_files, if_neg (replacementPath_ne newId newId), hnone]
  · rw [writeFile, updateFile_files, if_pos rfl, hfile, Option.map_some]
    simp [SegmentContent.writeFrame]

/-- The frames that a segment keeps are copied one after the other. -/
lemma copyFrames_spec [DecidableEq N] {old : SegmentContent (LogEntry N P)}
    (hwell : WellFormed settings oldId frames)
    (hholds : SegmentContent.Holds old oldId frames) (rest : List (Frame (LogEntry N P))) :
    ∀ before copied log, frames = before ++ rest → framesBytes copied ≤ framesBytes before →
      Kept settings dir segments database log → Unfinished newId copied log →
      wp (copyFrames settings old settings.headerBytes newId
          (settings.headerBytes + framesBytes copied) copied.length
          (layoutFrom oldId (settings.headerBytes + framesBytes before) before.length rest)) log
        (fun locations log' => Kept settings dir segments database log' ∧ log'.drawn = log.drawn ∧
          Unfinished newId (copied ++ renumberFrom newId copied.length rest) log' ∧
            locations = layoutFrom newId (settings.headerBytes + framesBytes copied) copied.length
              (renumberFrom newId copied.length rest))
        (onFault (Kept settings dir segments database)) := by
  induction rest with
  | nil =>
    intro before copied log _ _ hkept hunfinished
    refine wp.pure ⟨hkept, rfl, ?_, rfl⟩
    simpa [renumberFrom] using hunfinished
  | cons frame rest ih =>
    intro before copied log hframes hsmaller hkept hunfinished
    subst hframes
    obtain ⟨-, -, hbytes, hmax⟩ := hwell.frame before frame rest rfl
    have hsize := hwell.size
    rw [framesBytes_append, framesBytes_cons] at hsize
    refine (readFrame_spec hwell hholds).seq (fun _ _ hstop => ⟨hstop.1, hstop.2 ▸ hkept⟩) ?_
    rintro _ log ⟨rfl, rfl⟩
    simp only [hbytes]
    rw [if_neg (not_lt.mpr hmax), if_neg (by omega)]
    have hunused : ∀ id, replacementPath newId = segmentPath id → segments id = [] :=
      fun id heq => absurd heq (replacementPath_ne newId id)
    refine (writeAll_spec hkept (hkept.touch _ hunused) (hkept.touch _ hunused)).next ?_
    rintro _ _ rfl
    have hnext := ih (before ++ [frame])
      (copied ++ [⟨newId, copied.length, frame.bytes, frame.entry⟩]) _ (by simp)
      (by simpa using hsmaller) (hkept.touch _ hunused) (hunfinished.writeFrame _)
    have hoffset : settings.headerBytes + framesBytes (before ++ [frame]) =
        settings.headerBytes + framesBytes before + frame.bytes := by
      simp [add_assoc]
    have hcopied : settings.headerBytes +
        framesBytes (copied ++ [⟨newId, copied.length, frame.bytes, frame.entry⟩]) =
        settings.headerBytes + framesBytes copied + frame.bytes := by
      simp [add_assoc]
    rw [hoffset, hcopied, length_append, length_append, length_singleton, length_singleton] at hnext
    refine hnext.next ?_
    rintro _ log' ⟨hkept', hdrawn, hunfinished', rfl⟩
    refine wp.pure ⟨hkept', hdrawn.trans (updateFile_drawn ..), ?_, rfl⟩
    simpa [renumberFrom] using hunfinished'

/-- The files with one more segment. -/
lemma Kept.install (h : Kept settings dir segments database log)
    (hfile : ∃ file, log.files[segmentPath newId]? = some file ∧
      SegmentFile.Holds file newId frames) :
    Kept settings dir (Function.update segments newId frames) database log :=
  ⟨h.database, h.active, h.pending, h.files.update hfile⟩

/-- `write_replacement` for what a segment keeps. -/
lemma writeReplacement_spec [DecidableEq N]
    (hold : segments oldId = low ++ high) (hne : segments oldId ≠ [])
    (hwell : WellFormed settings oldId (segments oldId)) (hnew : segments newId = [])
    (hfinal : log.files[segmentPath newId]? = none)
    (htemporary : log.files[replacementPath newId]? = none)
    (hdrawn : ∃ draw < log.drawn, settings.segmentIds draw = newId)
    (hkept : Kept settings dir segments database log) : wp (writeReplacement settings oldId newId
        (layoutFrom oldId (settings.headerBytes + framesBytes low) low.length high)) log
      (fun locations log' =>
        Kept settings dir (Function.update segments newId (renumberFrom newId 0 high))
          database log' ∧ locations = layout settings newId (renumberFrom newId 0 high))
      (onFault (Kept settings dir segments database)) := by
  obtain ⟨file, hfile, hholds⟩ := hkept.files.holds oldId hne
  have hcontent := hholds.content
  rw [hold] at hwell hcontent
  refine (openSegment_spec hfile hholds.linked).seq (fun _ _ hstop => ⟨hstop.1, hstop.2 ▸ hkept⟩) ?_
  rintro _ log ⟨rfl, rfl⟩
  refine (readAndCheckSegmentHeader_spec hholds.content.1).seq
    (fun _ _ hstop => ⟨hstop.1, hstop.2 ▸ hkept⟩) ?_
  rintro _ log ⟨rfl, rfl⟩
  -- The unfinished file with its header.
  have hunused : ∀ id, replacementPath newId = segmentPath id → segments id = [] :=
    fun id heq => absurd heq (replacementPath_ne newId id)
  have hput := hkept.putFile SegmentContent.empty SegmentContent.empty hunused hdrawn
  refine (createSegment_spec htemporary hkept hput).next ?_
  rintro _ _ rfl
  refine (writeAll_spec hput (hput.touch _ hunused) (hput.touch _ hunused)).next ?_
  rintro _ _ rfl
  have hheader := hput.touch (fun file => { file with
    content := { file.content with header := some newId } }) hunused
  have hunfinished : Unfinished newId []
      ((log.putFile (replacementPath newId) .empty .empty).writeFile
      (replacementPath newId) fun content => { content with header := some newId }) := by
    refine ⟨?_, .empty, ?_⟩
    · rw [writeFile, updateFile_files, if_neg (replacementPath_ne newId newId), putFile_files,
        if_neg (replacementPath_ne newId newId), hfinal]
    · rw [writeFile, updateFile_files, if_pos rfl, putFile_files, if_pos rfl, Option.map_some]
      rfl
  -- The frames are copied, and the file is synced and moved.
  refine (copyFrames_spec hwell hcontent high low [] _ rfl (zero_le _) hheader hunfinished).next ?_
  rintro _ log' ⟨hkept', hdrawn', ⟨hnone, onDisk, hcopy⟩, rfl⟩
  have hsynced := hkept'.touch (fun file => { file with onDisk := file.content }) hunused
  refine (wp.perform_eq (P := Kept settings dir segments database) hkept' hsynced).next ?_
  rintro _ _ rfl
  refine wp.bind ?_
  refine (wp.memory ?_).bind
  refine (wp.memory ?_).bind
  have hat : (log'.syncedFile (replacementPath newId)).fileAt (segmentPath newId) = none := by
    rw [fileAt, syncedFile, updateFile_files, if_neg (replacementPath_ne newId newId), hnone]
    rfl
  have hmoved : (log'.syncedFile (replacementPath newId)).fileAt (replacementPath newId) =
      some ⟨true, false, ⟨some newId, renumberFrom newId 0 high, 0⟩,
        ⟨some newId, renumberFrom newId 0 high, 0⟩⟩ := by
    rw [fileAt, syncedFile, updateFile_files, if_pos rfl, hcopy]
    rfl
  simp only [hat, hmoved]
  have hfree : ∀ id, segmentPath newId = segmentPath id → segments id = [] := by
    intro id heq
    cases heq
    exact hnew
  have hrenamed := (hsynced.touch (fun file => { file with linked := false }) hunused).putFile
    ⟨some newId, renumberFrom newId 0 high, 0⟩ ⟨some newId, renumberFrom newId 0 high, 0⟩ hfree
    (by simpa [hdrawn', writeFile, segmentPath] using hdrawn)
  refine (wp.perform_eq (P := Kept settings dir segments database) hsynced hrenamed).mono ?_
    fun _ _ hstop => hstop
  rintro _ _ rfl
  refine (wp.perform_eq (P := Kept settings dir segments database) hrenamed
    hrenamed.syncedDirectory).next ?_
  rintro _ _ rfl
  refine wp.pure ⟨hrenamed.syncedDirectory.install ⟨⟨true, true,
    ⟨some newId, renumberFrom newId 0 high, 0⟩, ⟨some newId, renumberFrom newId 0 high, 0⟩⟩,
    ?_, ?_⟩, rfl⟩
  · rw [syncedDirectory_files, putFile_files, if_pos rfl]
    rfl
  · exact ⟨rfl, rfl, ⟨rfl, prefix_rfl⟩, ⟨rfl, prefix_rfl⟩⟩

lemma removeIfPresent_spec {name : FileName}
    (hunused : ∀ id, name = segmentPath id → segments id = [])
    (h : Kept settings dir segments database log) :
    Keeps (Kept settings dir segments database) (removeIfPresent name) log := by
  refine (wp.memory ?_).bind
  cases log.fileAt name with
  | none => exact wp.pure h
  | some file =>
    have hremoved := h.unlinkFile hunused
    exact wp.perform hremoved (fun _ hstop => ⟨hstop, h⟩) fun _ hstop => ⟨hstop, hremoved⟩

/-- `prepare_replacement`: a new segment with the frames to keep, or no new segment. -/
lemma prepareReplacement_spec [DecidableEq N] (hids : Function.Injective settings.segmentIds)
    (hold : segments oldId = low ++ high)
    (hne : segments oldId ≠ []) (hwell : WellFormed settings oldId (segments oldId))
    (hkept : Kept settings dir segments database log) : wp (prepareReplacement settings oldId
        (layoutFrom oldId (settings.headerBytes + framesBytes low) low.length high)) log
      (fun replacement log' => segments replacement.1 = [] ∧ Kept settings dir
          (Function.update segments replacement.1 (renumberFrom replacement.1 0 high)) database
          log' ∧ replacement.2 = layout settings replacement.1 (renumberFrom replacement.1 0 high))
      (onFault (Kept settings dir segments database)) := by
  have hnew := hkept.files.undrawn_eq_nil hids
  have hfinal := hkept.files.not_mem_of_undrawn hids
      (segmentPath (settings.segmentIds log.drawn)) rfl
  have htemporary := hkept.files.not_mem_of_undrawn hids
    (replacementPath (settings.segmentIds log.drawn)) rfl
  refine wp.bind (wp.bind ?_)
  refine (wp.perform_eq (P := Kept settings dir segments database) hkept hkept.draw).mono ?_
    fun _ _ hstop => hstop
  rintro _ _ rfl
  refine wp.memory ?_
  have hwrite : wp (writeReplacement settings oldId (settings.segmentIds log.drawn)
      (layoutFrom oldId (settings.headerBytes + framesBytes low) low.length high))
      { log with drawn := log.drawn + 1 } _ _ :=
    writeReplacement_spec hold hne hwell hnew hfinal htemporary
      ⟨log.drawn, lt_succ_self _, rfl⟩ hkept.draw
  refine wp.bind (wp.rescue (hwrite.mono (fun locations log' hdone => ?_) fun _ _ hstop => hstop)
    (fun _ hstop => hstop) ?_)
  · exact wp.pure ⟨hnew, hdone⟩
  · -- The files of a replacement that failed are removed.
    rintro stop t - ⟨hinjected, hkept'⟩
    refine (removeIfPresent_spec (fun id heq => absurd heq (replacementPath_ne _ id))
      hkept').next ?_
    intro _ log' hkept'
    refine (removeIfPresent_spec (fun id heq => ?_) hkept').next ?_
    · cases heq
      exact hnew
    · intro _ log' hkept'
      exact (syncLogDirectory_spec hkept').mono (fun _ _ hdone => ⟨hinjected, hdone⟩)
        fun _ _ hstop => hstop

end Replacement

end Mantissa.EncryptedLog
