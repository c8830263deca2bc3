import FluxMarks.Frame

/-!
# Cutting at sync patterns

A capture in memory is cut by holding periods until they end in a sync
pattern. As long as none lies within what is held, holding is all that
happens (`splitFrom_of_syncFree`), and the pattern, which does not overlap
with itself, separates what is before it from what is after
(`splitFrom_append_sync`). So frames without a sync pattern inside survive
being joined by one (`splitFrom_joinFrames`), and since cutting gives such
frames of any periods and loses none (`isCut_splitFrom`), there is one way
only to cut.
-/

namespace FluxMarks

/-! ## Periods without a sync pattern -/

/-- No sync pattern lies anywhere within the periods. -/
def SyncFree (periods : List Nat) : Prop := ¬syncPattern <:+: periods

theorem syncFree_nil : SyncFree [] := by
  rintro ⟨before, after, h⟩
  simp [syncPattern] at h

theorem SyncFree.of_infix {part periods : List Nat} (h : SyncFree periods)
    (hpart : part <:+: periods) : SyncFree part :=
  fun hsync => h (hsync.trans hpart)

/-- One more period can complete a sync pattern at the end only. -/
theorem SyncFree.concat {periods : List Nat} {period : Nat} (h : SyncFree periods)
    (hend : ¬syncPattern <:+ periods ++ [period]) : SyncFree (periods ++ [period]) := by
  intro hsync
  rcases List.infix_concat_iff.mp hsync with hsuffix | hinside
  · exact hend hsuffix
  · exact h hinside

theorem SyncFree.concat_eight {periods : List Nat} (h : SyncFree periods) :
    SyncFree (periods ++ [8]) := by
  refine h.concat ?_
  rintro ⟨before, hend⟩
  have hlast := congrArg List.getLast? hend
  simp [syncPattern] at hlast

/-! ## What is held -/

theorem endsInSync_iff {held : List Nat} :
    endsInSync held = true ↔ syncPattern <:+ held.reverse := by
  rw [endsInSync, List.isPrefixOf_iff_prefix, ← List.reverse_suffix, List.reverse_reverse]

/-- A cut after a period needs a sync pattern that reaches up to it. -/
theorem not_endsInSync {period : Nat} {held frame : List Nat}
    (h : SyncFree ((period :: held).reverse ++ frame)) :
    ¬endsInSync (period :: held) = true := by
  intro hsync
  obtain ⟨before, hbefore⟩ := endsInSync_iff.mp hsync
  exact h ⟨before, frame, by rw [hbefore]⟩

theorem reverse_of_endsInSync {held : List Nat} (h : endsInSync held = true) :
    held.reverse = beforeSync held ++ syncPattern := by
  obtain ⟨before, hbefore⟩ := endsInSync_iff.mp h
  obtain rfl : held = syncPattern.reverse ++ before.reverse := by
    rw [← List.reverse_append, hbefore, List.reverse_reverse]
  simp [beforeSync, syncPattern]

/-! ## Joining -/

theorem joinFrames_singleton (frame : List Nat) : joinFrames [frame] = frame :=
  List.intercalate_singleton

theorem joinFrames_cons (frame : List Nat) {frames : List (List Nat)} (hne : frames ≠ []) :
    joinFrames (frame :: frames) = frame ++ syncPattern ++ joinFrames frames := by
  obtain ⟨next, rest, rfl⟩ := List.exists_cons_of_ne_nil hne
  rw [joinFrames, List.intercalate_cons_cons]
  rfl

/-- Every frame but the last is ended by a sync pattern. -/
theorem joinFrames_concat (frames : List (List Nat)) (last : List Nat) :
    joinFrames (frames ++ [last]) = frames.flatMap (· ++ syncPattern) ++ last := by
  induction frames with
  | nil => exact joinFrames_singleton last
  | cons frame frames ih =>
      rw [List.cons_append, joinFrames_cons frame (by simp), ih, List.flatMap_cons]
      simp only [List.append_assoc]

/-! ## Cutting what was joined -/

theorem splitFrom_of_syncFree {held frame : List Nat} (h : SyncFree (held.reverse ++ frame)) :
    splitFrom held frame = [held.reverse ++ frame] := by
  induction frame generalizing held with
  | nil => rw [splitFrom, List.append_nil]
  | cons period frame ih =>
      have hfree : SyncFree ((period :: held).reverse ++ frame) := by
        rwa [List.reverse_cons, List.append_assoc]
      rw [splitFrom, if_neg (not_endsInSync hfree), ih hfree, List.reverse_cons,
        List.append_assoc, List.singleton_append]

/-- A sync pattern forgets: what comes after it is cut as if nothing had
come before, and what comes before it as if nothing came after. -/
theorem splitFrom_append_sync (held before after : List Nat) :
    splitFrom held (before ++ syncPattern ++ after)
      = splitFrom held before ++ splitFrom [] after := by
  induction before generalizing held with
  | nil => rfl
  | cons period before ih =>
      rw [List.cons_append, List.cons_append, splitFrom, splitFrom, ih, ih]
      split <;> rfl

/-- More periods change nothing in the frames that are complete; only the
last frame goes on. -/
theorem splitFrom_append (held before later : List Nat) :
    ∃ frames last, splitFrom held before = frames ++ [last]
      ∧ splitFrom held (before ++ later) = frames ++ splitFrom last.reverse later := by
  fun_induction splitFrom held before with
  | case1 held => exact ⟨[], held.reverse, rfl, by rw [List.reverse_reverse]; rfl⟩
  | case2 held period before hsync ih =>
      obtain ⟨frames, last, hbefore, hwhole⟩ := ih
      refine ⟨beforeSync (period :: held) :: frames, last, by rw [hbefore, List.cons_append], ?_⟩
      rw [List.cons_append, splitFrom, if_pos hsync, hwhole, List.cons_append]
  | case3 held period before hopen ih =>
      obtain ⟨frames, last, hbefore, hwhole⟩ := ih
      refine ⟨frames, last, hbefore, ?_⟩
      rw [List.cons_append, splitFrom, if_neg hopen, hwhole]

/-- Frames without a sync pattern inside are what joining them by sync
patterns is cut into. -/
theorem splitFrom_joinFrames {frames : List (List Nat)} (hne : frames ≠ [])
    (hfree : ∀ frame ∈ frames, SyncFree frame) :
    splitFrom [] (joinFrames frames) = frames := by
  induction frames with
  | nil => exact absurd rfl hne
  | cons frame frames ih =>
      have hframe : splitFrom [] frame = [frame] :=
        splitFrom_of_syncFree (show SyncFree ([].reverse ++ frame) from
          hfree frame (List.mem_cons_self ..))
      cases frames with
      | nil => rw [joinFrames_singleton, hframe]
      | cons next frames =>
          have hrest := ih (List.cons_ne_nil _ _) fun f hf =>
            hfree f (List.mem_cons_of_mem _ hf)
          rw [joinFrames_cons frame (List.cons_ne_nil _ _), splitFrom_append_sync, hframe, hrest,
            List.singleton_append]

/-! ## Cutting anything -/

/-- Cutting loses no period: joined again, the frames are what was held
and what came. -/
theorem joinFrames_splitFrom (held periods : List Nat) :
    joinFrames (splitFrom held periods) = held.reverse ++ periods := by
  fun_induction splitFrom held periods with
  | case1 held => rw [joinFrames_singleton, List.append_nil]
  | case2 held period rest hsync ih =>
      rw [joinFrames_cons _ (splitFrom_ne_nil [] rest), ih, ← reverse_of_endsInSync hsync]
      simp
  | case3 held period rest hopen ih =>
      rw [ih, List.reverse_cons, List.append_assoc, List.singleton_append]

/-- Cutting misses no sync pattern. What is held has none inside, since the
only new place for one is at its end, and there it is cut off. -/
theorem syncFree_splitFrom {held : List Nat} (h : SyncFree held.reverse)
    (periods : List Nat) : ∀ frame ∈ splitFrom held periods, SyncFree frame := by
  fun_induction splitFrom held periods with
  | case1 held =>
      intro frame hframe
      rwa [List.mem_singleton.mp hframe]
  | case2 held period rest hsync ih =>
      intro frame hframe
      rcases List.mem_cons.mp hframe with rfl | hframe
      · have hpre : (held.drop 1).reverse <+: held.reverse :=
          List.reverse_prefix.mpr (List.drop_suffix 1 held)
        exact h.of_infix hpre.isInfix
      · exact ih syncFree_nil frame hframe
  | case3 held period rest hopen ih =>
      rw [endsInSync_iff, List.reverse_cons] at hopen
      refine ih ?_
      rw [List.reverse_cons]
      exact h.concat hopen

/-- Frames that some periods are made of: joined by sync patterns they are
the periods again, and none of them has a sync pattern inside. -/
structure IsCut (periods : List Nat) (frames : List (List Nat)) : Prop where
  ne_nil : frames ≠ []
  joined : joinFrames frames = periods
  syncFree : ∀ frame ∈ frames, SyncFree frame

theorem isCut_splitFrom (periods : List Nat) : IsCut periods (splitFrom [] periods) where
  ne_nil := splitFrom_ne_nil [] periods
  joined := joinFrames_splitFrom [] periods
  syncFree := syncFree_splitFrom (show SyncFree [].reverse from syncFree_nil) periods

theorem IsCut.eq_splitFrom {periods : List Nat} {frames : List (List Nat)}
    (h : IsCut periods frames) : splitFrom [] periods = frames := by
  rw [← h.joined, splitFrom_joinFrames h.ne_nil h.syncFree]

/-- Periods have no sync pattern among them, or a first one. -/
theorem syncFree_or_exists_first (periods : List Nat) :
    SyncFree periods
      ∨ ∃ frame later, SyncFree frame ∧ periods = frame ++ syncPattern ++ later := by
  obtain ⟨hne, hjoined, hfree⟩ := isCut_splitFrom periods
  cases hframes : splitFrom [] periods with
  | nil => exact absurd hframes hne
  | cons frame frames =>
      rw [hframes] at hjoined hfree
      have hframe := hfree frame (List.mem_cons_self ..)
      rcases frames with _ | ⟨next, frames⟩
      · rw [joinFrames_singleton] at hjoined
        exact Or.inl (hjoined ▸ hframe)
      · rw [joinFrames_cons frame (List.cons_ne_nil _ _)] at hjoined
        exact Or.inr ⟨frame, _, hframe, hjoined.symm⟩

/-! ## Numbering -/

theorem map_periods_splitFrames (periods : List Nat) :
    (splitFrames periods).map Frame.periods = splitFrom [] periods := by
  rw [splitFrames, List.mapIdx_eq_zipIdx_map, List.map_map]
  exact List.zipIdx_map_fst 0 _

theorem map_index_splitFrames (periods : List Nat) :
    (splitFrames periods).map Frame.index = List.range (splitFrames periods).length := by
  rw [splitFrames, List.length_mapIdx, List.mapIdx_eq_zipIdx_map, List.map_map,
    List.range_eq_range']
  exact List.zipIdx_map_snd 0 _

/-! ## Searching -/

theorem findSync_eq_none {periods : List Nat} (h : SyncFree periods) :
    findSync periods = none := by
  induction periods with
  | nil => rfl
  | cons period periods ih =>
      have hstart : ¬syncPattern.isPrefixOf (period :: periods) = true := fun hpre =>
        h (List.isPrefixOf_iff_prefix.mp hpre).isInfix
      have hrest : SyncFree periods := h.of_infix (List.suffix_cons period periods).isInfix
      rw [findSync, if_neg hstart, ih hrest, Option.map_none]

end FluxMarks
