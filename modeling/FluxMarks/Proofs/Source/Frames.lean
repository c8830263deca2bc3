import FluxMarks.Proofs.Frame
import FluxMarks.Proofs.Source.Basic
import FluxMarks.Source.Frames

/-!
# The frames of a source

One pull of the framer is one frame: the periods up to a sync pattern, and
that pattern with them, leave the source (`pull_sync`), and only the last
frame is not told by a pattern but by the end (`pull_last`). In between, a
pull that finds no sync pattern has done nothing but hold what it took
(`pull_hold`).

So a framer over any source that hands out some periods hands out the
frames that cutting those periods in memory gives, and
`splitFrames_exact` says what these are: the only frames without a sync
pattern inside that join to the periods again.
-/

namespace FluxMarks

namespace Framer

open Source

variable {σ : Type} [Source σ Nat] {f : Framer σ} {rest : σ}

/-! ## One pull -/

/-- Takes periods and cuts nothing. -/
def hold (f : Framer σ) (rest : σ) (periods : List Nat) : Framer σ :=
  { f with source := rest, held := periods.reverse ++ f.held }

/-- Periods without a sync pattern are held, and the pull goes on. -/
theorem pull?_hold {periods : List Nat} (hrun : f.finished = false)
    (h : HandsOut f.source periods rest) (hfree : SyncFree (f.held.reverse ++ periods)) :
    f.pull? = (f.hold rest periods).pull?.map fun later =>
      { later with log := said periods.length f.source ++ later.log } := by
  induction periods generalizing f with
  | nil =>
      cases h
      exact Option.map_id'.symm
  | cons period periods ih =>
      cases h with
      | cons hitem hrest =>
          have hfree' : SyncFree ((period :: f.held).reverse ++ periods) := by
            rwa [List.reverse_cons, List.append_assoc]
          have hlater := ih (f := f.hold _ [period]) hrun hrest hfree'
          have hopen : ¬endsInSync (period :: f.held) = true := not_endsInSync hfree'
          rw [pull?_of_period hrun hitem, if_neg hopen]
          simp only [hold, List.reverse_singleton, List.singleton_append] at hlater
          rw [hlater, Option.map_map]
          simp [Function.comp_def, hold, said, pulls]

/-- A pull takes the periods of one frame and its sync pattern, and not one
more. -/
theorem pull?_sync {periods : List Nat} (hrun : f.finished = false)
    (h : HandsOut f.source (periods ++ syncPattern) rest)
    (hfree : SyncFree (f.held.reverse ++ periods)) :
    let frame : Frame := ⟨f.index, f.held.reverse ++ periods⟩
    f.pull? = some ⟨some (.ok frame),
      said (periods.length + syncPattern.length) f.source ++ [frame.completion],
      ⟨rest, [], f.index + 1, false⟩⟩ := by
  intro frame
  have hsplit : periods ++ syncPattern = (periods ++ [8]) ++ [3] := by simp [syncPattern]
  rw [hsplit] at h
  obtain ⟨last, htaken, hlast⟩ := handsOut_append_iff.mp h
  obtain ⟨hthree, rfl⟩ := handsOut_singleton_iff.mp hlast
  have hfree' : SyncFree (f.held.reverse ++ (periods ++ [8])) := by
    rw [← List.append_assoc]
    exact hfree.concat_eight
  have hheld : 3 :: (f.hold last (periods ++ [8])).held
      = syncPattern.reverse ++ (f.held.reverse ++ periods).reverse := by
    simp [hold, syncPattern]
  have hsync : endsInSync (3 :: (f.hold last (periods ++ [8])).held) = true := by
    rw [hheld]
    rfl
  have hsaid : said (periods.length + syncPattern.length) f.source
      = said (periods ++ [8]).length f.source ++ (Source.pull last).log := by
    rw [← htaken.said_succ, List.length_append]
    rfl
  rw [pull?_hold hrun htaken hfree', pull?_of_period (f := f.hold last _) hrun hthree,
    if_pos hsync, hheld, hsaid]
  simp [emit, hold, beforeSync, syncPattern, frame, hrun]

theorem pull?_last {periods : List Nat} (hrun : f.finished = false)
    (h : HandsOut f.source periods rest) (hend : (Source.pull rest).item = none)
    (hfree : SyncFree (f.held.reverse ++ periods)) :
    let frame : Frame := ⟨f.index, f.held.reverse ++ periods⟩
    f.pull? = some ⟨some (.ok frame), said (periods.length + 1) f.source ++ [frame.completion],
      ⟨(Source.pull rest).next, [], f.index + 1, true⟩⟩ := by
  intro frame
  rw [pull?_hold hrun h hfree, pull?_of_none (f := f.hold rest periods) hrun hend, h.said_succ]
  simp [emit, hold, frame]

/-- A failure goes through, and what is held never becomes a frame. -/
theorem pull?_failed {periods : List Nat} {error : CaptureError} (hrun : f.finished = false)
    (h : HandsOut f.source periods rest) (herr : (Source.pull rest).item = some (.error error))
    (hfree : SyncFree (f.held.reverse ++ periods)) :
    f.pull? = some ⟨some (.error error), said (periods.length + 1) f.source,
      ⟨(Source.pull rest).next, periods.reverse ++ f.held, f.index, true⟩⟩ := by
  rw [pull?_hold hrun h hfree, pull?_of_error (f := f.hold rest periods) hrun herr, h.said_succ]
  rfl

/-- Periods for ever, and never a sync pattern in them. -/
structure NeverCuts (f : Framer σ) : Prop where
  running : f.finished = false
  endless : ∀ n, ∃ periods rest, periods.length = n ∧ HandsOut f.source periods rest
    ∧ SyncFree (f.held.reverse ++ periods)

theorem NeverCuts.step (h : f.NeverCuts) :
    ∃ period, (Source.pull f.source).item = some (.ok period)
      ∧ ¬endsInSync (period :: f.held) = true
      ∧ (f.hold (Source.pull f.source).next [period]).NeverCuts := by
  obtain ⟨_ | ⟨period, _ | _⟩, rest, ⟨⟩, hone, hfree⟩ := h.endless 1
  obtain ⟨hitem, -⟩ := handsOut_singleton_iff.mp hone
  have hopen : SyncFree ((period :: f.held).reverse ++ []) := by simpa using hfree
  refine ⟨period, hitem, not_endsInSync hopen, h.running, fun n => ?_⟩
  obtain ⟨_ | ⟨first, periods⟩, rest, ⟨⟩, hout, hfree⟩ := h.endless (n + 1)
  cases hout with
  | cons hfirst hrest =>
      cases hitem.symm.trans hfirst
      exact ⟨periods, rest, rfl, hrest, by simpa [hold] using hfree⟩

/-- A pull that waits for a sync pattern does not come back if there is
none. -/
theorem NeverCuts.pull?_eq_none (h : f.NeverCuts) : f.pull? = none := by
  refine Option.eq_none_iff_forall_ne_some.mpr fun p hp => ?_
  -- the induction is on the periods that the pull takes before it comes back
  refine pull?.partial_correctness (fun f _ => ¬f.NeverCuts) (fun later ih f p hp h => ?_) f p hp h
  obtain ⟨period, hitem, hopen, hnext⟩ := h.step
  rw [if_neg (Bool.eq_false_iff.mp h.running)] at hp
  simp only [hitem, if_neg hopen] at hp
  obtain ⟨q, hq, -⟩ := Option.bind_eq_some_iff.mp hp
  exact ih _ q hq hnext

/-! ## All pulls -/

/-- Frames that the source marks by sync patterns come out one a pull. -/
theorem gives_frames {source : σ} (index : Nat) {frames : List (List Nat)}
    (h : HandsOut source (frames.flatMap (· ++ syncPattern)) rest)
    (hfree : ∀ frame ∈ frames, SyncFree frame) :
    Gives pull? (⟨source, [], index, false⟩ : Framer σ)
      (frames.mapIdx fun i periods => ⟨index + i, periods⟩)
      ⟨rest, [], index + frames.length, false⟩ := by
  induction frames generalizing source index with
  | nil =>
      cases h
      exact .nil _
  | cons frame frames ih =>
      rw [List.flatMap_cons, handsOut_append_iff] at h
      obtain ⟨next, hframe, hframes⟩ := h
      have hpull := pull?_sync (f := ⟨source, [], index, false⟩) rfl hframe
        (hfree frame (List.mem_cons_self ..))
      have hlater := ih (index + 1) hframes fun frame hframe =>
        hfree frame (List.mem_cons_of_mem _ hframe)
      rw [List.mapIdx_cons]
      refine .cons hpull rfl ?_
      simpa [Nat.add_comm, Nat.add_left_comm] using hlater

/-- Whatever its source answers next, a framer has handed out all frames
but the last, and what it has not asked for yet is the last one. -/
theorem gives_complete {source : σ} {periods : List Nat} (h : HandsOut source periods rest) :
    ∃ frames last next, splitFrom [] periods = frames ++ [last]
      ∧ Gives pull? (ofSource source) (frames.mapIdx Frame.mk) ⟨next, [], frames.length, false⟩
      ∧ HandsOut next last rest := by
  have hcut := isCut_splitFrom periods
  obtain ⟨frames, last, hframes⟩ : ∃ frames last, splitFrom [] periods = frames ++ [last] :=
    ⟨_, _, (List.dropLast_concat_getLast hcut.ne_nil).symm⟩
  rw [hframes] at hcut
  have hperiods := hcut.joined
  rw [joinFrames_concat] at hperiods
  rw [← hperiods, handsOut_append_iff] at h
  obtain ⟨next, hcomplete, hlast⟩ := h
  refine ⟨frames, last, next, hframes, ?_, hlast⟩
  have hgives := gives_frames 0 hcomplete fun frame hframe =>
    hcut.syncFree frame (List.mem_append_left _ hframe)
  simpa [ofSource] using hgives

/-- A source that comes to its end has its periods cut as they would be in
memory. -/
theorem gives_splitFrames {source : σ} {periods : List Nat}
    (h : HandsOut source periods rest) (hend : (Source.pull rest).item = none) :
    Gives pull? (ofSource source) (splitFrames periods)
      ⟨(Source.pull rest).next, [], (splitFrames periods).length, true⟩ := by
  obtain ⟨frames, last, next, hframes, hcomplete, hlast⟩ := gives_complete h
  have hfree : SyncFree last := (isCut_splitFrom periods).syncFree last (by simp [hframes])
  have hpull := pull?_last (f := ⟨next, [], frames.length, false⟩) rfl hlast hend hfree
  rw [splitFrames, hframes, List.mapIdx_append, List.length_append, List.length_mapIdx]
  simp only [List.mapIdx_cons, List.mapIdx_nil, Nat.zero_add]
  exact hcomplete.append (.cons hpull rfl (.nil _))

theorem yields_of_finished {σ : Type} [FiniteSource σ Nat] {f : Framer σ}
    (hfin : f.finished = true) : Yields f [] := by
  have hpull : Source.pull f = ⟨none, [], f⟩ := pull_of_pull? (pull?_of_finished hfin)
  exact yields_nil (congrArg Pull.item hpull) (congrArg Pull.next hpull)

end Framer

/-- **Framing is exact.** The frames of some periods are their only cut:
joined by sync patterns they are the periods again and none has a sync
pattern inside, and whatever frames are so, joining them and cutting again
gives them back. They are numbered from zero, and a framer that takes the
periods one by one hands out the same frames. -/
theorem splitFrames_exact (periods : List Nat) :
    (∀ frames, (splitFrames periods).map Frame.periods = frames ↔ IsCut periods frames)
      ∧ (splitFrames periods).map Frame.index = List.range (splitFrames periods).length
      ∧ Source.Yields (Framer.ofSource (Script.ofItems periods)) (splitFrames periods) := by
  refine ⟨fun frames => ⟨fun h => ?_, fun h => ?_⟩, map_index_splitFrames periods, ?_⟩
  · rw [← h, map_periods_splitFrames]
    exact isCut_splitFrom periods
  · rw [map_periods_splitFrames, h.eq_splitFrom]
  · have hout := (Framer.gives_splitFrames (Script.handsOut periods) rfl).handsOut Framer.pull?_eq
    exact hout.yields (Framer.yields_of_finished rfl)

end FluxMarks
