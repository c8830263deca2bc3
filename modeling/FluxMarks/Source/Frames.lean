import FluxMarks.Source.Basic

/-!
# A source of frames

Periods to frames. One pull takes in periods until those held end in a
sync pattern, and not one more. The first answer of nothing ends the
stage with a last frame of whatever is held, the first failure ends it
without one; either way the source is not asked again.

A source that hands out periods for ever may never make up a sync pattern.
The pull that waits for one does not come back then, so a pull is partial;
over a finite source it is not.
-/

namespace FluxMarks

/-- A source of periods, the periods held since the last frame (most
recent first), the number of the next frame, and whether the stage has
ended. -/
structure Framer (σ : Type) where
  source : σ
  held : List Nat
  index : Nat
  finished : Bool

namespace Framer

variable {σ : Type}

def ofSource (source : σ) : Framer σ :=
  { source, held := [], index := 0, finished := false }

/-- Hands out a frame of the given periods, and holds none. -/
def emit (f : Framer σ) (log : List Message) (periods : List Nat) :
    Pull (Framer σ) Frame :=
  let frame : Frame := { index := f.index, periods }
  ⟨some (.ok frame), log ++ [frame.completion], { f with held := [], index := f.index + 1 }⟩

/-- The answer to a pull, if it comes back. -/
def pull? [Source σ Nat] (f : Framer σ) : Option (Pull (Framer σ) Frame) :=
  if f.finished then some ⟨none, [], f⟩
  else
    let answer := Source.pull f.source
    match answer.item with
    | none =>
      some ({ f with source := answer.next, finished := true }.emit answer.log f.held.reverse)
    | some (.error e) =>
      some ⟨some (.error e), answer.log, { f with source := answer.next, finished := true }⟩
    | some (.ok period) =>
      let held := period :: f.held
      if endsInSync held then
        some ({ f with source := answer.next }.emit answer.log (beforeSync held))
      else do
        let grown : Framer σ := { f with source := answer.next, held }
        let later ← grown |>.pull?
        return { later with log := answer.log ++ later.log }
  partial_fixpoint

section

variable [Source σ Nat] {f : Framer σ}

theorem pull?_of_finished (hfin : f.finished = true) : f.pull? = some ⟨none, [], f⟩ := by
  rw [pull?, if_pos hfin]

theorem pull?_of_none (hrun : f.finished = false) (hitem : (Source.pull f.source).item = none) :
    f.pull? = some ({ f with source := (Source.pull f.source).next, finished := true }.emit
      (Source.pull f.source).log f.held.reverse) := by
  rw [pull?, if_neg (Bool.eq_false_iff.mp hrun)]
  simp only [hitem]

theorem pull?_of_error {error : CaptureError} (hrun : f.finished = false)
    (hitem : (Source.pull f.source).item = some (.error error)) :
    f.pull? = some ⟨some (.error error), (Source.pull f.source).log,
      { f with source := (Source.pull f.source).next, finished := true }⟩ := by
  rw [pull?, if_neg (Bool.eq_false_iff.mp hrun)]
  simp only [hitem]

theorem pull?_of_period {period : Nat} (hrun : f.finished = false)
    (hitem : (Source.pull f.source).item = some (.ok period)) :
    f.pull? = if endsInSync (period :: f.held) then
        some ({ f with source := (Source.pull f.source).next }.emit (Source.pull f.source).log
          (beforeSync (period :: f.held)))
      else
        (pull? { f with source := (Source.pull f.source).next, held := period :: f.held }).map
          fun later => { later with log := (Source.pull f.source).log ++ later.log } := by
  rw [pull?, if_neg (Bool.eq_false_iff.mp hrun), Option.map_eq_bind]
  simp only [hitem]
  rfl

end

/-! ## Over a finite source -/

variable [FiniteSource σ Nat]

/-- A frame costs its source at least the period that completes it; only
the last frame may cost nothing. -/
def remaining (f : Framer σ) : Nat :=
  if f.finished then 0 else FiniteSource.remaining f.source + 1

theorem exists_pull? (f : Framer σ) :
    ∃ p, f.pull? = some p
      ∧ ∀ frame, p.item = some (.ok frame) → p.next.remaining < f.remaining := by
  cases hrun : f.finished with
  | true => exact ⟨_, pull?_of_finished hrun, fun _ h => nomatch h⟩
  | false =>
    have before : f.remaining = FiniteSource.remaining f.source + 1 := by simp [remaining, hrun]
    rcases hitem : (Source.pull f.source).item with _ | e | period
    · exact ⟨_, pull?_of_none hrun hitem, fun _ _ => before ▸ Nat.succ_pos _⟩
    · exact ⟨_, pull?_of_error hrun hitem, fun _ h => nomatch h⟩
    · have less := FiniteSource.remaining_pull_lt f.source period hitem
      rw [pull?_of_period hrun hitem, before]
      split
      · refine ⟨_, rfl, fun frame _ => ?_⟩
        simpa [remaining, emit, hrun] using less
      · obtain ⟨later, hlater, hfewer⟩ := exists_pull?
          { f with source := (Source.pull f.source).next, held := period :: f.held }
        rw [hlater]
        refine ⟨_, rfl, fun frame h => Nat.lt_trans (hfewer frame h) ?_⟩
        simpa [remaining, hrun] using less
  termination_by FiniteSource.remaining f.source

theorem isSome_pull? (f : Framer σ) : f.pull?.isSome := by
  obtain ⟨p, hp, -⟩ := exists_pull? f
  rw [hp]
  rfl

def pull (f : Framer σ) : Pull (Framer σ) Frame :=
  f.pull?.get f.isSome_pull?

theorem pull_of_pull? {f : Framer σ} {p : Pull (Framer σ) Frame} (h : f.pull? = some p) :
    f.pull = p :=
  Option.get_of_eq_some _ h

theorem pull?_eq (f : Framer σ) : f.pull? = some f.pull :=
  (Option.some_get f.isSome_pull?).symm

instance : FiniteSource (Framer σ) Frame where
  pull := pull
  remaining := remaining
  remaining_pull_lt f frame h := by
    obtain ⟨p, hp, hfewer⟩ := exists_pull? f
    rw [pull_of_pull? hp] at h ⊢
    exact hfewer frame h

end Framer

end FluxMarks
