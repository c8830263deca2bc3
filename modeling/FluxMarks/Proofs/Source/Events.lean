import FluxMarks.Proofs.Source.Frames
import FluxMarks.Source.Events

/-!
# The events of a source

The decoder over a source of samples is three stages on top of each other,
and each turns a stretch of items of the stage below into one of its own:
samples into periods one for one, periods into frames, a frame into its one
or two events. Put together, a source that hands out some samples and comes
to its end is decoded to the events that the same samples have in memory
(`TrackDecoder.yields_decodeCapture`), whatever the source is.

A source need not come to an end. Between two frames a pull comes to one of
four things (`TrackDecoder.outcome`): a frame that a sync pattern ends, the
last frame, a failure, or nothing at all, if samples come for ever and never
a sync pattern.
-/

namespace FluxMarks

open Source

variable {σ : Type}

/-! ## Samples to periods -/

namespace Quantizer

theorem answer_of_sample {p : Pull σ UInt8} {sample : UInt8}
    (h : p.item = some (.ok sample)) :
    (answer p).item = some (.ok (quantize sample)) ∧ (answer p).next = ofSource p.next := by
  obtain ⟨item, log, next⟩ := p
  cases h
  exact ⟨rfl, rfl⟩

theorem answer_of_none {p : Pull σ UInt8} (h : p.item = none) : (answer p).item = none := by
  obtain ⟨item, log, next⟩ := p
  cases h
  rfl

theorem answer_of_error {p : Pull σ UInt8} {error : CaptureError}
    (h : p.item = some (.error error)) : (answer p).item = some (.error error) := by
  obtain ⟨item, log, next⟩ := p
  cases h
  rfl

variable [Source σ UInt8]

theorem pull_ofSource (s : σ) : Source.pull (ofSource s) = answer (Source.pull s) := rfl

theorem source_next_pull (s : σ) :
    (Source.pull (ofSource s)).next.source = (Source.pull s).next := by
  rw [pull_ofSource]
  rcases Source.pull s with ⟨_ | _ | _, log, next⟩ <;> rfl

theorem log_pull (s : σ) : (Source.pull (ofSource s)).log = (Source.pull s).log := by
  rw [pull_ofSource]
  rcases Source.pull s with ⟨_ | _ | _, log, next⟩ <;> rfl

theorem handsOut {s t : σ} {samples : List UInt8} (h : HandsOut s samples t) :
    HandsOut (ofSource s) (samples.map quantize) (ofSource t) := by
  induction h with
  | nil s => exact .nil _
  | cons hitem _ ih =>
      obtain ⟨hperiod, hnext⟩ := answer_of_sample hitem
      exact .cons hperiod (hnext ▸ ih)

/-- Turning samples into periods is done in silence. -/
theorem said_map {s t : σ} {samples : List UInt8} (h : HandsOut s samples t) :
    said (samples.map quantize).length (ofSource s) = said samples.length s := by
  induction h with
  | nil s => rfl
  | @cons s t sample samples hitem _ ih =>
      have hnext : (Source.pull (ofSource s)).next = ofSource (Source.pull s).next :=
        (answer_of_sample hitem).2
      rw [List.map_cons, List.length_cons, List.length_cons, said_cons, said_cons, log_pull, hnext,
        ih]

theorem said_map_succ {s t : σ} {samples : List UInt8} (h : HandsOut s samples t) :
    said ((samples.map quantize).length + 1) (ofSource s)
      = said samples.length s ++ (Source.pull t).log := by
  rw [(handsOut h).said_succ, said_map h, log_pull]

end Quantizer

/-! ## One pull -/

namespace TrackDecoder

/-- The source of the samples, as the pulls so far have left it. -/
def source (d : TrackDecoder σ) : σ := d.frames.source.source

/-- A decoder between two frames: all periods that it took are in frames that
it has handed out. -/
def between (now : σ) (index : Nat) (pending : Option Record) : TrackDecoder σ :=
  ⟨⟨.ofSource now, [], index, false⟩, pending⟩

variable [Source σ UInt8] {f g : Framer (Quantizer σ)} {now next stop : σ} {samples : List UInt8}

theorem pull?_of_sync {periods : List Nat} (index : Nat) (hout : HandsOut now samples next)
    (hfree : SyncFree periods) (hsamples : samples.map quantize = periods ++ syncPattern) :
    let frame : Frame := ⟨index, periods⟩
    (between now index none).pull? = some ⟨some (.ok (.frame frame.diagnostic)),
      said samples.length now ++ [frame.completion] ++ frame.findings,
      between next (index + 1) frame.record?⟩ := by
  intro frame
  have hperiods := Quantizer.handsOut hout
  have hsaid := Quantizer.said_map hout
  rw [hsamples] at hperiods hsaid
  rw [List.length_append] at hsaid
  have hpull :=
    Framer.pull?_sync (f := ⟨Quantizer.ofSource now, [], index, false⟩) rfl hperiods hfree
  rw [hsaid] at hpull
  exact congrArg (Option.map answer) hpull

theorem pull?_of_end (index : Nat) (hout : HandsOut now samples stop)
    (hend : (Source.pull stop).item = none) (hfree : SyncFree (samples.map quantize)) :
    let frame : Frame := ⟨index, samples.map quantize⟩
    (between now index none).pull? = some ⟨some (.ok (.frame frame.diagnostic)),
      said samples.length now ++ (Source.pull stop).log ++ [frame.completion] ++ frame.findings,
      ⟨⟨(Source.pull (Quantizer.ofSource stop)).next, [], index + 1, true⟩, frame.record?⟩⟩ := by
  intro frame
  have hpull := Framer.pull?_last (f := ⟨Quantizer.ofSource now, [], index, false⟩) rfl
    (Quantizer.handsOut hout) (Quantizer.answer_of_none hend) hfree
  rw [Quantizer.said_map_succ hout] at hpull
  exact congrArg (Option.map answer) hpull

theorem pull?_of_failure {error : CaptureError} (index : Nat) (hout : HandsOut now samples stop)
    (herr : (Source.pull stop).item = some (.error error))
    (hfree : SyncFree (samples.map quantize)) :
    (between now index none).pull? = some ⟨some (.error error),
      said samples.length now ++ (Source.pull stop).log,
      ⟨⟨(Source.pull (Quantizer.ofSource stop)).next, (samples.map quantize).reverse, index,
        true⟩, none⟩⟩ := by
  have hpull := Framer.pull?_failed (f := ⟨Quantizer.ofSource now, [], index, false⟩) rfl
    (Quantizer.handsOut hout) (Quantizer.answer_of_error herr) hfree
  rw [Quantizer.said_map_succ hout, List.append_nil] at hpull
  exact congrArg (Option.map answer) hpull

/-- Samples for ever, and never a sync pattern in them. -/
def NeverSyncs (now : σ) : Prop :=
  ∀ n, ∃ samples next, samples.length = n ∧ HandsOut now samples next
    ∧ SyncFree (samples.map quantize)

/-- A decoder waits for ever for a sync pattern that does not come. -/
theorem NeverSyncs.pull?_eq_none (h : NeverSyncs now) (index : Nat) :
    (between now index none).pull? = none := by
  have hcuts : Framer.NeverCuts ⟨Quantizer.ofSource now, [], index, false⟩ := by
    refine ⟨rfl, fun n => ?_⟩
    obtain ⟨samples, next, hlength, hout, hfree⟩ := h n
    exact ⟨_, _, by rw [List.length_map, hlength], Quantizer.handsOut hout, hfree⟩
  exact congrArg (Option.map answer) hcuts.pull?_eq_none

/-- What a pull comes to between two frames, with no record kept back. -/
inductive Outcome (now : σ) (index : Nat) : Option (Pull (TrackDecoder σ) Event) → Prop
  /-- A frame takes its samples and those of the sync pattern behind it. -/
  | frame {samples : List UInt8} {next : σ} (frame : Frame) (hindex : frame.index = index)
      (hout : HandsOut now samples next) (hfree : SyncFree frame.periods)
      (hsamples : samples.map quantize = frame.periods ++ syncPattern) :
      Outcome now index (some ⟨some (.ok (.frame frame.diagnostic)),
        said samples.length now ++ [frame.completion] ++ frame.findings,
        between next (index + 1) frame.record?⟩)
  /-- The last frame takes what is left and the answer that there is no more. -/
  | lastFrame {samples : List UInt8} {stop : σ} {frames : Framer (Quantizer σ)} (frame : Frame)
      (hindex : frame.index = index) (hout : HandsOut now samples stop)
      (hfree : SyncFree frame.periods) (hsamples : samples.map quantize = frame.periods)
      (hend : (Source.pull stop).item = none) (hfin : frames.finished = true)
      (hasked : frames.source.source = (Source.pull stop).next) :
      Outcome now index (some ⟨some (.ok (.frame frame.diagnostic)),
        said samples.length now ++ (Source.pull stop).log ++ [frame.completion] ++ frame.findings,
        ⟨frames, frame.record?⟩⟩)
  /-- A failure takes what comes before it, which completes no frame. -/
  | failure {samples : List UInt8} {stop : σ} {frames : Framer (Quantizer σ)}
      {error : CaptureError} (hout : HandsOut now samples stop)
      (hfree : SyncFree (samples.map quantize))
      (herr : (Source.pull stop).item = some (.error error)) (hfin : frames.finished = true)
      (hasked : frames.source.source = (Source.pull stop).next) :
      Outcome now index (some ⟨some (.error error),
        said samples.length now ++ (Source.pull stop).log, ⟨frames, none⟩⟩)
  | never (h : NeverSyncs now) : Outcome now index none

/-- Samples hold no sync pattern, or some of them are a frame and the first
one. -/
theorem syncFree_or_sync (hout : HandsOut now samples stop) :
    SyncFree (samples.map quantize)
      ∨ ∃ stretch next periods, HandsOut now stretch next ∧ SyncFree periods
        ∧ stretch.map quantize = periods ++ syncPattern := by
  refine (syncFree_or_exists_first (samples.map quantize)).imp_right ?_
  rintro ⟨periods, later, hfree, hsync⟩
  obtain ⟨stretch, rest, rfl, hstretch, -⟩ := List.map_eq_append_iff.mp hsync
  obtain ⟨next, hframe, -⟩ := handsOut_append_iff.mp hout
  exact ⟨stretch, next, periods, hframe, hfree, hstretch⟩

theorem outcome_of_sync {periods : List Nat} (index : Nat) (hout : HandsOut now samples next)
    (hfree : SyncFree periods) (hsamples : samples.map quantize = periods ++ syncPattern) :
    Outcome now index (between now index none).pull? := by
  rw [pull?_of_sync index hout hfree hsamples]
  exact .frame ⟨index, periods⟩ rfl hout hfree hsamples

theorem outcome_of_stop (index : Nat) (hout : HandsOut now samples stop)
    (hfree : SyncFree (samples.map quantize)) (hstop : (Source.pull stop).item? = none) :
    Outcome now index (between now index none).pull? := by
  have hasked := Quantizer.source_next_pull stop
  rcases hitem : (Source.pull stop).item with _ | error | sample
  · rw [pull?_of_end index hout hitem hfree]
    exact .lastFrame ⟨index, samples.map quantize⟩ rfl hout hfree rfl hitem rfl hasked
  · rw [pull?_of_failure index hout hitem hfree]
    exact .failure hout hfree hitem rfl hasked
  · simp [Pull.item?, hitem] at hstop

/-- A pull comes to something within so many samples, or takes as many. -/
theorem outcome_or_more (now : σ) (index n : Nat) :
    Outcome now index (between now index none).pull?
      ∨ ∃ samples next, samples.length = n ∧ HandsOut now samples next
        ∧ SyncFree (samples.map quantize) := by
  induction n with
  | zero => exact Or.inr ⟨[], now, rfl, .nil now, syncFree_nil⟩
  | succ n ih =>
      rcases ih with houtcome | ⟨samples, next, hlength, hout, hfree⟩
      · exact Or.inl houtcome
      cases hitem : (Source.pull next).item? with
      | none => exact Or.inl (outcome_of_stop index hout hfree hitem)
      | some sample =>
          have hmore := hout.append (.cons (Pull.item_of_item? hitem) (.nil _))
          rcases syncFree_or_sync hmore with hfree | ⟨stretch, rest, periods, hsync, hfree, heq⟩
          · exact Or.inr ⟨_, _, by simp [hlength], hmore, hfree⟩
          · exact Or.inl (outcome_of_sync index hsync hfree heq)

theorem outcome (now : σ) (index : Nat) : Outcome now index (between now index none).pull? := by
  by_cases hmore : NeverSyncs now
  · rw [hmore.pull?_eq_none]
    exact .never hmore
  · obtain ⟨n, hn⟩ := Classical.not_forall.mp hmore
    exact (outcome_or_more now index n).resolve_right hn

theorem pull?_of_finished (hfin : f.finished = true) :
    pull? (⟨f, none⟩ : TrackDecoder σ) = some ⟨none, [], ⟨f, none⟩⟩ := by
  rw [pull?, Framer.pull?_of_finished hfin]
  rfl

/-! ## Frames to events -/

/-- A frame is answered with its diagnostic, and its record, if there is
one, is kept back for one more pull. -/
theorem gives_events {frame : Frame} {log : List Message}
    (hpull : f.pull? = some ⟨some (.ok frame), log, g⟩) :
    Gives pull? (⟨f, none⟩ : TrackDecoder σ) frame.events ⟨g, none⟩ := by
  refine .cons (congrArg (Option.map answer) hpull) rfl ?_
  show Gives pull? ⟨g, frame.record?⟩ _ _
  cases frame.record? with
  | none => exact .nil _
  | some record => exact .cons rfl rfl (.nil _)

theorem gives_flatMap_events {frames : List Frame} (h : Gives Framer.pull? f frames g) :
    Gives pull? (⟨f, none⟩ : TrackDecoder σ) (frames.flatMap Frame.events) ⟨g, none⟩ := by
  induction h with
  | nil f => exact .nil _
  | @cons f g p frame frames hpull hitem _ ih =>
      obtain ⟨item, log, next⟩ := p
      cases hitem
      rw [List.flatMap_cons]
      exact (gives_events hpull).append ih

/-- A source that hands out some samples and comes to its end is decoded
to the events that the samples have in memory. -/
theorem gives_decodeCapture {source : σ} (h : HandsOut source samples stop)
    (hend : (Source.pull stop).item = none) :
    ∃ ended, Gives pull? (ofSource source) (decodeCapture samples) ended
      ∧ ended.source = (Source.pull stop).next ∧ pull? ended = some ⟨none, [], ended⟩ := by
  have hframes := Framer.gives_splitFrames (Quantizer.handsOut h) (Quantizer.answer_of_none hend)
  exact ⟨_, gives_flatMap_events hframes, Quantizer.source_next_pull stop, pull?_of_finished rfl⟩

/-! ## Over a finite source -/

section

variable {σ : Type} [FiniteSource σ UInt8] {source stop : σ}

theorem handsOut_decodeCapture (h : HandsOut source samples stop)
    (hend : (Source.pull stop).item = none) :
    ∃ ended, HandsOut (ofSource source) (decodeCapture samples) ended
      ∧ ended.source = (Source.pull stop).next ∧ Source.pull ended = ⟨none, [], ended⟩ := by
  obtain ⟨ended, hgives, hasked, hended⟩ := gives_decodeCapture h hend
  exact ⟨ended, hgives.handsOut pull?_eq, hasked, pull_of_pull? hended⟩

theorem yields_decodeCapture (h : HandsOut source samples stop)
    (hend : (Source.pull stop).item = none) :
    Yields (ofSource source) (decodeCapture samples) := by
  obtain ⟨ended, hout, -, hended⟩ := handsOut_decodeCapture h hend
  exact hout.yields (yields_nil (congrArg Pull.item hended) (congrArg Pull.next hended))

end

end TrackDecoder

end FluxMarks
