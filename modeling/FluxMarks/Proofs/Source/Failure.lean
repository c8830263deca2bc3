import FluxMarks.Proofs.Source.Reader

/-!
# Sources that fail

Only a sync pattern ends a frame before the end of a capture does, so when
its samples stop coming a decoder has reported the complete frames, each
with its record, and nothing of the last one. More samples could not have
changed that: the events of the complete frames begin the events of every
longer capture (`completeEvents_prefix`).

A failure of the source is handed on when the decoder has nothing left to
say, and is the last thing that it asks the source for
(`TrackDecoder.gives_completeEvents`). `failure_spares_complete_frames`
says so of a medium that fails after any reads that deliver.
-/

namespace FluxMarks

open Source

/-! ## Complete frames -/

/-- The frames of a capture that are ended by a sync pattern. -/
def completeFrames (samples : List UInt8) : List Frame :=
  (captureFrames samples).dropLast

def completeEvents (samples : List UInt8) : List Event :=
  (completeFrames samples).flatMap Frame.events

section

variable {samples : List UInt8} {frames : List (List Nat)} {last : List Nat}

theorem captureFrames_of_split (h : splitFrom [] (samples.map quantize) = frames ++ [last]) :
    captureFrames samples = frames.mapIdx Frame.mk ++ [⟨frames.length, last⟩] := by
  rw [captureFrames, splitFrames, h, List.mapIdx_append, List.mapIdx_singleton, Nat.zero_add]

theorem completeFrames_of_split (h : splitFrom [] (samples.map quantize) = frames ++ [last]) :
    completeFrames samples = frames.mapIdx Frame.mk := by
  rw [completeFrames, captureFrames_of_split h, List.dropLast_concat]

end

theorem exists_captureFrames_eq (samples : List UInt8) :
    ∃ last, captureFrames samples = completeFrames samples ++ [last] := by
  obtain ⟨frames, last, hframes, -⟩ := splitFrom_append [] (samples.map quantize) []
  exact ⟨⟨frames.length, last⟩, by
    rw [captureFrames_of_split hframes, completeFrames_of_split hframes]⟩

/-- What the last frame has to say is all that is missing. -/
theorem exists_decodeCapture_eq_completeEvents (samples : List UInt8) :
    ∃ last, captureFrames samples = completeFrames samples ++ [last]
      ∧ decodeCapture samples = completeEvents samples ++ last.events := by
  obtain ⟨last, hlast⟩ := exists_captureFrames_eq samples
  refine ⟨last, hlast, ?_⟩
  rw [decodeCapture, hlast, List.flatMap_append, List.flatMap_singleton]
  rfl

theorem completeEvents_prefix (samples more : List UInt8) :
    completeEvents samples <+: decodeCapture (samples ++ more) := by
  obtain ⟨frames, last, hframes, hwhole⟩ :=
    splitFrom_append [] (samples.map quantize) (more.map quantize)
  rw [completeEvents, completeFrames_of_split hframes, decodeCapture, captureFrames, splitFrames,
    List.map_append, hwhole, List.mapIdx_append, List.flatMap_append]
  exact List.prefix_append _ _

/-! ## Decoding up to a failure -/

namespace TrackDecoder

section

variable {σ : Type} [Source σ UInt8] {source rest : σ} {samples : List UInt8}

/-- Whatever its source does after some samples, a decoder hands out the
events of the complete frames without it, and then has only the samples of
the last frame to ask for. -/
theorem gives_completeEvents (h : HandsOut source samples rest) :
    ∃ next index last, SyncFree last
      ∧ Gives pull? (ofSource source) (completeEvents samples) ⟨⟨next, [], index, false⟩, none⟩
      ∧ HandsOut next last (Quantizer.ofSource rest) := by
  obtain ⟨frames, last, next, hframes, hcomplete, hlast⟩ :=
    Framer.gives_complete (Quantizer.handsOut h)
  have hcut := isCut_splitFrom (samples.map quantize)
  refine ⟨next, frames.length, last, hcut.syncFree last (by simp [hframes]), ?_, hlast⟩
  rw [completeEvents, completeFrames_of_split hframes]
  exact gives_flatMap_events hcomplete

/-- A failure is answered once, after the events of the complete frames. -/
theorem gives_failed {error : CaptureError} (h : HandsOut source samples rest)
    (herr : (Source.pull rest).item = some (.error error)) :
    ∃ failing log ended, Gives pull? (ofSource source) (completeEvents samples) failing
      ∧ pull? failing = some ⟨some (.error error), log, ended⟩
      ∧ ended.source = (Source.pull rest).next ∧ pull? ended = some ⟨none, [], ended⟩ := by
  obtain ⟨next, index, last, hfree, hevents, hlast⟩ := gives_completeEvents h
  have hpull := Framer.pull?_failed (f := ⟨next, [], index, false⟩) rfl hlast
    (Quantizer.answer_of_error herr) hfree
  exact ⟨_, _, _, hevents, congrArg (Option.map answer) hpull, Quantizer.source_next_pull rest,
    pull?_of_finished rfl⟩

end

section

variable {σ : Type} [FiniteSource σ UInt8] {source rest : σ} {samples : List UInt8}
  {error : CaptureError}

theorem handsOut_failed (h : HandsOut source samples rest)
    (herr : (Source.pull rest).item = some (.error error)) :
    ∃ failing ended, HandsOut (ofSource source) (completeEvents samples) failing
      ∧ (Source.pull failing).item = some (.error error) ∧ (Source.pull failing).next = ended
      ∧ ended.source = (Source.pull rest).next ∧ Source.pull ended = ⟨none, [], ended⟩ := by
  obtain ⟨failing, log, ended, hgives, hfailing, hasked, hended⟩ := gives_failed h herr
  have hpull : Source.pull failing = _ := pull_of_pull? hfailing
  exact ⟨failing, ended, hgives.handsOut pull?_eq, congrArg Pull.item hpull,
    congrArg Pull.next hpull, hasked, pull_of_pull? hended⟩

theorem fails_of_error (h : HandsOut source samples rest)
    (herr : (Source.pull rest).item = some (.error error)) :
    Fails (ofSource source) (completeEvents samples) error := by
  obtain ⟨failing, ended, hout, hitem, hnext, -, hended⟩ := handsOut_failed h herr
  refine hout.answers (.of_pull hitem ?_)
  rw [hnext]
  exact answers_nil (congrArg Pull.item hended) (congrArg Pull.next hended)

end

end TrackDecoder

/-! ## Media -/

theorem SampleReader.pull_of_failed {limit : Nat} {medium rest : List ReadStep}
    {reason : String} (h : readChunk limit medium = (.failed reason, rest)) :
    Source.pull (⟨medium, limit, [], false⟩ : SampleReader)
      = ⟨some (.error (.io reason)), [.readFailed (.io reason)], ⟨rest, limit, [], true⟩⟩ := by
  rw [pull_of_empty, refill, h]

/-- **A failure costs only the frame it interrupts.** If reads deliver or are
repeated until one fails, the decoder yields the events of the samples so
far but for those of their last frame, then the failure, once, and from then
on nothing: it leaves the medium as the failure left it and is itself no
more changed by being pulled. The events that it did yield would have come
first however the capture had gone on. -/
theorem failure_spares_complete_frames {script : List ReadStep}
    (hscript : ∀ step ∈ script, step.Delivers) (reason : String) (later : List ReadStep) :
    let samples := script.flatMap ReadStep.samples
    let events := completeEvents samples
    let decoder := decodeMedium (script ++ .failed reason :: later)
    Fails decoder events (.io reason)
      ∧ (∃ last, captureFrames samples = completeFrames samples ++ [last]
        ∧ decodeCapture samples = events ++ last.events)
      ∧ (∀ n, events.length < n → (after n decoder).source.medium = later
        ∧ Source.pull (after n decoder) = ⟨none, [], after n decoder⟩)
      ∧ ∀ more, events <+: decodeCapture (samples ++ more) := by
  intro samples events decoder
  obtain ⟨left, hleft, hout⟩ :=
    @SampleReader.handsOut_script defaultChunk (.failed reason :: later) (by decide) script hscript
  have hfailed := SampleReader.pull_of_failed hleft
  have herr := congrArg Pull.item hfailed
  obtain ⟨failing, ended, hevents, -, hnext, hsource, hended⟩ :=
    TrackDecoder.handsOut_failed hout herr
  refine ⟨TrackDecoder.fails_of_error hout herr, exists_decodeCapture_eq_completeEvents samples,
    fun n hn => ?_, completeEvents_prefix samples⟩
  have hafter : after n decoder = ended :=
    hevents.after_of_fixed hnext (congrArg Pull.next hended) hn
  rw [hafter, hsource, hfailed]
  exact ⟨rfl, hended⟩

/-- A frame with a record, and then a failure between the two periods of the
sync pattern that would have completed the next frame. -/
theorem failure_spares_complete_frames_mid_sync :
    let script : List ReadStep := [.stretch [39, 53, 53], .interrupted,
      .stretch [53, 53, 39, 39, 106, 40, 80, 106]]
    let later : List ReadStep := [.stretch [40]]
    let decoder := decodeMedium (script ++ .failed "device gone" :: later)
    let frame : Event := .frame { index := 0, waveformLength := 25, bitsLength := 11, residue := 1 }
    let record : Event := .record
      { kind := .addressMark, length := 1, check := some 15761, payload := [0xfe] }
    (∀ step ∈ script, step.Delivers)
      ∧ (pulls 5 decoder).map Pull.item
        = [some (.ok frame), some (.ok record), some (.error (.io "device gone")), none, none]
      ∧ (after 5 decoder).source.medium = later
      ∧ [frame, record] <+: decodeCapture (script.flatMap ReadStep.samples ++ [40]) := by
  intro script later decoder frame record
  have hscript : ∀ step ∈ script, step.Delivers := by
    simp [script, ReadStep.Delivers]
  have hevents : completeEvents (script.flatMap ReadStep.samples) = [frame, record] := by
    decide +kernel
  obtain ⟨hfails, -, hafter, hprefix⟩ :=
    failure_spares_complete_frames hscript "device gone" later
  rw [hevents] at hfails hafter hprefix
  exact ⟨hscript, hfails 5, (hafter 5 (by decide)).1, hprefix [40]⟩

end FluxMarks
