import FluxMarks.Source.Frames
import FluxMarks.Source.Periods
import FluxMarks.Source.Reader

/-!
# A source of events

The decoder for captures that are not at hand: it pulls samples through
the quantizer and the framer, decodes each frame as it comes, and keeps
the record of a frame back for the pull after. Only the frame being
decoded is ever held.
-/

namespace FluxMarks

/-- Frames of a source of samples, and the record that goes out next. -/
structure TrackDecoder (σ : Type) where
  frames : Framer (Quantizer σ)
  pending : Option Record

namespace TrackDecoder

variable {σ : Type}

def ofSource (source : σ) : TrackDecoder σ :=
  { frames := .ofSource (.ofSource source), pending := none }

/-- The answer that a decoder with nothing kept back makes of a frame. -/
def answer : Pull (Framer (Quantizer σ)) Frame → Pull (TrackDecoder σ) Event
  | ⟨none, log, frames⟩ => ⟨none, log, { frames, pending := none }⟩
  | ⟨some (.error e), log, frames⟩ => ⟨some (.error e), log, { frames, pending := none }⟩
  | ⟨some (.ok frame), log, frames⟩ =>
    ⟨some (.ok (.frame frame.diagnostic)), log ++ frame.findings,
      { frames, pending := frame.record? }⟩

/-- Hands out the record kept back, or else decodes one more frame, if
there is one. -/
def pull? [Source σ UInt8] (d : TrackDecoder σ) : Option (Pull (TrackDecoder σ) Event) :=
  match d.pending with
  | some record => some ⟨some (.ok (.record record)), [], { d with pending := none }⟩
  | none => d.frames.pull?.map answer

/-! ## Over a finite source -/

variable [FiniteSource σ UInt8]

theorem isSome_pull? (d : TrackDecoder σ) : d.pull?.isSome := by
  unfold pull?
  split
  · rfl
  · rw [Option.isSome_map]
    exact d.frames.isSome_pull?

def pull (d : TrackDecoder σ) : Pull (TrackDecoder σ) Event :=
  d.pull?.get d.isSome_pull?

theorem pull_of_pull? {d : TrackDecoder σ} {p : Pull (TrackDecoder σ) Event}
    (h : d.pull? = some p) : d.pull = p :=
  Option.get_of_eq_some _ h

theorem pull?_eq (d : TrackDecoder σ) : d.pull? = some d.pull :=
  (Option.some_get d.isSome_pull?).symm

/-- Two events for every frame to come, and the one kept back. -/
def remaining (d : TrackDecoder σ) : Nat :=
  2 * d.frames.remaining + d.pending.toList.length

instance : FiniteSource (TrackDecoder σ) Event where
  pull := pull
  remaining := remaining
  remaining_pull_lt := by
    rintro ⟨frames, _ | record⟩ event h
    · obtain ⟨⟨item, log, rest⟩, hp, hfewer⟩ := frames.exists_pull?
      have hpull : pull ⟨frames, none⟩ = answer ⟨item, log, rest⟩ :=
        pull_of_pull? (congrArg (Option.map answer) hp)
      rw [hpull] at h ⊢
      rcases item with _ | _ | frame
      · cases h
      · cases h
      · have less := hfewer frame rfl
        have : frame.record?.toList.length ≤ 1 := by cases frame.record? <;> simp
        simp only [remaining, answer, Option.toList_none, List.length_nil] at less ⊢
        omega
    · have hpull : pull ⟨frames, some record⟩
          = ⟨some (.ok (.record record)), [], ⟨frames, none⟩⟩ := rfl
      simp [hpull, remaining]

end TrackDecoder

/-- The decoder of a capture on a medium, read in chunks of the default
size. -/
def decodeMedium (medium : List ReadStep) : TrackDecoder SampleReader :=
  .ofSource (.ofMedium medium defaultChunk)

end FluxMarks
