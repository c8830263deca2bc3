import FluxMarks.Proofs.Source.Events

/-!
# The samples of a medium

How a medium is read in chunks leaves no trace in what a reader hands out.
A chunk that was read is handed out whole before the next read
(`handsOut_chunk`), so a stretch longer than a chunk is handed out over
several reads (`handsOut_stretch`), and an interrupted read is one that did
not happen. The samples of a medium are therefore those of its stretches in
order (`handsOut_script`), and `yields_of_script` says so of the reader's
whole life and of the decoder that pulls on it.
-/

namespace FluxMarks

open Source

/-- The samples that a medium has in store for some reads. -/
def ReadStep.samples : ReadStep → List UInt8
  | .stretch samples => samples
  | _ => []

/-- A read that gets something, or is repeated. -/
def ReadStep.Delivers : ReadStep → Prop
  | .stretch samples => samples ≠ []
  | .interrupted => True
  | .failed _ => False

/-- The next read gets nothing, be there more on the medium or not. -/
def AtEnd (medium : List ReadStep) : Prop :=
  medium = [] ∨ ∃ later, medium = .stretch [] :: later

theorem readChunk_of_atEnd {medium : List ReadStep} (h : AtEnd medium) (limit : Nat) :
    ∃ later, readChunk limit medium = (.samples [], later) := by
  rcases h with rfl | ⟨later, rfl⟩
  · exact ⟨[], rfl⟩
  · exact ⟨later, by simp [readChunk, putBack]⟩

namespace SampleReader

variable {limit : Nat} {medium rest : List ReadStep}

theorem pull_of_empty :
    Source.pull (⟨medium, limit, [], false⟩ : SampleReader)
      = refill ⟨medium, limit, [], false⟩ := rfl

theorem handsOut_buffer (buffer : List UInt8) :
    HandsOut (⟨medium, limit, buffer, false⟩ : SampleReader) buffer
      ⟨medium, limit, [], false⟩ := by
  induction buffer with
  | nil => exact .nil _
  | cons sample buffer ih => exact .cons rfl ih

theorem pull_of_chunk {sample : UInt8} {buffer : List UInt8}
    (h : readChunk limit medium = (.samples (sample :: buffer), rest)) :
    Source.pull (⟨medium, limit, [], false⟩ : SampleReader)
      = ⟨some (.ok sample), [.chunkRead (buffer.length + 1)], ⟨rest, limit, buffer, false⟩⟩ := by
  rw [pull_of_empty, refill, h]

/-- What a read got is handed out before the next read. -/
theorem handsOut_chunk {chunk : List UInt8}
    (h : readChunk limit medium = (.samples chunk, rest)) (hne : chunk ≠ []) :
    HandsOut (⟨medium, limit, [], false⟩ : SampleReader) chunk ⟨rest, limit, [], false⟩ := by
  obtain ⟨sample, buffer, rfl⟩ := List.exists_cons_of_ne_nil hne
  have hpull := pull_of_chunk h
  exact .cons (congrArg Pull.item hpull) (congrArg Pull.next hpull ▸ handsOut_buffer buffer)

/-- A stretch takes as many reads as its length asks for. Each of them puts
back what did not fit, which is shorter. -/
theorem handsOut_stretch (hlimit : 0 < limit) (samples : List UInt8) (hne : samples ≠ []) :
    HandsOut (⟨.stretch samples :: medium, limit, [], false⟩ : SampleReader) samples
      ⟨medium, limit, [], false⟩ := by
  have hread : readChunk limit (.stretch samples :: medium)
      = (.samples (samples.take limit), putBack (samples.drop limit) medium) := rfl
  have htake : samples.take limit ≠ [] := by
    simp only [ne_eq, List.take_eq_nil_iff, not_or]
    exact ⟨by omega, hne⟩
  have hchunk := handsOut_chunk hread htake
  by_cases hdrop : samples.drop limit = []
  · have hall : samples.take limit = samples := by
      have := List.take_append_drop limit samples
      rwa [hdrop, List.append_nil] at this
    rwa [hdrop, putBack, if_pos rfl, hall] at hchunk
  · rw [putBack, if_neg hdrop] at hchunk
    have hmore := handsOut_stretch hlimit (samples.drop limit) hdrop
    have hwhole := hchunk.append hmore
    rwa [List.take_append_drop] at hwhole
  termination_by samples.length
  decreasing_by
    have : 0 < samples.length := List.length_pos_iff.mpr hne
    simp only [List.length_drop]
    omega

/-- A reader knows its medium by what the next read gives. -/
theorem pull_congr {other : List ReadStep}
    (h : readChunk limit other = readChunk limit medium) :
    Source.pull (⟨other, limit, [], false⟩ : SampleReader)
      = Source.pull (⟨medium, limit, [], false⟩ : SampleReader) := by
  simp only [pull_of_empty, refill, h]

/-- The stretches of a script are handed out one after another. The medium
that is left gives to the next read what the rest of the medium would;
interruptions may stand before that. -/
theorem handsOut_script (hlimit : 0 < limit) {script : List ReadStep}
    (hscript : ∀ step ∈ script, step.Delivers) :
    ∃ left, readChunk limit left = readChunk limit medium
      ∧ HandsOut (⟨script ++ medium, limit, [], false⟩ : SampleReader)
          (script.flatMap ReadStep.samples) ⟨left, limit, [], false⟩ := by
  induction script with
  | nil => exact ⟨medium, rfl, .nil _⟩
  | cons step script ih =>
      obtain ⟨left, hleft, hout⟩ := ih fun s hs => hscript s (List.mem_cons_of_mem _ hs)
      have hstep := hscript step (List.mem_cons_self ..)
      cases step with
      | stretch samples =>
          exact ⟨left, hleft, (handsOut_stretch hlimit samples hstep).append hout⟩
      | interrupted =>
          have hskip : Source.pull (⟨.interrupted :: (script ++ medium), limit, [], false⟩ :
              SampleReader) = Source.pull (⟨script ++ medium, limit, [], false⟩ : SampleReader) :=
            pull_congr rfl
          show ∃ left, _ ∧ HandsOut _ (script.flatMap ReadStep.samples) _
          cases hsamples : script.flatMap ReadStep.samples with
          | nil =>
              -- nothing more is handed out, so the interruption stays where it is
              rw [hsamples] at hout
              cases hout
              exact ⟨.interrupted :: (script ++ medium), hleft, .nil _⟩
          | cons sample samples =>
              rw [hsamples] at hout
              exact ⟨left, hleft, hout.congr hskip (List.cons_ne_nil _ _)⟩
      | failed reason => exact hstep.elim

theorem pull_of_nothing (h : readChunk limit medium = (.samples [], rest)) :
    Source.pull (⟨medium, limit, [], false⟩ : SampleReader)
      = ⟨none, [.chunkRead 0], ⟨rest, limit, [], true⟩⟩ := by
  rw [pull_of_empty, refill, h]

theorem yields_of_nothing (h : readChunk limit medium = (.samples [], rest)) :
    Yields (⟨medium, limit, [], false⟩ : SampleReader) [] := by
  have hpull := pull_of_nothing h
  refine .of_pull (congrArg Pull.item hpull) ?_
  rw [congrArg Pull.next hpull]
  exact yields_nil rfl rfl

end SampleReader

/-- **A medium does not show how it was read.** If reads deliver or are
repeated until one gets nothing, the samples that come out of the reader
are those of the stretches, each once and in order, and then nothing, even
if there is more on the medium; and the decoder yields the events that the
same samples have in memory. The size of the chunks has no part in it, and
none is smaller than one. -/
theorem yields_of_script (chunk : Nat) {script tail : List ReadStep}
    (hscript : ∀ step ∈ script, step.Delivers) (htail : AtEnd tail) :
    let samples := script.flatMap ReadStep.samples
    let reader := SampleReader.ofMedium (script ++ tail) chunk
    Yields reader samples
      ∧ Yields (TrackDecoder.ofSource reader) (decodeCapture samples)
      ∧ SampleReader.ofMedium (script ++ tail) 0 = SampleReader.ofMedium (script ++ tail) 1 := by
  intro samples reader
  have hlimit : 0 < max chunk 1 := Nat.lt_of_lt_of_le Nat.one_pos (Nat.le_max_right ..)
  obtain ⟨left, hleft, hout⟩ := SampleReader.handsOut_script hlimit hscript
  obtain ⟨later, hread⟩ := readChunk_of_atEnd htail (max chunk 1)
  rw [hread] at hleft
  have hend := congrArg Pull.item (SampleReader.pull_of_nothing hleft)
  exact ⟨hout.yields (SampleReader.yields_of_nothing hleft),
    TrackDecoder.yields_decodeCapture hout hend, rfl⟩

/-- Two stretches, the first longer than a chunk, with interruptions before,
between and after, and more behind the end. The sync pattern is read in
two chunks. -/
theorem yields_of_script_interrupted :
    let script : List ReadStep := [.interrupted, .stretch [66, 106, 40], .interrupted,
      .interrupted, .stretch [80], .interrupted]
    let tail : List ReadStep := [.stretch [], .stretch [106, 40]]
    let reader := SampleReader.ofMedium (script ++ tail) 2
    (∀ step ∈ script, step.Delivers) ∧ AtEnd tail
      ∧ (pulls 6 reader).map Pull.item
        = [some (.ok 66), some (.ok 106), some (.ok 40), some (.ok 80), none, none]
      ∧ (pulls 3 (TrackDecoder.ofSource reader)).map Pull.item
        = [some (.ok (.frame { index := 0, waveformLength := 5, bitsLength := 0, residue := 3 })),
          some (.ok (.frame { index := 1, waveformLength := 6, bitsLength := 0, residue := 4 })),
          none] := by
  intro script tail reader
  have hscript : ∀ step ∈ script, step.Delivers := by
    intro step hstep
    simp only [script, List.mem_cons, List.not_mem_nil, or_false] at hstep
    rcases hstep with rfl | rfl | rfl | rfl | rfl | rfl <;> simp [ReadStep.Delivers]
  have htail : AtEnd tail := Or.inr ⟨_, rfl⟩
  obtain ⟨hreader, hdecoder, -⟩ := yields_of_script 2 hscript htail
  have hevents : decodeCapture [66, 106, 40, 80]
      = [.frame { index := 0, waveformLength := 5, bitsLength := 0, residue := 3 },
        .frame { index := 1, waveformLength := 6, bitsLength := 0, residue := 4 }] := by
    decide +kernel
  refine ⟨hscript, htail, hreader 6, ?_⟩
  have hpulls := hdecoder 3
  rw [show script.flatMap ReadStep.samples = [66, 106, 40, 80] from rfl, hevents] at hpulls
  exact hpulls

end FluxMarks
