import FluxMarks.Proofs.Cells
import FluxMarks.Proofs.Command.Session
import FluxMarks.Proofs.Statistics
import FluxMarks.SelfCheck

/-!
# The self-checks never fail

Each of the three holds of every string of bytes: it says of one what is
known of all.
-/

namespace FluxMarks.SelfCheck

theorem countsEveryEvent_eq_true (samples : List UInt8) : countsEveryEvent samples = true :=
  beq_iff_eq.mpr (Statistics.frames_add_records (decodeCapture samples))

theorem readsLikeMemory_eq_true (samples : List UInt8) : readsLikeMemory samples = true := by
  obtain ⟨hevents, hfailure⟩ := Command.Reading.ofMedium_stretch samples
  rw [readsLikeMemory, hevents, hfailure, Option.isNone_none, Bool.true_and]
  exact beq_iff_eq.mpr rfl

theorem coversWaveform_eq_true (bytes : List UInt8) : coversWaveform bytes = true := by
  unfold coversWaveform
  split
  · rfl
  · split
    · rfl
    · next waveform _ => exact beq_iff_eq.mpr waveform.stoppedAt_add_residue

end FluxMarks.SelfCheck
