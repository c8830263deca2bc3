import Mathlib.Algebra.BigOperators.Group.List.Basic
import Mathlib.Algebra.GroupWithZero.Nat
import FluxMarks.Event
import FluxMarks.Proofs.Code.RoundTrip
import FluxMarks.Proofs.Frame

/-!
# Where the cells go

Every clock cell of a capture is accounted for. A frame is drawn with as
many cells as its periods are long (`Waveform.length_ofPeriods`), and of
these the lead-in is skipped, two go into each bit, and the rest is residue
(`Waveform.length_eq_of_decode`), to which the closing transition always
belongs, since no code word ends in one (`Waveform.residue_pos`). Cutting at
sync patterns takes out the cells of the patterns and no others
(`cellCount_joinFrames`).
-/

namespace FluxMarks

/-- The number of cells that some periods are drawn with. -/
def cellCount (periods : List Nat) : Nat :=
  (periods.map fun period => max period 1).sum

theorem cellCount_cons (period : Nat) (periods : List Nat) :
    cellCount (period :: periods) = max period 1 + cellCount periods :=
  List.sum_cons

theorem cellCount_append (xs ys : List Nat) :
    cellCount (xs ++ ys) = cellCount xs + cellCount ys := by
  rw [cellCount, List.map_append, List.sum_append]
  rfl

/-! ## Drawing -/

namespace Waveform

theorem length_flatMap_periodCells (periods : List Nat) :
    (periods.flatMap periodCells).length = cellCount periods := by
  induction periods with
  | nil => rfl
  | cons period periods ih =>
      rw [List.flatMap_cons, List.length_append, ih, cellCount_cons, periodCells,
        List.length_append, List.length_replicate, List.length_singleton]
      omega

theorem length_ofPeriods_of_ne_nil {periods : List Nat} (h : periods ≠ []) :
    (ofPeriods periods).length = cellCount periods := by
  obtain ⟨period, rest, rfl⟩ := List.exists_cons_of_ne_nil h
  exact length_flatMap_periodCells (period :: rest)

/-- A frame without a period is drawn with a cell as well. -/
theorem length_ofPeriods (periods : List Nat) :
    (ofPeriods periods).length = max 1 (cellCount periods) := by
  cases periods with
  | nil => rfl
  | cons period rest =>
      rw [length_ofPeriods_of_ne_nil (List.cons_ne_nil _ _), cellCount_cons]
      omega

/-! ## Decoding -/

theorem stoppedAt_add_residue (w : Waveform) :
    w.decode.stoppedAt + w.decode.residue = w.length := by
  obtain ⟨-, hcells, -⟩ := CodeWord.readAll_spec CodeWord.table (w.cells.drop leadIn)
  have hlen := congrArg List.length hcells
  rw [List.length_append, List.length_drop] at hlen
  rw [decode_of_readAll rfl rfl]
  simp only [length]
  omega

theorem length_eq_of_decode {w : Waveform} (h : 2 ≤ w.length) :
    w.length = 2 + 2 * w.decode.bits.length + w.decode.residue := by
  obtain ⟨words, rest, hsub, -, hdecode⟩ := decode_spec h
  have htotal := w.stoppedAt_add_residue
  rw [hdecode] at htotal ⊢
  rw [← htotal, CodeWord.length_flatMap_pattern hsub, leadIn]

/-- Nothing can be read off a waveform that ends within the lead-in. -/
theorem decode_of_short {w : Waveform} (h : w.length < 2) :
    w.decode.bits = [] ∧ w.decode.residue = 0 := by
  have hnone : w.cells.drop leadIn = [] := List.drop_eq_nil_of_le (Nat.le_of_lt h)
  have hread : CodeWord.readAll CodeWord.table [] = ([], []) :=
    CodeWord.readAll_of_eq_none rfl
  rw [decode_of_readAll hread hnone]
  exact ⟨rfl, rfl⟩

/-- Every code word ends in a gap. -/
theorem getLast?_flatMap_pattern {words : List CodeWord} (h : words ⊆ CodeWord.table) :
    (words.flatMap CodeWord.pattern).getLast? ≠ some .transition := by
  have hend : ∀ word ∈ CodeWord.table, word.pattern.getLast? = some .gap := by decide
  induction words with
  | nil => exact nofun
  | cons word words ih =>
      obtain ⟨hword, hwords⟩ := List.cons_subset.mp h
      rw [List.flatMap_cons, List.getLast?_append, hend word hword]
      intro hlast
      rcases Option.or_eq_some_iff.mp hlast with hrest | ⟨-, hgap⟩
      · exact ih hwords hrest
      · cases hgap

/-- The transition that closes a waveform is never read. -/
theorem residue_pos {w : Waveform} (hclosed : w.isClosed = true) (h : 3 ≤ w.length) :
    1 ≤ w.decode.residue := by
  have hlong : leadIn < w.cells.length := h
  obtain ⟨words, rest, hsub, hcells, hdecode⟩ := decode_spec (Nat.le_of_lt hlong)
  rw [hdecode]
  refine Nat.pos_of_ne_zero fun hzero => getLast?_flatMap_pattern hsub ?_
  rw [List.length_eq_zero_iff.mp hzero, List.append_nil] at hcells
  rw [← hcells, List.getLast?_drop, if_neg (Nat.not_le.mpr hlong)]
  exact isClosed_iff.mp hclosed

end Waveform

/-! ## Framing -/

/-- A sync pattern between two frames takes eleven cells. -/
theorem cellCount_joinFrames {frames : List (List Nat)} (hne : frames ≠ []) :
    cellCount (joinFrames frames) = (frames.map cellCount).sum + 11 * (frames.length - 1) := by
  induction frames with
  | nil => exact absurd rfl hne
  | cons frame frames ih =>
      cases frames with
      | nil => rw [joinFrames_singleton, List.map_singleton, List.sum_singleton]; rfl
      | cons next rest =>
          have hsync : cellCount syncPattern = 11 := rfl
          have hsum : ((frame :: next :: rest).map cellCount).sum
              = cellCount frame + ((next :: rest).map cellCount).sum := List.sum_cons
          rw [joinFrames_cons frame (List.cons_ne_nil _ _), cellCount_append, cellCount_append,
            hsync, ih (List.cons_ne_nil _ _), hsum]
          simp only [List.length_cons]
          omega

/-- The drawings of the frames that hold a period have the cells of all
frames: the others have none of their own. -/
theorem sum_length_waveform (frames : List Frame) :
    ((frames.filter fun frame => !frame.periods.isEmpty).map fun frame => frame.waveform.length).sum
      = ((frames.map Frame.periods).map cellCount).sum := by
  induction frames with
  | nil => rfl
  | cons frame frames ih =>
      rw [List.map_cons, List.map_cons, List.sum_cons, ← ih]
      by_cases hempty : frame.periods = []
      · rw [List.filter_cons_of_neg (by simp [hempty]), hempty]
        exact (Nat.zero_add _).symm
      · rw [List.filter_cons_of_pos (by simp [hempty]), List.map_cons, List.sum_cons]
        exact congrArg (· + _) (Waveform.length_ofPeriods_of_ne_nil hempty)

/-- **Every cell is accounted for.** The waveform of a frame is as long as
its periods, each of which takes a cell at least, and one cell long if there
are none. Of two cells or more, two are the lead-in, two go into every bit,
and the others are residue; of three or more there always is some. Reading
any waveform stops where its residue begins. And the cells of a capture are
those of its frames, without the frames that hold nothing, and eleven for
every sync pattern. -/
theorem cells_accounted :
    (∀ frame : Frame,
      let d := frame.diagnostic
      d.waveformLength = max 1 (cellCount frame.periods)
      ∧ (2 ≤ d.waveformLength → d.waveformLength = 2 + 2 * d.bitsLength + d.residue)
      ∧ (d.waveformLength < 2 → d.bitsLength = 0 ∧ d.residue = 0)
      ∧ (3 ≤ d.waveformLength → 1 ≤ d.residue))
    ∧ (∀ w : Waveform,
      w.decode.stoppedAt + w.decode.residue = w.length ∧ w.decode.stoppedAt ≤ w.length)
    ∧ ∀ samples,
      let frames := captureFrames samples
      cellCount (samples.map quantize)
        = ((frames.filter fun frame => !frame.periods.isEmpty).map
            fun frame => frame.diagnostic.waveformLength).sum
          + 11 * (frames.length - 1) := by
  refine ⟨fun frame => ⟨?_, ?_, ?_, ?_⟩, fun w => ?_, fun samples => ?_⟩
  · exact Waveform.length_ofPeriods frame.periods
  · exact Waveform.length_eq_of_decode
  · intro hshort
    obtain ⟨hbits, hresidue⟩ := Waveform.decode_of_short hshort
    exact ⟨congrArg List.length hbits, hresidue⟩
  · exact Waveform.residue_pos (Waveform.isClosed_ofPeriods frame.periods)
  · have htotal := w.stoppedAt_add_residue
    exact ⟨htotal, htotal ▸ Nat.le_add_right ..⟩
  · have hcut := isCut_splitFrom (samples.map quantize)
    have hframes := map_periods_splitFrames (samples.map quantize)
    have hlen := congrArg List.length hframes
    rw [List.length_map] at hlen
    rw [← hcut.joined, cellCount_joinFrames hcut.ne_nil, ← hframes, List.length_map]
    exact congrArg (· + _) (sum_length_waveform _).symm

/-- A frame with a period of zero, at which reading stops, and one without
any; and a capture that has frames of both kinds. -/
theorem cells_accounted_zero_period :
    let noise : Frame := ⟨0, [3, 4, 0, 8]⟩
    let nothing : Frame := ⟨1, []⟩
    let samples : List UInt8 := [40, 53, 106, 40, 106, 40, 5]
    3 ≤ noise.diagnostic.waveformLength ∧ nothing.diagnostic.waveformLength < 2
      ∧ noise.diagnostic.bitsLength = 2
      ∧ noise.diagnostic.waveformLength = 2 + 2 * 2 + noise.diagnostic.residue
      ∧ 1 ≤ noise.diagnostic.residue
      ∧ nothing.diagnostic.bitsLength = 0 ∧ nothing.diagnostic.residue = 0
      ∧ (captureFrames samples).map Frame.periods = [[3, 4], [], [0]]
      ∧ cellCount (samples.map quantize) = 7 + 1 + 11 * 2 := by
  intro noise nothing samples
  obtain ⟨hframe, -, hcapture⟩ := cells_accounted
  obtain ⟨hlength, htwo, -, hthree⟩ := hframe noise
  obtain ⟨hshort, -, hone, -⟩ := hframe nothing
  have hlong : 3 ≤ noise.diagnostic.waveformLength := hlength ▸ by decide
  have hbits : noise.diagnostic.bitsLength = 2 := by decide +kernel
  have hnothing : nothing.diagnostic.waveformLength < 2 := hshort ▸ by decide
  have hframes : captureFrames samples = [⟨0, [3, 4]⟩, ⟨1, []⟩, ⟨2, [0]⟩] := by decide
  have hcells := hcapture samples
  rw [hframes] at hcells
  exact ⟨hlong, hnothing, hbits, hbits ▸ htwo (Nat.le_of_lt hlong), hthree hlong,
    (hone hnothing).1, (hone hnothing).2, by rw [hframes]; rfl, hcells⟩

end FluxMarks
