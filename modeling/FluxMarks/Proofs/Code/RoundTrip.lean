import FluxMarks.Proofs.Code.Words

/-!
# Reading and writing undo each other

`decode_frameCells` says what is read off the cells written for some bits:
the same bits, up to the zeros that completed the last word, and nothing
but the closing transition is left. `decode_spec` goes the other way and
says what was read off any waveform at all: the patterns of words, whose
groups are the bits. The two headline theorems put writing before reading
and reading before writing.
-/

namespace FluxMarks

open CodeWord

/-! ## Writing before reading -/

/-- Decoding in terms of what reading finds after the lead-in. -/
theorem decode_of_readAll {w : Waveform} {cells rest : List Cell} {found : List CodeWord}
    (hread : readAll table cells = (found, rest)) (hcells : w.cells.drop leadIn = cells) :
    w.decode = { bits := found.flatMap CodeWord.bits
                 stoppedAt := w.length - rest.length
                 residue := rest.length } := by
  rw [Waveform.decode, Waveform.decodeWith, hcells, hread]

theorem decode_words {words : List CodeWord} (h : words ⊆ table) :
    Waveform.decode ⟨List.replicate leadIn .gap ++ words.flatMap pattern
        ++ [Cell.transition]⟩
      = { bits := words.flatMap CodeWord.bits
          stoppedAt := 2 + 2 * (words.flatMap CodeWord.bits).length
          residue := 1 } := by
  have hread := readAll_flatMap_pattern h [Cell.transition]
  rw [readAll_closing, List.append_nil] at hread
  refine (decode_of_readAll hread ?_).trans ?_
  · rfl
  simp only [Waveform.length, List.length_append, List.length_replicate,
    List.length_singleton, length_flatMap_pattern h, leadIn, Nat.add_sub_cancel]

/-- The cells written for some bits are read as these bits and the fewest
zeros that make them whole groups. -/
theorem decode_frameCells (bits : List Bool) :
    ∃ zeros ≤ 2,
      Waveform.decode ⟨frameCells bits⟩
        = { bits := bits ++ List.replicate zeros false
            stoppedAt := 2 + 2 * (bits.length + zeros)
            residue := 1 }
      ∧ (frameCells bits).length = 2 * (bits.length + zeros) + 3
      ∧ WholeGroups (bits ++ List.replicate zeros false)
      ∧ ∀ fewer < zeros, ¬WholeGroups (bits ++ List.replicate fewer false) := by
  obtain ⟨words, zeros, hsub, hcells, hbits, hzeros, hfewer⟩ := encodeBits_spec bits
  have hlen : (words.flatMap CodeWord.bits).length = bits.length + zeros := by
    rw [hbits, List.length_append, List.length_replicate]
  refine ⟨zeros, hzeros, ?_, ?_, ⟨words, hsub, hbits⟩, hfewer⟩
  · rw [frameCells, hcells, decode_words hsub, hbits, ← hbits, hlen]
  · rw [frameCells, hcells, List.length_append, List.length_append, List.length_replicate,
      List.length_singleton, length_flatMap_pattern hsub, hlen, leadIn]
    omega

theorem isClosed_frameCells (bits : List Bool) :
    Waveform.isClosed ⟨frameCells bits⟩ = true := by
  simp [Waveform.isClosed, frameCells]

theorem text_frameCells (bits : List Bool) :
    Waveform.text ⟨frameCells bits⟩ = "--" ++ Cell.draw (encodeBits bits) ++ "|" := by
  simp only [Waveform.text, Cell.draw, frameCells, List.map_append, String.ofList_append]
  rfl

/-- **Reading undoes writing.** The drawing of the cells written for any
bits is a waveform, and reading it gives the bits back, followed by the
least number of zeros that makes them a string of whole groups. There are
never more than two of them, and none if the bits are whole groups
already. -/
theorem decode_parse_encodeBits (bits : List Bool) :
    ∃ w zeros, Waveform.parse ("--" ++ Cell.draw (encodeBits bits) ++ "|") = .ok w
      ∧ w.decode = { bits := bits ++ List.replicate zeros false
                     stoppedAt := 2 + 2 * (bits.length + zeros)
                     residue := 1 }
      ∧ WholeGroups (bits ++ List.replicate zeros false)
      ∧ (∀ fewer < zeros, ¬WholeGroups (bits ++ List.replicate fewer false))
      ∧ zeros ≤ 2
      ∧ (zeros = 0 ↔ WholeGroups bits) := by
  obtain ⟨zeros, hzeros, hdecode, -, hwhole, hfewer⟩ := decode_frameCells bits
  refine ⟨⟨frameCells bits⟩, zeros, ?_, hdecode, hwhole, hfewer, hzeros, ?_, ?_⟩
  · rw [← text_frameCells]
    exact Waveform.parse_text (isClosed_frameCells bits)
  · rintro rfl
    simpa using hwhole
  · intro h
    refine Nat.eq_zero_of_not_pos fun hpos => hfewer 0 hpos ?_
    simpa using h

/-! ## Reading before writing -/

/-- Decoding a waveform that has a lead-in stops where the patterns that
follow it end. -/
theorem decode_of_readAll_of_le {w : Waveform} {words : List CodeWord} {rest : List Cell}
    (h : leadIn ≤ w.length) (hread : readAll table (w.cells.drop leadIn) = (words, rest)) :
    w.decode = { bits := words.flatMap CodeWord.bits
                 stoppedAt := leadIn + (words.flatMap pattern).length
                 residue := rest.length } := by
  obtain ⟨-, hcells, -⟩ := readAll_spec table (w.cells.drop leadIn)
  rw [hread] at hcells
  have hlen := congrArg List.length hcells
  simp only [List.length_append, List.length_drop] at hlen
  rw [decode_of_readAll hread rfl]
  simp only [Waveform.length, Decoding.mk.injEq, true_and, and_true] at h ⊢
  omega

/-- What reading makes of any waveform that has a lead-in: after it come
the patterns of words, then cells that no word begins. -/
theorem decode_spec {w : Waveform} (h : leadIn ≤ w.length) :
    ∃ words rest, words ⊆ table
      ∧ w.cells.drop leadIn = words.flatMap pattern ++ rest
      ∧ w.decode = { bits := words.flatMap CodeWord.bits
                     stoppedAt := leadIn + (words.flatMap pattern).length
                     residue := rest.length } := by
  obtain ⟨hsub, hcells, -⟩ := readAll_spec table (w.cells.drop leadIn)
  exact ⟨_, _, hsub, hcells.symm, decode_of_readAll_of_le h rfl⟩

/-- A waveform that is explained to its end: it starts with a lead-in of
gaps, ends in a transition, and reading leaves nothing but that
transition. -/
structure Waveform.Explained (w : Waveform) : Prop where
  leadIn : w.cells.take 2 = [.gap, .gap]
  closed : w.isClosed = true
  residue : w.decode.residue = 1

theorem Waveform.Explained.cells_eq {w : Waveform} (hw : w.Explained) :
    w.cells = frameCells w.decode.bits := by
  have hlead := hw.leadIn
  have hlen : FluxMarks.leadIn ≤ w.length := by
    have := congrArg List.length hlead
    simp only [List.length_take, List.length_cons, List.length_nil] at this
    simp only [FluxMarks.leadIn, Waveform.length]
    omega
  obtain ⟨words, rest, hsub, hcells, hdecode⟩ := decode_spec hlen
  have hwhole : w.cells = [.gap, .gap] ++ words.flatMap pattern ++ rest := by
    rw [List.append_assoc, ← hcells, ← hlead]
    exact (List.take_append_drop 2 w.cells).symm
  have hone : rest.length = 1 := by
    have := hw.residue
    rwa [hdecode] at this
  obtain ⟨last, rfl⟩ := List.length_eq_one_iff.mp hone
  have hlast : last = .transition := by
    have hend := isClosed_iff.mp hw.closed
    rw [hwhole, List.getLast?_concat] at hend
    exact Option.some.inj hend
  rw [hdecode, hwhole, hlast, frameCells]
  rw [encodeBits_words hsub]
  rfl

/-- **Writing undoes reading.** Of any waveform with a lead-in, noise
included, the bits read off it are written as exactly the cells they were
read from, with no zero added. So a waveform that is explained to its end
is the frame of its bits, and there is only one for the same bits. -/
theorem encodeBits_bits_decode (w : Waveform) (h : 2 ≤ w.length) :
    encodeBits w.decode.bits = (w.cells.take w.decode.stoppedAt).drop 2
      ∧ (encodeBits w.decode.bits).length = 2 * w.decode.bits.length
      ∧ (w.Explained →
        w.text = "--" ++ Cell.draw (encodeBits w.decode.bits) ++ "|"
        ∧ ∀ v : Waveform, v.Explained → v.decode.bits = w.decode.bits → v = w) := by
  obtain ⟨words, rest, hsub, hcells, hdecode⟩ := decode_spec h
  refine ⟨?_, ?_, fun hw => ⟨?_, fun v hv hbits => ?_⟩⟩
  · rw [hdecode, encodeBits_words hsub]
    show _ = (w.cells.take (leadIn + (words.flatMap pattern).length)).drop leadIn
    rw [← List.take_drop, hcells, List.take_left]
  · rw [hdecode, encodeBits_words hsub, length_flatMap_pattern hsub]
  · rw [← text_frameCells, ← hw.cells_eq]
  · have hcells_eq : v.cells = w.cells := by rw [hv.cells_eq, hw.cells_eq, hbits]
    cases v
    cases w
    exact congrArg Waveform.mk hcells_eq

/-- A waveform with noise at its end, where reading stops at the sixth
cell, and one that is explained to its end. -/
theorem encodeBits_bits_decode_noise_and_frame :
    let noise : Waveform := ⟨[.gap, .gap, .transition, .gap, .gap, .gap, .transition,
      .transition, .gap, .gap, .transition]⟩
    let frame : Waveform := ⟨[.gap, .gap, .transition, .gap, .gap, .gap, .transition]⟩
    2 ≤ noise.length ∧ 2 ≤ frame.length ∧ frame.Explained
      ∧ noise.decode = { bits := [true, true], stoppedAt := 6, residue := 5 }
      ∧ encodeBits [true, true] = (noise.cells.take 6).drop 2
      ∧ frame.text = "--" ++ Cell.draw (encodeBits [true, true]) ++ "|" := by
  intro noise frame
  have hnoise : noise.decode = { bits := [true, true], stoppedAt := 6, residue := 5 } := by
    decide +kernel
  have hframe : frame.decode = { bits := [true, true], stoppedAt := 6, residue := 1 } := by
    decide +kernel
  have hexplained : frame.Explained :=
    ⟨rfl, rfl, by rw [hframe]⟩
  have hn := (encodeBits_bits_decode noise (by decide)).1
  have hf := ((encodeBits_bits_decode frame (by decide)).2.2 hexplained).1
  rw [hnoise] at hn
  rw [hframe] at hf
  exact ⟨by decide, by decide, hexplained, hnoise, hn, hf⟩

end FluxMarks
