import FluxMarks.Layout
import FluxMarks.Proofs.Code.RoundTrip

/-!
# Parses

A waveform can be taken apart in one way only. Reading takes a word wherever
one fits and never goes back, and since no pattern begins another there is
nothing to go back to: words whose patterns begin the same cells are the
first few of those that reading finds (`isPrefix_readAll`), and what it
finds is the only parse that cannot be carried on
(`MaximalParse.readAll_eq`). At no place does more than one word fit, so
the order in which the table lists them is of no account (`readAll_perm`).
-/

namespace FluxMarks

open CodeWord

namespace CodeWord

/-! ## Which word fits -/

theorem readFirst?_eq_none_iff {words : List CodeWord} {cells : List Cell} :
    readFirst? words cells = none ↔ ∀ word ∈ words, ¬word.pattern <+: cells := by
  simp only [readFirst?, List.find?_eq_none, List.isPrefixOf_iff_prefix]

/-- The word that is read is the one that fits: there is no other. -/
theorem readFirst?_eq_some_iff {cells : List Cell} {word : CodeWord} :
    readFirst? table cells = some word ↔ word ∈ table ∧ word.pattern <+: cells := by
  constructor
  · intro h
    obtain ⟨hmem, hsplit⟩ := readFirst?_eq_some h
    exact ⟨hmem, _, hsplit⟩
  · rintro ⟨hmem, rest, rfl⟩
    exact readFirst?_append hmem rest

theorem readFirst?_perm {words : List CodeWord} (h : words.Perm table) (cells : List Cell) :
    readFirst? words cells = readFirst? table cells := by
  cases hread : readFirst? words cells with
  | none =>
      rw [readFirst?_eq_none_iff] at hread
      exact (readFirst?_eq_none_iff.mpr fun word hmem => hread word (h.mem_iff.mpr hmem)).symm
  | some word =>
      obtain ⟨hmem, hsplit⟩ := readFirst?_eq_some hread
      exact (readFirst?_eq_some_iff.mpr ⟨h.mem_iff.mp hmem, _, hsplit⟩).symm

/-- Reading finds the same words in whatever order they are tried. -/
theorem readAll_perm {words : List CodeWord} (h : words.Perm table) (cells : List Cell) :
    readAll words cells = readAll table cells := by
  fun_induction readAll words cells with
  | case1 cells hnone =>
      rw [readFirst?_perm h] at hnone
      rw [readAll_of_eq_none hnone]
  | case2 cells word hword more rest heq ih =>
      rw [readFirst?_perm h] at hword
      rw [readAll_of_eq_some hword, ← ih, heq]

/-- Words that begin some cells are found there before any others. -/
theorem isPrefix_readAll {words : List CodeWord} (h : words ⊆ table) {cells : List Cell}
    (hbegin : words.flatMap pattern <+: cells) : words <+: (readAll table cells).1 := by
  obtain ⟨rest, rfl⟩ := hbegin
  rw [readAll_flatMap_pattern h]
  exact List.prefix_append words _

/-- The code in print: the drawing of a word, and the number that its bits
are the lowest ones of. -/
def printedTable : List (String × UInt8 × Nat) :=
  [("-|--", 0b10, 2), ("|---", 0b11, 2), ("|--|--", 0b000, 3), ("---|--", 0b010, 3),
   ("--|---", 0b011, 3), ("--|--|--", 0b0010, 4), ("----|---", 0b0011, 4)]

theorem table_eq_printedTable :
    table.map (fun word => (Cell.draw word.pattern, word.bits))
      = printedTable.map fun (drawing, value, width) => (drawing, lowBits value width) := by
  decide

end CodeWord

/-! ## Parses that cannot be carried on -/

/-- Cells taken apart into words of the code and a rest that no word
begins. -/
structure MaximalParse (cells : List Cell) (words : List CodeWord) (rest : List Cell) :
    Prop where
  subset : words ⊆ table
  cells_eq : words.flatMap pattern ++ rest = cells
  stuck : ∀ word ∈ table, ¬word.pattern <+: rest

theorem maximalParse_readAll (cells : List Cell) :
    MaximalParse cells (readAll table cells).1 (readAll table cells).2 := by
  obtain ⟨hsub, hcells, hnone⟩ := readAll_spec table cells
  exact ⟨hsub, hcells, readFirst?_eq_none_iff.mp hnone⟩

theorem MaximalParse.readAll_eq {cells rest : List Cell} {words : List CodeWord}
    (h : MaximalParse cells words rest) : readAll table cells = (words, rest) := by
  rw [← h.cells_eq, readAll_flatMap_pattern h.subset,
    readAll_of_eq_none (readFirst?_eq_none_iff.mpr h.stuck), List.append_nil]

/-- **Decoding is the only maximal parse.** After the lead-in, the cells of
a waveform are the patterns of words and a rest that no word begins, in one
way and no other. What is decoded are the bits of these words; decoding
stops where the rest begins, and the rest is the residue. Words that begin
the cells in any other way are the first few of them, and no order of the
table gives anything else. -/
theorem decode_maximal_parse (w : Waveform) (h : 2 ≤ w.length) :
    table.map (fun word => (Cell.draw word.pattern, word.bits))
        = printedTable.map (fun (drawing, value, width) => (drawing, lowBits value width))
      ∧ ∃ words rest, MaximalParse (w.cells.drop 2) words rest
        ∧ (∀ words' rest', MaximalParse (w.cells.drop 2) words' rest' →
          words' = words ∧ rest' = rest)
        ∧ w.decode = { bits := words.flatMap CodeWord.bits
                       stoppedAt := 2 + (words.flatMap pattern).length
                       residue := rest.length }
        ∧ (∀ others, others ⊆ table → others.flatMap pattern <+: w.cells.drop 2 →
          others <+: words)
        ∧ ∀ reordered, reordered.Perm table → w.decodeWith reordered = w.decode := by
  refine ⟨table_eq_printedTable, _, _, maximalParse_readAll _, ?_, ?_, ?_, ?_⟩
  · intro words' rest' hparse
    rw [hparse.readAll_eq]
    exact ⟨rfl, rfl⟩
  · exact decode_of_readAll_of_le h rfl
  · exact fun others hsub hbegin => isPrefix_readAll hsub hbegin
  · intro reordered hperm
    rw [Waveform.decode, Waveform.decodeWith, Waveform.decodeWith, readAll_perm hperm]

/-- A waveform that ends within the pattern of a word, so that only the word
before it is decoded, whichever way the table is read. -/
theorem decode_maximal_parse_cut_short :
    let w : Waveform := ⟨[.gap, .gap, .transition, .gap, .gap, .transition, .gap, .gap,
      .gap, .gap, .transition, .gap, .gap, .transition]⟩
    w.text = "--|--|----|--|" ∧ 2 ≤ w.length ∧ table.reverse.Perm table
      ∧ MaximalParse (w.cells.drop 2) [zeros]
        [.gap, .gap, .transition, .gap, .gap, .transition]
      ∧ w.decode = { bits := [false, false, false], stoppedAt := 8, residue := 6 }
      ∧ w.decodeWith table.reverse
        = { bits := [false, false, false], stoppedAt := 8, residue := 6 } := by
  intro w
  obtain ⟨-, words, rest, -, hunique, hdecode, -, horder⟩ :=
    decode_maximal_parse w (by decide)
  have hparse : MaximalParse (w.cells.drop 2) [zeros]
      [.gap, .gap, .transition, .gap, .gap, .transition] :=
    ⟨by decide, rfl, by decide⟩
  obtain ⟨rfl, rfl⟩ := hunique _ _ hparse
  have hperm := List.reverse_perm table
  exact ⟨by decide, by decide, hperm, hparse, hdecode, (horder _ hperm).trans hdecode⟩

end FluxMarks
