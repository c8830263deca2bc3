import FluxMarks.Code.Decoding
import FluxMarks.Code.Encoding

/-!
# Strings of code words

Reading and writing meet in the middle: both turn their side of the code
table into a list of words and put the other side of each word down. This
file states what each of them does to such a list.

- **reading** (`readAll_flatMap_pattern`, `readAll_spec`): patterns in a
  row are read back as the words they came from, and whatever is read is a
  list of words whose patterns, followed by the cells left over, are the
  cells again.
- **writing** (`encodeBits_flatMap_bits`, `encodeBits_spec`): the bit
  groups of words are written as their patterns, and any bit string is
  written as the words of its shortest completion by zeros.

Both rest on two facts about the table: no pattern and no group begins
another (`readFirst?_append`, `writeFirst?_append`), and the groups leave
no gap, so a string without a word at its start is one of five short tails
(`eq_of_writeFirst?_eq_none`).
-/

namespace FluxMarks

namespace CodeWord

/-! ## Words at the start -/

theorem readFirst?_eq_some {words : List CodeWord} {cells : List Cell}
    {word : CodeWord} (h : readFirst? words cells = some word) :
    word ∈ words ∧ word.pattern ++ cells.drop word.pattern.length = cells := by
  refine ⟨List.mem_of_find?_eq_some h, ?_⟩
  have hpre := List.isPrefixOf_iff_prefix.mp (begins_of_readFirst? h)
  exact List.prefix_iff_eq_append.mp hpre

theorem writeFirst?_eq_some {words : List CodeWord} {bits : List Bool}
    {word : CodeWord} (h : writeFirst? words bits = some word) :
    word ∈ words ∧ word.bits ++ bits.drop word.bits.length = bits := by
  refine ⟨List.mem_of_find?_eq_some h, ?_⟩
  have hpre := List.isPrefixOf_iff_prefix.mp (begins_of_writeFirst? h)
  exact List.prefix_iff_eq_append.mp hpre

theorem length_pattern {word : CodeWord} (h : word ∈ table) :
    word.pattern.length = 2 * word.bits.length := by
  revert word
  decide

theorem length_flatMap_pattern {words : List CodeWord} (h : words ⊆ table) :
    (words.flatMap pattern).length = 2 * (words.flatMap bits).length := by
  induction words with
  | nil => rfl
  | cons word words ih =>
      obtain ⟨hword, hwords⟩ := List.cons_subset.mp h
      simp only [List.flatMap_cons, List.length_append, length_pattern hword, ih hwords]
      omega

/-! ## Reading -/

theorem readAll_of_eq_none {words : List CodeWord} {cells : List Cell}
    (h : readFirst? words cells = none) : readAll words cells = ([], cells) := by
  rw [readAll]
  split
  · rfl
  · next hsome => rw [h] at hsome; cases hsome

theorem readAll_of_eq_some {words : List CodeWord} {cells : List Cell} {word : CodeWord}
    (h : readFirst? words cells = some word) :
    readAll words cells
      = (word :: (readAll words (cells.drop word.pattern.length)).1,
        (readAll words (cells.drop word.pattern.length)).2) := by
  rw [readAll]
  split
  · next hnone => rw [h] at hnone; cases hnone
  · next other hother =>
      obtain rfl := Option.some.inj (h.symm.trans hother)
      rfl

/-- What reading does to any cells: it finds words of the table, their
patterns and the cells left are all there was, and no word begins what is
left. -/
theorem readAll_spec (words : List CodeWord) (cells : List Cell) :
    (readAll words cells).1 ⊆ words
      ∧ (readAll words cells).1.flatMap pattern ++ (readAll words cells).2 = cells
      ∧ readFirst? words (readAll words cells).2 = none := by
  fun_induction readAll words cells with
  | case1 cells hnone => exact ⟨List.nil_subset _, rfl, hnone⟩
  | case2 cells word hword more rest heq ih =>
      obtain ⟨hsub, hcells, hrest⟩ := ih
      obtain ⟨hmem, hsplit⟩ := readFirst?_eq_some hword
      simp only [heq] at hsub hcells hrest
      refine ⟨List.cons_subset.mpr ⟨hmem, hsub⟩, ?_, hrest⟩
      rw [List.flatMap_cons, List.append_assoc, hcells, hsplit]

/-- Patterns in a row are read as the words they came from, and reading
goes on after them. -/
theorem readAll_flatMap_pattern {words : List CodeWord} (h : words ⊆ table)
    (cells : List Cell) :
    readAll table (words.flatMap pattern ++ cells)
      = (words ++ (readAll table cells).1, (readAll table cells).2) := by
  induction words with
  | nil => rfl
  | cons word words ih =>
      obtain ⟨hword, hwords⟩ := List.cons_subset.mp h
      have hfirst := readFirst?_append hword (words.flatMap pattern ++ cells)
      rw [List.flatMap_cons, List.append_assoc, readAll_of_eq_some hfirst, List.drop_left,
        ih hwords]
      rfl

theorem readAll_closing : readAll table [.transition] = ([], [.transition]) :=
  readAll_of_eq_none rfl

/-! ## Whole groups -/

/-- Bits that are the groups of words of the code, one after another. -/
def WholeGroups (bits : List Bool) : Prop :=
  ∃ words : List CodeWord, words ⊆ table ∧ words.flatMap CodeWord.bits = bits

/-- Groups can only be taken off the front: no other word begins there. -/
theorem WholeGroups.of_append {word : CodeWord} (hword : word ∈ table) {bits : List Bool}
    (h : WholeGroups (word.bits ++ bits)) : WholeGroups bits := by
  obtain ⟨words, hsub, heq⟩ := h
  cases words with
  | nil => exact absurd (List.append_eq_nil_iff.mp heq.symm).1 word.bits_ne_nil
  | cons first words =>
      obtain ⟨hfirst, hwords⟩ := List.cons_subset.mp hsub
      rw [List.flatMap_cons] at heq
      have hsame : first = word := by
        have := writeFirst?_append hfirst (words.flatMap CodeWord.bits)
        rw [heq, writeFirst?_append hword] at this
        exact (Option.some.inj this).symm
      subst hsame
      exact ⟨words, hwords, List.append_cancel_left heq⟩

theorem WholeGroups.eq_nil {bits : List Bool} (h : WholeGroups bits)
    (hnone : writeFirst? table bits = none) : bits = [] := by
  obtain ⟨words, hsub, rfl⟩ := h
  cases words with
  | nil => rfl
  | cons first words =>
      rw [List.flatMap_cons, writeFirst?_append (List.cons_subset.mp hsub).1] at hnone
      cases hnone

/-! ## Short tails -/

/-- The groups leave no gap: four bits always begin with one, and of the
shorter strings only five do not. -/
theorem eq_of_writeFirst?_eq_none {bits : List Bool} (hne : bits ≠ [])
    (hnone : writeFirst? table bits = none) :
    bits = [false] ∨ bits = [true] ∨ bits = [false, false] ∨ bits = [false, true]
      ∨ bits = [false, false, true] := by
  match bits with
  | [] => exact absurd rfl hne
  | [a] => cases a <;> simp
  | [a, b] => revert hnone; cases a <;> cases b <;> decide
  | [a, b, c] => revert hnone; cases a <;> cases b <;> cases c <;> decide
  | a :: b :: c :: d :: rest =>
      cases a <;> cases b <;> cases c <;> cases d <;> cases hnone

/-- A short tail is completed by one or two zeros to the group of a word,
and by no fewer to any string of groups. -/
theorem completing?_spec {bits : List Bool} (hne : bits ≠ [])
    (hnone : writeFirst? table bits = none) :
    ∃ word zeros, completing? table bits = some word ∧ word ∈ table
      ∧ word.bits = bits ++ List.replicate zeros false ∧ 0 < zeros ∧ zeros ≤ 2
      ∧ ∀ fewer < zeros,
        writeFirst? table (bits ++ List.replicate fewer false) = none := by
  rcases eq_of_writeFirst?_eq_none hne hnone with rfl | rfl | rfl | rfl | rfl
  · exact ⟨_, 2, rfl, by decide⟩
  all_goals exact ⟨_, 1, rfl, by decide⟩

end CodeWord

/-! ## Writing -/

open CodeWord

theorem encodeBits_nil : encodeBits [] = [] := by
  rw [encodeBits, if_pos rfl]

/-- The groups of words are written as their patterns, and writing goes on
after them. -/
theorem encodeBits_flatMap_bits {words : List CodeWord} (h : words ⊆ table)
    (bits : List Bool) :
    encodeBits (words.flatMap CodeWord.bits ++ bits)
      = words.flatMap pattern ++ encodeBits bits := by
  induction words with
  | nil => rfl
  | cons word words ih =>
      obtain ⟨hword, hwords⟩ := List.cons_subset.mp h
      have hfirst := writeFirst?_append hword (words.flatMap CodeWord.bits ++ bits)
      have hne : word.bits ++ (words.flatMap CodeWord.bits ++ bits) ≠ [] := by
        simp [word.bits_ne_nil]
      rw [List.flatMap_cons, List.append_assoc, encodeBits, if_neg hne]
      split
      · next other hother =>
          obtain rfl := Option.some.inj (hfirst.symm.trans hother)
          rw [List.drop_left, ih hwords, List.flatMap_cons, List.append_assoc]
      · next hnone => rw [hfirst] at hnone; cases hnone

theorem encodeBits_words {words : List CodeWord} (h : words ⊆ table) :
    encodeBits (words.flatMap CodeWord.bits) = words.flatMap pattern := by
  have hwrite := encodeBits_flatMap_bits h []
  rwa [encodeBits_nil, List.append_nil, List.append_nil] at hwrite

/-- What writing does to any bits: it completes them with zeros, with as
few as make them whole groups and never with more than two, and puts down
the patterns of the words whose groups these are. -/
theorem encodeBits_spec (bits : List Bool) :
    ∃ words zeros, words ⊆ table ∧ encodeBits bits = words.flatMap pattern
      ∧ words.flatMap CodeWord.bits = bits ++ List.replicate zeros false ∧ zeros ≤ 2
      ∧ ∀ fewer < zeros, ¬WholeGroups (bits ++ List.replicate fewer false) := by
  fun_induction encodeBits bits with
  | case1 => exact ⟨[], 0, by simp⟩
  | case2 bits hne word hword ih =>
      obtain ⟨words, zeros, hsub, hcells, hbits, hzeros, hfewer⟩ := ih
      obtain ⟨hmem, hsplit⟩ := writeFirst?_eq_some hword
      refine ⟨word :: words, zeros, List.cons_subset.mpr ⟨hmem, hsub⟩, ?_, ?_, hzeros, ?_⟩
      · rw [hcells, List.flatMap_cons]
      · rw [List.flatMap_cons, hbits, ← List.append_assoc, hsplit]
      · intro fewer hlt hwhole
        rw [← hsplit, List.append_assoc] at hwhole
        exact hfewer fewer hlt (hwhole.of_append hmem)
  | case3 bits hne hnone =>
      obtain ⟨word, zeros, hword, hmem, hbits, -, hzeros, hfewer⟩ :=
        completing?_spec hne hnone
      refine ⟨[word], zeros, List.cons_subset.mpr ⟨hmem, List.nil_subset _⟩, ?_, ?_, hzeros, ?_⟩
      · rw [hword, Option.getD_some, List.flatMap_singleton]
      · rw [List.flatMap_singleton, hbits]
      · -- fewer zeros give no word at all, let alone a string of them
        intro fewer hlt hwhole
        exact hne (List.append_eq_nil_iff.mp (hwhole.eq_nil (hfewer fewer hlt))).1

end FluxMarks
