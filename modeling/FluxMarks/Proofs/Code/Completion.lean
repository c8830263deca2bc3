import FluxMarks.Proofs.Code.Words

/-!
# Completing the last word

Writing never finds itself without a word to write. Wherever it has got to,
four bits begin with the group of a word, and what does not is a tail of one
to three bits that begins such a group (`exists_writeFirst?`,
`exists_group_of_tail`). So the tail fits into the place it is filled up in,
zeros complete it to a word, and there is nothing that the word written for
want of another would be needed for: an encoder that gave up in such a case
would never do so (`encodeStrictly?_eq`).
-/

namespace FluxMarks

open CodeWord

namespace CodeWord

/-! ## What is left -/

/-- What is still to be written when writing some bits comes round to the
next word: the bits, less the groups of the words that were put down. -/
inductive Remains (bits : List Bool) : List Bool → Prop
  | all : Remains bits bits
  | next {rest : List Bool} {word : CodeWord} (h : Remains bits rest)
      (hword : writeFirst? table rest = some word) :
      Remains bits (rest.drop word.bits.length)

/-- The words put down so far are a first part of what is written in the
end. -/
theorem Remains.exists_words {bits rest : List Bool} (h : Remains bits rest) :
    ∃ words, words ⊆ table ∧ words.flatMap CodeWord.bits ++ rest = bits
      ∧ encodeBits bits = words.flatMap pattern ++ encodeBits rest := by
  induction h with
  | all => exact ⟨[], List.nil_subset _, rfl, rfl⟩
  | @next rest word _ hword ih =>
      obtain ⟨words, hsub, hbits, -⟩ := ih
      obtain ⟨hmem, hsplit⟩ := writeFirst?_eq_some hword
      have hsub' : words ++ [word] ⊆ table :=
        List.append_subset.mpr ⟨hsub, List.cons_subset.mpr ⟨hmem, List.nil_subset _⟩⟩
      have hbits' : (words ++ [word]).flatMap CodeWord.bits ++ rest.drop word.bits.length
          = bits := by
        rw [List.flatMap_append, List.flatMap_singleton, List.append_assoc, hsplit, hbits]
      refine ⟨words ++ [word], hsub', hbits', ?_⟩
      rw [← encodeBits_flatMap_bits hsub', hbits']

/-- Writing comes past the groups of words, whatever follows them. -/
theorem Remains.of_append {bits rest : List Bool} {words : List CodeWord} (hsub : words ⊆ table)
    (h : Remains bits (words.flatMap CodeWord.bits ++ rest)) : Remains bits rest := by
  induction words with
  | nil => exact h
  | cons word words ih =>
      obtain ⟨hword, hwords⟩ := List.cons_subset.mp hsub
      rw [List.flatMap_cons, List.append_assoc] at h
      have hnext := Remains.next h (writeFirst?_append hword _)
      rw [List.drop_left] at hnext
      exact ih hwords hnext

/-! ## The tail -/

theorem length_of_writeFirst?_eq_none {bits : List Bool} (hne : bits ≠ [])
    (hnone : writeFirst? table bits = none) : 1 ≤ bits.length ∧ bits.length ≤ 3 := by
  rcases eq_of_writeFirst?_eq_none hne hnone with rfl | rfl | rfl | rfl | rfl <;> decide

theorem encodeBits_of_eq_none {bits : List Bool} (hne : bits ≠ [])
    (hnone : writeFirst? table bits = none) :
    encodeBits bits = ((completing? table bits).getD zeros).pattern := by
  rw [encodeBits, if_neg hne]
  split
  · next hsome => rw [hnone] at hsome; cases hsome
  · rfl

/-- As many bits as the longest group has begin with the group of a word. -/
theorem exists_writeFirst? {bits : List Bool} (h : longestGroup ≤ bits.length) :
    ∃ word ∈ table, writeFirst? table bits = some word := by
  cases hfirst : writeFirst? table bits with
  | some word => exact ⟨word, (writeFirst?_eq_some hfirst).1, rfl⟩
  | none =>
      have hne : bits ≠ [] := by
        rintro rfl
        cases h
      have hshort := (length_of_writeFirst?_eq_none hne hfirst).2
      exact absurd (Nat.le_trans h hshort) (by decide)

/-- The word that completes a tail has its group begin with it and go on. -/
theorem exists_group_of_tail {bits : List Bool} (hne : bits ≠ [])
    (hnone : writeFirst? table bits = none) :
    ∃ word ∈ table, completing? table bits = some word
      ∧ bits <+: word.bits ∧ bits ≠ word.bits := by
  obtain ⟨word, zeros, hword, hmem, hbits, hpos, -⟩ := completing?_spec hne hnone
  refine ⟨word, hmem, hword, ⟨_, hbits.symm⟩, fun heq => ?_⟩
  have hlen := congrArg List.length hbits
  rw [← heq, List.length_append, List.length_replicate] at hlen
  omega

end CodeWord

/-! ## An encoder that can give up -/

/-- Fills some bits up to the longest group, if they are not longer than
that. -/
def slots? (bits : List Bool) : Option (List Bool) :=
  if bits.length ≤ longestGroup then some (zeroPadded bits) else none

/-- Writes bits as the cells of code words, but gives up where a tail has no
room or where no zeros complete it. -/
def encodeStrictly? (bits : List Bool) : Option (List Cell) :=
  if bits = [] then some []
  else
    match _fits : writeFirst? table bits with
    | some word => (encodeStrictly? (bits.drop word.bits.length)).map (word.pattern ++ ·)
    | none =>
      (slots? bits).bind fun slots =>
        ((List.range' bits.length (slots.length + 1 - bits.length)).findSome?
          fun size => writeFirst? table (slots.take size)).map pattern
  termination_by bits.length
  decreasing_by exact length_drop_writeFirst? _fits

theorem length_zeroPadded {bits : List Bool} (h : bits.length ≤ longestGroup) :
    (zeroPadded bits).length = longestGroup := by
  rw [zeroPadded, List.length_append, List.length_replicate]
  omega

theorem encodeStrictly?_eq (bits : List Bool) : encodeStrictly? bits = some (encodeBits bits) := by
  fun_induction encodeStrictly? bits with
  | case1 => rw [encodeBits_nil]
  | case2 bits hne word hword ih =>
      obtain ⟨hmem, hsplit⟩ := writeFirst?_eq_some hword
      have hwrite := encodeBits_flatMap_bits
        (List.cons_subset.mpr ⟨hmem, List.nil_subset _⟩) (bits.drop word.bits.length)
      rw [List.flatMap_singleton, List.flatMap_singleton, hsplit] at hwrite
      rw [ih, Option.map_some, hwrite]
  | case3 bits hne hnone =>
      have hroom : bits.length ≤ longestGroup :=
        Nat.le_succ_of_le (length_of_writeFirst?_eq_none hne hnone).2
      obtain ⟨word, -, hword, -⟩ := exists_group_of_tail hne hnone
      rw [slots?, if_pos hroom, Option.bind_some, length_zeroPadded hroom]
      show (completing? table bits).map pattern = _
      rw [encodeBits_of_eq_none hne hnone, hword]
      rfl

/-- **Writing never lacks a word.** Wherever writing some bits has got to,
four bits or more begin with the group of a word. Where no group begins what
is left, one to three bits are, which are a proper beginning of the group of
some word. They have room in the four places that they are filled up in, the
search for the zeros to fill up with comes to a word that begins with them,
and that word is written, whatever there is to be written for want of one.
So an encoder that gave up without a room or without a word writes the same,
always. -/
theorem writing_never_stuck (bits : List Bool) :
    encodeStrictly? bits = some (encodeBits bits)
    ∧ ∀ rest, Remains bits rest →
      (∃ words, words ⊆ table ∧ words.flatMap CodeWord.bits ++ rest = bits
        ∧ encodeBits bits = words.flatMap pattern ++ encodeBits rest)
      ∧ (4 ≤ rest.length → ∃ word ∈ table, writeFirst? table rest = some word)
      ∧ (rest ≠ [] → writeFirst? table rest = none →
        1 ≤ rest.length ∧ rest.length ≤ 3
        ∧ (∃ word ∈ table, rest <+: word.bits ∧ rest ≠ word.bits)
        ∧ (∃ slots, slots? rest = some slots ∧ slots.length = 4 ∧ rest <+: slots)
        ∧ ∃ word ∈ table, completing? table rest = some word ∧ rest <+: word.bits
          ∧ encodeBits rest = word.pattern
          ∧ ∀ other, (completing? table rest).getD other = word) := by
  refine ⟨encodeStrictly?_eq bits, fun rest hrest => ⟨hrest.exists_words, exists_writeFirst?, ?_⟩⟩
  intro hne hnone
  obtain ⟨hpos, hshort⟩ := length_of_writeFirst?_eq_none hne hnone
  obtain ⟨word, hmem, hword, hbegins, hproper⟩ := exists_group_of_tail hne hnone
  have hroom : rest.length ≤ longestGroup := Nat.le_succ_of_le hshort
  refine ⟨hpos, hshort, ⟨word, hmem, hbegins, hproper⟩, ?_, word, hmem, hword, hbegins, ?_, ?_⟩
  · exact ⟨zeroPadded rest, if_pos hroom, length_zeroPadded hroom, List.prefix_append ..⟩
  · rw [encodeBits_of_eq_none hne hnone, hword]
    rfl
  · intro other
    rw [hword]
    rfl

/-- Seven bits, of which three are left after two words. -/
theorem writing_never_stuck_after_two_words :
    let bits := [true, true, true, false, false, false, true]
    let tail := [false, false, true]
    Remains bits bits ∧ Remains bits tail ∧ tail ≠ [] ∧ writeFirst? table tail = none
      ∧ encodeStrictly? bits = some (encodeBits bits)
      ∧ 4 ≤ bits.length ∧ (∃ word ∈ table, writeFirst? table bits = some word)
      ∧ slots? tail = some [false, false, true, false]
      ∧ ∃ word ∈ table, completing? table tail = some word ∧ tail <+: word.bits
        ∧ encodeBits tail = word.pattern := by
  intro bits tail
  obtain ⟨hstrict, hplaces⟩ := writing_never_stuck bits
  have htail : Remains bits tail :=
    @Remains.of_append bits tail (table.take 2).reverse (by decide) .all
  obtain ⟨-, hlong, -⟩ := hplaces bits .all
  obtain ⟨-, -, hshort⟩ := hplaces tail htail
  obtain ⟨-, -, -, -, word, hmem, hword, hbegins, hcells, -⟩ := hshort (by decide) rfl
  exact ⟨.all, htail, by decide, rfl, hstrict, by decide, hlong (by decide), rfl, word, hmem, hword,
    hbegins, hcells⟩

end FluxMarks
