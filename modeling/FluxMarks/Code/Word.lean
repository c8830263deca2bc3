import FluxMarks.Waveform

/-!
# The code table

RLL(2,7) writes two, three or four data bits as twice as many clock
cells, so that between two transitions there are never fewer than two
and never more than seven gaps. The seven code words below are the whole
code: their bit groups are the leaves of a complete binary tree, and no
pattern is the beginning of another.
-/

namespace FluxMarks

/-- A group of data bits and the cells that stand for it. Neither side is
empty, which is what makes reading and writing come to an end. -/
structure CodeWord where
  pattern : List Cell
  bits : List Bool
  pattern_ne_nil : pattern ≠ [] := by decide
  bits_ne_nil : bits ≠ [] := by decide
  deriving Repr, DecidableEq

/-- Cells at the start of a frame that still belong to the sync
pattern. -/
def leadIn : Nat := 2

namespace CodeWord

open Cell in
/-- The code, in the order in which words are tried. -/
def table : List CodeWord :=
  [⟨[gap, transition, gap, gap], [true, false], by decide, by decide⟩,
   ⟨[transition, gap, gap, gap], [true, true], by decide, by decide⟩,
   ⟨[transition, gap, gap, transition, gap, gap], [false, false, false],
     by decide, by decide⟩,
   ⟨[gap, gap, gap, transition, gap, gap], [false, true, false],
     by decide, by decide⟩,
   ⟨[gap, gap, transition, gap, gap, gap], [false, true, true],
     by decide, by decide⟩,
   ⟨[gap, gap, transition, gap, gap, transition, gap, gap],
     [false, false, true, false], by decide, by decide⟩,
   ⟨[gap, gap, gap, gap, transition, gap, gap, gap],
     [false, false, true, true], by decide, by decide⟩]

def zeros : CodeWord :=
  ⟨[.transition, .gap, .gap, .transition, .gap, .gap], [false, false, false],
    by decide, by decide⟩

def shortestPattern : Nat := 4

/-- The first word of a table whose pattern begins some cells. -/
def readFirst? (words : List CodeWord) (cells : List Cell) : Option CodeWord :=
  words.find? fun word => word.pattern.isPrefixOf cells

/-- The first word of a table whose bit group begins some bits. -/
def writeFirst? (words : List CodeWord) (bits : List Bool) : Option CodeWord :=
  words.find? fun word => word.bits.isPrefixOf bits

/-- No pattern of the table begins another, so a word that is there is the
word that is read. -/
theorem readFirst?_append {word : CodeWord} (h : word ∈ table) (cells : List Cell) :
    readFirst? table (word.pattern ++ cells) = some word := by
  simp only [table, List.mem_cons, List.not_mem_nil, or_false] at h
  rcases h with rfl | rfl | rfl | rfl | rfl | rfl | rfl <;> rfl

/-- No bit group of the table begins another, so a word whose bits are
there is the word that is written. -/
theorem writeFirst?_append {word : CodeWord} (h : word ∈ table) (bits : List Bool) :
    writeFirst? table (word.bits ++ bits) = some word := by
  simp only [table, List.mem_cons, List.not_mem_nil, or_false] at h
  rcases h with rfl | rfl | rfl | rfl | rfl | rfl | rfl <;> rfl

theorem begins_of_readFirst? {words : List CodeWord} {cells : List Cell}
    {word : CodeWord} (h : readFirst? words cells = some word) :
    word.pattern.isPrefixOf cells = true := by
  unfold readFirst? at h
  have fits := List.find?_some h
  exact fits

theorem begins_of_writeFirst? {words : List CodeWord} {bits : List Bool}
    {word : CodeWord} (h : writeFirst? words bits = some word) :
    word.bits.isPrefixOf bits = true := by
  unfold writeFirst? at h
  have fits := List.find?_some h
  exact fits

theorem length_drop_lt {α : Type} [BEq α] {start whole : List α}
    (hne : start ≠ []) (h : start.isPrefixOf whole = true) :
    (whole.drop start.length).length < whole.length := by
  cases start with
  | nil => exact absurd rfl hne
  | cons a as =>
    cases whole with
    | nil => simp at h
    | cons b bs => simp only [List.length_cons, List.length_drop]; omega

theorem length_drop_readFirst? {words : List CodeWord} {cells : List Cell}
    {word : CodeWord} (h : readFirst? words cells = some word) :
    (cells.drop word.pattern.length).length < cells.length :=
  length_drop_lt word.pattern_ne_nil (begins_of_readFirst? h)

theorem length_drop_writeFirst? {words : List CodeWord} {bits : List Bool}
    {word : CodeWord} (h : writeFirst? words bits = some word) :
    (bits.drop word.bits.length).length < bits.length :=
  length_drop_lt word.bits_ne_nil (begins_of_writeFirst? h)

end CodeWord

end FluxMarks
