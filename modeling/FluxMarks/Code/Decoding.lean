import FluxMarks.Code.Word

/-!
# Reading bits off a waveform

Code words are read off the cells one after another, the first in the
table that fits, until none does. Nothing is ever refused: the bits found
so far are the result, and the cells that were left say how much of the
waveform is unexplained. This is how noise and the tail of a frame are
dropped.
-/

namespace FluxMarks

/-- Reads words off the cells until none fits, and gives the cells that
are left. -/
def CodeWord.readAll (words : List CodeWord) (cells : List Cell) :
    List CodeWord × List Cell :=
  match _fits : readFirst? words cells with
  | none => ([], cells)
  | some word =>
    let (more, rest) := readAll words (cells.drop word.pattern.length)
    (word :: more, rest)
  termination_by cells.length
  decreasing_by exact length_drop_readFirst? _fits

/-- What was read off a waveform. -/
structure Decoding where
  bits : List Bool
  /-- The cell at which reading stopped. -/
  stoppedAt : Nat
  /-- The number of cells from there on. -/
  residue : Nat
  deriving Repr, DecidableEq

/-- Decodes a waveform with the words of a table, past the lead-in. -/
def Waveform.decodeWith (words : List CodeWord) (w : Waveform) : Decoding :=
  let (found, rest) := CodeWord.readAll words (w.cells.drop leadIn)
  { bits := found.flatMap CodeWord.bits
    stoppedAt := w.length - rest.length
    residue := rest.length }

def Waveform.decode (w : Waveform) : Decoding :=
  w.decodeWith CodeWord.table

end FluxMarks
