import FluxMarks.Code.Word

/-!
# Writing bits as cells

Every bit string begins with exactly one code word, unless it is too
short to. Such a tail of one to three bits is filled up with as few zeros
as complete a word, so the cells may carry up to two bits more than were
asked for.
-/

namespace FluxMarks

def longestGroup : Nat := 4

/-- Zeros after some bits, up to the longest group. -/
def zeroPadded (bits : List Bool) : List Bool :=
  bits ++ List.replicate (longestGroup - bits.length) false

/-- The word for bits that do not contain one: the first that begins them
after as few zeros as possible. -/
def CodeWord.completing? (words : List CodeWord) (bits : List Bool) :
    Option CodeWord :=
  (List.range' bits.length (longestGroup + 1 - bits.length)).findSome?
    fun size => writeFirst? words ((zeroPadded bits).take size)

/-- Writes bits as the cells of code words. -/
def encodeBits (bits : List Bool) : List Cell :=
  if bits = [] then []
  else
    match _fits : CodeWord.writeFirst? CodeWord.table bits with
    | some word => word.pattern ++ encodeBits (bits.drop word.bits.length)
    | none =>
      ((CodeWord.completing? CodeWord.table bits).getD CodeWord.zeros).pattern
  termination_by bits.length
  decreasing_by exact CodeWord.length_drop_writeFirst? _fits

/-- The cells of a frame that carries some bits, as they follow a sync
pattern: the lead-in, the cells of the code words, and the transition that
ends the last period. -/
def frameCells (bits : List Bool) : List Cell :=
  List.replicate leadIn .gap ++ encodeBits bits ++ [.transition]

end FluxMarks
