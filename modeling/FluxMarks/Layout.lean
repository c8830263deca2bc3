/-!
# The layout of a record

On the medium a record is one leading bit, the remainder of the mark that
the sync pattern swallowed, and then its bytes, most significant bit
first. `recordBits` lays bytes out that way and `assemble` takes them up
again: it drops the leading bit and an incomplete last group.
-/

namespace FluxMarks

/-! ## Bytes and bits -/

/-- The low `width` bits of a byte, most significant first. -/
def lowBits (value : UInt8) : Nat → List Bool
  | 0 => []
  | width + 1 => value.toNat.testBit width :: lowBits value width

def byteBits (value : UInt8) : List Bool :=
  lowBits value 8

/-- The byte that some bits spell, most significant first. Of more than
eight bits the last eight count. -/
def byteOfBits (bits : List Bool) : UInt8 :=
  bits.foldl (fun value bit => value <<< 1 ||| bit.toUInt8) 0

/-- The low `count` bytes of a number, most significant first. -/
def bigEndian (n : Nat) : Nat → List UInt8
  | 0 => []
  | count + 1 => UInt8.ofNat (n >>> (8 * count)) :: bigEndian n count

theorem length_lowBits (value : UInt8) (width : Nat) :
    (lowBits value width).length = width := by
  induction width with
  | zero => rfl
  | succ width ih => simp [lowBits, ih]

theorem byteOfBits_byteBits (value : UInt8) : byteOfBits (byteBits value) = value := by
  have all : ∀ i : Fin 256, byteOfBits (byteBits (UInt8.ofFin i)) = UInt8.ofFin i := by
    decide +kernel
  simpa using all value.toFin

/-! ## Records -/

/-- The bits of a record: a leading bit, then every byte. -/
def recordBits (syncBit : Bool) (bytes : List UInt8) : List Bool :=
  syncBit :: bytes.flatMap byteBits

/-- Spells bits out as bytes, eight at a time, and leaves out a group that
is not full. -/
def byteGroups : List Bool → List UInt8
  | b7 :: b6 :: b5 :: b4 :: b3 :: b2 :: b1 :: b0 :: rest =>
    byteOfBits [b7, b6, b5, b4, b3, b2, b1, b0] :: byteGroups rest
  | _ => []

theorem byteGroups_byteBits_append (value : UInt8) (rest : List Bool) :
    byteGroups (byteBits value ++ rest) = value :: byteGroups rest := by
  have group : byteGroups (byteBits value ++ rest)
      = byteOfBits (byteBits value) :: byteGroups rest := rfl
  rw [group, byteOfBits_byteBits]

def assemble (bits : List Bool) : List UInt8 :=
  byteGroups (bits.drop 1)

/-- How many bytes a number of bits is good for. -/
def assembledLength (bits : Nat) : Nat :=
  (bits - 1) / 8

/-! ## Bits as text -/

def bitText (bits : List Bool) : String :=
  String.ofList (bits.map fun bit => if bit then '1' else '0')

/-- Reads symbols as bits, if each of them is a zero or a one. -/
def readBits? : List Char → Option (List Bool)
  | [] => some []
  | '0' :: rest => (readBits? rest).map (false :: ·)
  | '1' :: rest => (readBits? rest).map (true :: ·)
  | _ :: _ => none

def parseBits? (text : String) : Option (List Bool) :=
  readBits? text.toList

end FluxMarks
