/-!
# CRC-16

The check of an address mark: the remainder of the message modulo
`x^16 + x^12 + x^5 + 1`, most significant bit first, from a register of
ones and without a final inversion. A byte at a time, from a table that
holds the eight single steps of each leading byte.
-/

namespace FluxMarks.Crc16

/-- The remainder so far; bit `i` is the coefficient of `x^i`. -/
abbrev Register := BitVec 16

/-- The polynomial, leading term included. -/
def polynomial : Nat := 0x11021

def initial : Register := 0xffff

/-- One step: multiplies by `x` and reduces what leaves the register. -/
def shift (register : Register) : Register :=
  if register.msb then (register <<< 1) ^^^ BitVec.ofNat 16 polynomial
  else register <<< 1

def shifts : Nat → Register → Register
  | 0, register => register
  | n + 1, register => shifts n (shift register)

/-- What becomes of each leading byte in eight steps. -/
def table : Vector Register 256 :=
  Vector.ofFn fun byte => shifts 8 (BitVec.ofNat 16 byte.val <<< 8)

/-- Takes in a byte: the table answers for the byte that leaves the
register, and the other one moves up. -/
def feed (register : Register) (byte : UInt8) : Register :=
  let leaving : BitVec 8 := (register >>> 8).setWidth 8 ^^^ byte.toBitVec
  (register <<< 8) ^^^ table.get ⟨leaving.toNat, leaving.isLt⟩

def update (register : Register) (bytes : List UInt8) : Register :=
  bytes.foldl feed register

def checksum (bytes : List UInt8) : Register :=
  update initial bytes

end FluxMarks.Crc16
