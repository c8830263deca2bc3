/-!
# The 56-bit sector check

What controllers of this family call an error-correcting code is, to a
reader, a plain remainder: modulo a polynomial of degree 56, most
significant bit first, from a register of ones. The register has room for
more than 56 bits, and what starts out above them is pushed out by the
first byte.
-/

namespace FluxMarks.Ecc56

/-- The remainder so far; bit `i` is the coefficient of `x^i`. -/
abbrev Register := BitVec 64

def width : Nat := 56

def terms : List Nat := [56, 52, 50, 43, 41, 34, 30, 26, 24, 8, 0]

/-- The polynomial, leading term included. -/
def polynomial : Register :=
  terms.foldl (fun sum term => sum ||| (1#64 <<< term)) 0#64

def initial : Register := (1#64 <<< width) - 1#64

/-- One step: multiplies by `x` and reduces a term that reaches the
degree. -/
def shift (register : Register) : Register :=
  let moved := register <<< 1
  if moved.getLsbD width then moved ^^^ polynomial else moved

def shifts : Nat → Register → Register
  | 0, register => register
  | n + 1, register => shifts n (shift register)

/-- Takes in a byte: adds it to the top of the window and steps past it. -/
def feed (register : Register) (byte : UInt8) : Register :=
  shifts 8 (register ^^^ (byte.toBitVec.setWidth 64 <<< (width - 8)))

def update (register : Register) (bytes : List UInt8) : Register :=
  bytes.foldl feed register

def checksum (bytes : List UInt8) : Register :=
  update initial bytes

end FluxMarks.Ecc56
