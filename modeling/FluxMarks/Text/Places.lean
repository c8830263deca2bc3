/-!
# Fixed decimal places

A double is a whole number times a power of two, so its decimal expansion
is known exactly and can be rounded exactly. `roundQuotient` rounds to
the nearest whole number, a half to the even neighbour; everything else is
moving the point.
-/

namespace FluxMarks.Text

/-- The nearest whole number to a quotient; of two equally near, the even
one. -/
def roundQuotient (numerator denominator : Nat) : Nat :=
  let whole := numerator / denominator
  let twice := 2 * (numerator % denominator)
  if denominator < twice ∨ (denominator = twice ∧ whole % 2 = 1) then whole + 1 else whole

/-- The magnitude of a finite double as a quotient of naturals. -/
def magnitude (x : Float) : Nat × Nat :=
  let bits := x.toBits.toNat
  let implicitBit := 1 <<< 52
  let exponent := bits / implicitBit % 2048
  let fraction := bits % implicitBit
  if exponent = 0 then (fraction, 1 <<< 1074)
  else if exponent < 1075 then (implicitBit + fraction, 1 <<< (1075 - exponent))
  else ((implicitBit + fraction) <<< (exponent - 1075), 1)

/-- A quotient in decimal with the given number of places after the
point. -/
def quotientText (places numerator denominator : Nat) : String :=
  let unit := Nat.pow 10 places
  let scaled := roundQuotient (numerator * unit) denominator
  let decimals := (toString (scaled % unit)).toList.leftpad places '0'
  toString (scaled / unit) ++ "." ++ String.ofList decimals

/-- The magnitude of a finite double in decimal, with the given number of
places after the point. -/
def fixedText (places : Nat) (x : Float) : String :=
  let (numerator, denominator) := magnitude x
  quotientText places numerator denominator

end FluxMarks.Text
