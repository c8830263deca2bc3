/-!
# Hexadecimal text

Numbers and bytes in lowercase hexadecimal, and the way back. A number
is written without leading zeros (zero itself as `0`); a byte always
takes two digits, so that a string of bytes can be cut apart again.
-/

namespace FluxMarks.Hex

def digit (n : Nat) : Char :=
  Nat.digitChar n

def digits (n : Nat) : List Char :=
  if n < 16 then [digit n] else digits (n / 16) ++ [digit (n % 16)]

/-- The digits of a number, filled up with zeros to `width` places. A
number that needs more places keeps all of them. -/
def paddedDigits (width n : Nat) : List Char :=
  (digits n).leftpad width '0'

def ofNat (n : Nat) : String :=
  String.ofList (digits n)

def ofNatPadded (width n : Nat) : String :=
  String.ofList (paddedDigits width n)

def byteDigits (b : UInt8) : List Char :=
  [digit (b.toNat / 16), digit (b.toNat % 16)]

def ofBytes (bytes : List UInt8) : String :=
  String.ofList (bytes.flatMap byteDigits)

/-- The value of a digit, either case. -/
def value? (c : Char) : Option Nat :=
  if '0' ≤ c ∧ c ≤ '9' then some (c.toNat - '0'.toNat)
  else if 'a' ≤ c ∧ c ≤ 'f' then some (c.toNat - 'a'.toNat + 10)
  else if 'A' ≤ c ∧ c ≤ 'F' then some (c.toNat - 'A'.toNat + 10)
  else none

/-- Reads the number that a nonempty string of digits stands for. -/
def nat? (text : String) : Option Nat :=
  match text.toList with
  | [] => none
  | cs => cs.foldlM (fun n c => (value? c).map (16 * n + ·)) 0

/-- Cuts digits into pairs and reads each pair as a byte. -/
def pairs? : List Char → Option (List UInt8)
  | [] => some []
  | [_] => none
  | high :: low :: rest =>
    match value? high, value? low, pairs? rest with
    | some h, some l, some bytes => some (UInt8.ofNat (16 * h + l) :: bytes)
    | _, _, _ => none

def bytes? (text : String) : Option (List UInt8) :=
  pairs? text.toList

theorem value?_digit {n : Nat} (h : n < 16) : value? (digit n) = some n := by
  have all : ∀ i : Fin 16, value? (digit i.val) = some i.val := by decide +kernel
  exact all ⟨n, h⟩

theorem pairs?_byteDigits (b : UInt8) (rest : List Char) :
    pairs? (byteDigits b ++ rest) = (pairs? rest).map (b :: ·) := by
  have high : b.toNat / 16 < 16 := by have := b.toNat_lt; omega
  have low : b.toNat % 16 < 16 := Nat.mod_lt _ (by decide)
  have whole : UInt8.ofNat (16 * (b.toNat / 16) + b.toNat % 16) = b := by
    rw [Nat.div_add_mod, UInt8.ofNat_toNat]
  simp only [byteDigits, List.cons_append, List.nil_append, pairs?, value?_digit high,
    value?_digit low]
  cases pairs? rest with
  | none => rfl
  | some bytes => simp only [whole, Option.map_some]

theorem bytes?_ofBytes (bytes : List UInt8) : bytes? (ofBytes bytes) = some bytes := by
  simp only [bytes?, ofBytes, String.toList_ofList]
  induction bytes with
  | nil => rfl
  | cons b bytes ih => simp [pairs?_byteDigits, ih]

end FluxMarks.Hex
