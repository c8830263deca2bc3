import FluxMarks.Check.Crc16
import FluxMarks.Check.Ecc56
import FluxMarks.Layout
import FluxMarks.Text.Hex

/-!
# Records

The first byte of a record says what it is: `0xf8` opens the data field of
a sector, anything above it the sector's ID field, and anything below is
noise, a gap or a misaligned frame. Both kinds of mark end in check bytes
over all that precedes them and the mark byte `0xa1`, which the sync
pattern swallows, so the remainder over a whole good record is zero.
-/

namespace FluxMarks

/-- What the first byte of a record makes of it. -/
inductive RecordKind where
  | dataMark
  | addressMark
  | unknown
  deriving Repr, DecidableEq

def dataMarkByte : UInt8 := 0xf8

/-- The mark byte that goes into every check ahead of the record. -/
def preamble : UInt8 := 0xa1

namespace RecordKind

def ofMark (mark : UInt8) : RecordKind :=
  if mark = dataMarkByte then .dataMark
  else if dataMarkByte < mark then .addressMark
  else .unknown

def tag : RecordKind → String
  | .dataMark => "DM"
  | .addressMark => "AM"
  | .unknown => "??"

def name : RecordKind → String
  | .dataMark => "DataMark"
  | .addressMark => "AddressMark"
  | .unknown => "Unknown"

/-- The number of leading bytes that the check covers: mark, 512 data and
7 check bytes of a sector, mark, 3 header and 2 check bytes of an ID
field. Of an unknown record that many are shown. -/
def span : RecordKind → Nat
  | .dataMark => 520
  | .addressMark => 6
  | .unknown => 20

theorem exists_span_eq_succ (kind : RecordKind) : ∃ n, kind.span = n + 1 := by
  cases kind <;> exact ⟨_, rfl⟩

def checkDigits : RecordKind → Nat
  | .dataMark => 14
  | .addressMark => 4
  | .unknown => 0

end RecordKind

def dataCheckLength : Nat := 7

/-- One record, as far as its frame held it. -/
structure Record where
  kind : RecordKind
  length : Nat
  /-- The remainder over preamble and payload, for the two marks. -/
  check : Option Nat
  /-- The leading bytes that the check covers. -/
  payload : List UInt8
  deriving Repr, DecidableEq

/-- The remainder over the preamble and some bytes of a record. -/
def RecordKind.check? (kind : RecordKind) (bytes : List UInt8) : Option Nat :=
  match kind with
  | .dataMark => some (Ecc56.checksum (preamble :: bytes)).toNat
  | .addressMark => some (Crc16.checksum (preamble :: bytes)).toNat
  | .unknown => none

namespace Record

/-- The record that some bytes make, if there are any. A remainder other
than zero is reported and not refused. -/
def classify? : List UInt8 → Option Record
  | [] => none
  | mark :: rest =>
    let bytes := mark :: rest
    let kind := RecordKind.ofMark mark
    let payload := bytes.take kind.span
    some { kind, length := bytes.length, check := kind.check? payload, payload }

theorem classify?_cons (mark : UInt8) (rest : List UInt8) :
    ∃ r, classify? (mark :: rest) = some r ∧ r.kind = .ofMark mark
      ∧ r.length = (mark :: rest).length ∧ r.payload = (mark :: rest).take r.kind.span
      ∧ r.check = r.kind.check? r.payload :=
  ⟨_, rfl, rfl, rfl, rfl, rfl⟩

/-- The check in hexadecimal, with all its digits; `f` when there is
none. -/
def checkText (r : Record) : String :=
  match r.check with
  | some check => Hex.ofNatPadded r.kind.checkDigits check
  | none => "f"

/-- Whether the check agrees with the bytes, where there is a check. A
record cut short of its check bytes is never intact. -/
def isIntact (r : Record) : Option Bool :=
  r.check.map fun check => r.payload.length = r.kind.span && check = 0

end Record

/-- The check bytes that a controller writes after the given ones. -/
def checkBytes : List UInt8 → List UInt8
  | [] => []
  | mark :: rest =>
    let covered := preamble :: mark :: rest
    match RecordKind.ofMark mark with
    | .dataMark => bigEndian (Ecc56.checksum covered).toNat dataCheckLength
    | .addressMark => bigEndian (Crc16.checksum covered).toNat 2
    | .unknown => []

end FluxMarks
