import FluxMarks.Event

/-!
# The dump

The listing of a capture has one line for every event: `4` and the length
of the waveform for a frame, `6` and the four parts of the record for a
record.
-/

namespace FluxMarks

/-- A number in decimal, set flush right in `width` places. A longer
number takes the places it needs. -/
def alignedNumber (width n : Nat) : String :=
  String.ofList ((toString n).toList.leftpad width ' ')

def FrameDiagnostic.line (d : FrameDiagnostic) : String :=
  "4 " ++ toString d.waveformLength

/-- The line of a record: tag, length, check and payload. -/
def Record.line (r : Record) : String :=
  "6 " ++ r.kind.tag ++ " " ++ alignedNumber 5 r.length ++ " " ++ r.checkText ++ " "
    ++ Hex.ofBytes r.payload

def Event.line : Event → String
  | .frame d => d.line
  | .record r => r.line

end FluxMarks
