import FluxMarks.Command.Colour
import FluxMarks.Statistics
import FluxMarks.Text.Places

/-!
# The summary

What the command says about a capture as a whole: the nine counters, and
a verdict on the marks. The verdict is good only if there are marks and
every one of them is intact.
-/

namespace FluxMarks.Command

/-- What is to be said of the marks of a capture. -/
inductive Verdict where
  | noMarks
  /-- There are marks, and all of them are intact. -/
  | allIntact (marks : Nat)
  /-- Some mark is not intact; the share of those that are, in percent. -/
  | someDamaged (rate : Float)

def Verdict.ofStatistics (s : Statistics) : Verdict :=
  if s.marks = 0 then .noMarks
  else if s.intactMarks = s.marks then .allIntact s.marks
  else .someDamaged s.intactRate

def Verdict.text : Verdict → String
  | .noMarks => "No address or data marks found"
  | .allIntact marks => s!"All {marks} marks intact"
  | .someDamaged rate => Text.fixedText 2 rate ++ "% of marks intact"

def Verdict.sign (colours : Bool) : Verdict → String
  | .allIntact _ => coloured colours .green "✓"
  | _ => coloured colours .red "✗"

def Verdict.line (colours : Bool) (v : Verdict) : String :=
  v.sign colours ++ " " ++ v.text

/-- The summary of a capture, line by line. Truncated frames are set off
if there are any. -/
def summaryLines (colours : Bool) (s : Statistics) : List String :=
  let truncated := toString s.truncatedFrames
  ["",
   "=== Decode Results ===",
   "Frames:            " ++ toString s.frames,
   "Empty frames:      " ++ toString s.emptyFrames,
   "Truncated frames:  "
     ++ (if s.truncatedFrames = 0 then truncated else coloured colours .yellow truncated),
   "Waveform cells:    " ++ toString s.cells,
   s!"Data marks:        {s.dataMarks} ({s.intactDataMarks} intact)",
   s!"Address marks:     {s.addressMarks} ({s.intactAddressMarks} intact)",
   "Unknown records:   " ++ toString s.unknownRecords,
   (Verdict.ofStatistics s).line colours]

end FluxMarks.Command
