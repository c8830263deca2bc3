/-!
# What can go wrong

Decoding itself never fails: a frame that stops making sense is cut
short, not refused. Only the two ends of the library can fail, namely the
source the samples come from and the synthesis of new captures.
-/

namespace FluxMarks

/-- Why a capture could not be read or synthesized. -/
inductive CaptureError where
  /-- The source of the samples failed, for the reason it gives. -/
  | io (reason : String)
  /-- A clock period is longer than a sample byte can express. -/
  | periodOutOfRange (period longest : Nat)
  /-- A text is not the drawing of a waveform. -/
  | invalidWaveform (reason : String)
  /-- An encoded record would be cut in two by a sync pattern inside it,
  first found at the given period. -/
  | embeddedSync (position : Nat)
  deriving Repr, DecidableEq

def CaptureError.message : CaptureError → String
  | .io reason => "IO error: " ++ reason
  | .periodOutOfRange period longest =>
    s!"Clock period {period} exceeds maximum {longest}"
  | .invalidWaveform reason => "Invalid waveform: " ++ reason
  | .embeddedSync position =>
    s!"Encoded record contains the sync pattern at period {position}"

end FluxMarks
