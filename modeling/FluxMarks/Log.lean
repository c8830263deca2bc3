import FluxMarks.Statistics

/-!
# The log

What the library says about its work while it works. A message is a
value that names what happened; its level, the component that speaks and
the wording are functions of it. What a frame has to say is computed from
the frame alone, so the log of a capture is determined by its frames.
-/

namespace FluxMarks

inductive Level where
  | trace
  | debug
  | info
  | warn
  deriving Repr, DecidableEq

def Level.name : Level → String
  | .trace => "TRACE"
  | .debug => "DEBUG"
  | .info => "INFO"
  | .warn => "WARN"

/-- Something worth telling. -/
inductive Message where
  /-- A read delivered some samples, or none at the end. -/
  | chunkRead (samples : Nat)
  | readFailed (error : CaptureError)
  | frameComplete (index periods : Nat)
  /-- Decoding stopped short of the end of a frame. -/
  | decodingStopped (cell length bits : Nat)
  | recordFound (kind : RecordKind) (length : Nat) (mark : UInt8) (check : Option Nat)
  | captureStarted (samples : Nat)
  | captureDone (frames records intactMarks : Nat)
  | fileStarted (path : String)
  /-- The records of a file were written to another one. -/
  | recordsWritten (path : String)
  deriving Repr, DecidableEq

namespace Message

def level : Message → Level
  | .chunkRead _ | .recordFound .. => .trace
  | .frameComplete .. | .decodingStopped .. | .captureStarted _ | .captureDone .. => .debug
  | .fileStarted _ | .recordsWritten _ => .info
  | .readFailed _ => .warn

def target : Message → String
  | .chunkRead _ | .readFailed _ => "rllflux_core::reader"
  | .frameComplete .. => "rllflux_core::framer"
  | .decodingStopped .. => "rllflux_core::rll"
  | .recordFound .. => "rllflux_core::classify"
  | .captureStarted _ | .captureDone .. => "rllflux_core::decoder"
  | .fileStarted _ | .recordsWritten _ => "rllflux_cli::commands::decode"

/-- A check in decimal, or the word for none. -/
def checkText : Option Nat → String
  | some check => s!"Some({check})"
  | none => "None"

def text : Message → String
  | .chunkRead samples => s!"Read chunk of {samples} samples"
  | .readFailed error => "Sample read failed: " ++ error.message
  | .frameComplete index periods => s!"Frame {index} holds {periods} periods"
  | .decodingStopped cell length bits =>
    s!"RLL decode stopped at cell {cell} of {length}, {bits} bits kept"
  | .recordFound kind length mark check =>
    "Record " ++ kind.name ++ ": " ++ toString length ++ " bytes, mark 0x"
      ++ Hex.ofNatPadded 2 mark.toNat ++ ", check " ++ checkText check
  | .captureStarted samples => s!"Decoding capture of {samples} samples"
  | .captureDone frames records intactMarks =>
    s!"Decode complete: {frames} frames, {records} records ({intactMarks} intact marks)"
  | .fileStarted path => "Decoding capture: " ++ path
  | .recordsWritten path => "Records written to: " ++ path

def line (m : Message) : String :=
  m.level.name ++ " " ++ m.target ++ ": " ++ m.text

end Message

/-! ## What a frame has to say -/

/-- Told when the frame is complete. -/
def Frame.completion (frame : Frame) : Message :=
  .frameComplete frame.index frame.periods.length

/-- The cell that one more code word would begin at. It lies behind the last
cell if the waveform ends within the lead-in. -/
def Waveform.nextWord (w : Waveform) : Nat :=
  let (found, _) := CodeWord.readAll CodeWord.table (w.cells.drop leadIn)
  leadIn + (found.flatMap CodeWord.pattern).length

/-- Told when the frame is decoded: where decoding stopped, if it stopped
short, and then the record, if there is one. -/
def Frame.findings (frame : Frame) : List Message :=
  let decoding := frame.decoding
  let bytes := assemble decoding.bits
  let stopped : List Message :=
    if CodeWord.shortestPattern ≤ decoding.residue then
      [.decodingStopped frame.waveform.nextWord frame.waveform.length decoding.bits.length]
    else []
  let found : List Message :=
    match bytes.head?, Record.classify? bytes with
    | some mark, some record => [.recordFound record.kind record.length mark record.check]
    | _, _ => []
  stopped ++ found

/-! ## What a capture has to say -/

/-- The log of decoding a capture held in memory and counting what was in
it. -/
def captureLog (samples : List UInt8) : List Message :=
  let statistics := Statistics.ofEvents (decodeCapture samples)
  .captureStarted samples.length
    :: (captureFrames samples).flatMap (fun frame => frame.completion :: frame.findings)
    ++ [.captureDone statistics.frames statistics.records statistics.intactMarks]

end FluxMarks
