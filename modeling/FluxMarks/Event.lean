import FluxMarks.Code.Decoding
import FluxMarks.Record

/-!
# Decoding a capture

Every frame of a capture tells two things: how much of its waveform made
sense, and the record it held, if that came to a byte at least. A capture
decodes to the sequence of these events, frame by frame.
-/

namespace FluxMarks

/-- How much of a frame could be decoded. -/
structure FrameDiagnostic where
  index : Nat
  waveformLength : Nat
  bitsLength : Nat
  /-- The number of cells left over. -/
  residue : Nat
  deriving Repr, DecidableEq

/-- Whether decoding stopped with room for a code word left. -/
def FrameDiagnostic.isTruncated (d : FrameDiagnostic) : Bool :=
  CodeWord.shortestPattern ≤ d.residue

/-- One thing learnt from a capture. -/
inductive Event where
  | frame (diagnostic : FrameDiagnostic)
  | record (record : Record)
  deriving Repr, DecidableEq

def Frame.decoding (frame : Frame) : Decoding :=
  frame.waveform.decode

def Frame.diagnostic (frame : Frame) : FrameDiagnostic where
  index := frame.index
  waveformLength := frame.waveform.length
  bitsLength := frame.decoding.bits.length
  residue := frame.decoding.residue

def Frame.record? (frame : Frame) : Option Record :=
  Record.classify? (assemble frame.decoding.bits)

def Frame.events (frame : Frame) : List Event :=
  .frame frame.diagnostic :: (frame.record?.map Event.record).toList

def captureFrames (samples : List UInt8) : List Frame :=
  splitFrames (samples.map quantize)

/-- Decodes a capture held in memory. -/
def decodeCapture (samples : List UInt8) : List Event :=
  (captureFrames samples).flatMap Frame.events

end FluxMarks
