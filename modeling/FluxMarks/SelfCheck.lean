import FluxMarks.Command.Session
import FluxMarks.Statistics

/-!
# Self-checks

Three things that hold of every string of bytes whatever, as functions
that can be run on one: the counters account for every event, reading in
chunks changes nothing, and a decoded waveform is accounted for to the
last cell.
-/

namespace FluxMarks.SelfCheck

/-- Each event of a capture is counted as a frame or as a record. -/
def countsEveryEvent (samples : List UInt8) : Bool :=
  let events := decodeCapture samples
  let statistics := Statistics.ofEvents events
  statistics.frames + statistics.records == events.length

/-- Reading a capture in chunks decodes to the same events as having it in
memory. -/
def readsLikeMemory (samples : List UInt8) : Bool :=
  let reading := Command.Reading.ofMedium [.stretch samples]
  reading.failure.isNone && reading.events == decodeCapture samples

/-- If the bytes spell a waveform, decoding leaves no cell out. -/
def coversWaveform (bytes : List UInt8) : Bool :=
  match String.fromUTF8? ⟨bytes.toArray⟩ with
  | none => true
  | some text =>
    match Waveform.parse text with
    | .error _ => true
    | .ok waveform =>
      let decoding := waveform.decode
      decoding.stoppedAt + decoding.residue == waveform.length

end FluxMarks.SelfCheck
