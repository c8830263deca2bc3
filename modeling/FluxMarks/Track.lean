import FluxMarks.Code.Encoding
import FluxMarks.Record

/-!
# Synthesizing captures

The way of decoding walked backwards: a record becomes bits, the bits
become cells, the cells periods and the periods samples. A track is a
list of segments, and laying it out either gives every sample or says
which period no sample can express.
-/

namespace FluxMarks

/-- The waveform of a record as it follows a sync pattern. -/
def recordWaveform (syncBit : Bool) (bytes : List UInt8) :
    Except Waveform.Fault Waveform :=
  Waveform.ofCells (frameCells (recordBits syncBit bytes))

/-- One piece of a track. -/
inductive Segment where
  | sync
  | periods (periods : List Nat)
  /-- A record, with its check bytes appended if asked for. -/
  | record (bytes : List UInt8) (withCheck : Bool)
  deriving Repr, DecidableEq

structure Track where
  segments : List Segment := []
  syncBit : Bool := true
  deriving Repr, DecidableEq, Inhabited

/-- The bytes that a record segment puts on the track. -/
def recordBytes (bytes : List UInt8) (withCheck : Bool) : List UInt8 :=
  if withCheck then bytes ++ checkBytes bytes else bytes

/-- The periods of a segment. Those of a record must not contain a sync
pattern, or the record would be read as two frames. -/
def Segment.layOut (syncBit : Bool) : Segment → Except CaptureError (List Nat)
  | .sync => .ok syncPattern
  | .periods ps => .ok ps
  | .record bytes withCheck =>
    match recordWaveform syncBit (recordBytes bytes withCheck) with
    | .error fault => .error fault.toError
    | .ok waveform =>
      match findSync waveform.periods with
      | some position => .error (.embeddedSync position)
      | none => .ok waveform.periods

namespace Track

/-! ## Building up -/

def append (t : Track) (segment : Segment) : Track :=
  { t with segments := t.segments ++ [segment] }

def sync (t : Track) : Track :=
  t.append .sync

def periods (t : Track) (periods : List Nat) : Track :=
  t.append (.periods periods)

/-- Appends a record without check bytes. -/
def record (t : Track) (bytes : List UInt8) : Track :=
  t.append (.record bytes false)

/-- Asks for check bytes after the last segment, if that is a record. -/
def withCheck (t : Track) : Track :=
  match t.segments.getLast? with
  | some (.record bytes _) =>
    { t with segments := t.segments.dropLast ++ [.record bytes true] }
  | _ => t

/-! ## Laying out -/

def layOut (t : Track) : Except CaptureError (List Nat) :=
  (t.segments.mapM (Segment.layOut t.syncBit)).map List.flatten

def samples (t : Track) : Except CaptureError (List UInt8) :=
  t.layOut.bind fun periods => periods.mapM sampleOf

end Track

end FluxMarks
