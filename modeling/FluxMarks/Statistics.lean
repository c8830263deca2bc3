import FluxMarks.Event

/-!
# Statistics of a capture

Nine counters over the events of a capture. Each event adds to them what
it has to add and nothing is ever taken away, so the counters of a
capture are the sums of those of its parts.
-/

namespace FluxMarks

/-- Counts of what a capture held. -/
structure Statistics where
  /-- Frames, the empty ones at the ends included. -/
  frames : Nat := 0
  /-- Frames that stopped making sense before their end. -/
  truncatedFrames : Nat := 0
  /-- Frames without a byte. -/
  emptyFrames : Nat := 0
  /-- Clock cells in all waveforms together. -/
  cells : Nat := 0
  dataMarks : Nat := 0
  addressMarks : Nat := 0
  unknownRecords : Nat := 0
  intactDataMarks : Nat := 0
  intactAddressMarks : Nat := 0
  deriving Repr, DecidableEq, Inhabited

namespace Statistics

protected def add (s t : Statistics) : Statistics where
  frames := s.frames + t.frames
  truncatedFrames := s.truncatedFrames + t.truncatedFrames
  emptyFrames := s.emptyFrames + t.emptyFrames
  cells := s.cells + t.cells
  dataMarks := s.dataMarks + t.dataMarks
  addressMarks := s.addressMarks + t.addressMarks
  unknownRecords := s.unknownRecords + t.unknownRecords
  intactDataMarks := s.intactDataMarks + t.intactDataMarks
  intactAddressMarks := s.intactAddressMarks + t.intactAddressMarks

instance : Add Statistics := ⟨Statistics.add⟩

def observeFrame (s : Statistics) (d : FrameDiagnostic) : Statistics :=
  { s with
    frames := s.frames + 1
    truncatedFrames := s.truncatedFrames + d.isTruncated.toNat
    emptyFrames := s.emptyFrames + (assembledLength d.bitsLength == 0).toNat
    cells := s.cells + d.waveformLength }

def observeRecord (s : Statistics) (r : Record) : Statistics :=
  let intact := (r.isIntact == some true).toNat
  match r.kind with
  | .dataMark =>
    { s with
      dataMarks := s.dataMarks + 1
      intactDataMarks := s.intactDataMarks + intact }
  | .addressMark =>
    { s with
      addressMarks := s.addressMarks + 1
      intactAddressMarks := s.intactAddressMarks + intact }
  | .unknown => { s with unknownRecords := s.unknownRecords + 1 }

def observe (s : Statistics) : Event → Statistics
  | .frame diagnostic => s.observeFrame diagnostic
  | .record record => s.observeRecord record

def ofEvents (events : List Event) : Statistics :=
  events.foldl observe {}

def records (s : Statistics) : Nat :=
  s.dataMarks + s.addressMarks + s.unknownRecords

/-- Records that carry a check. -/
def marks (s : Statistics) : Nat :=
  s.dataMarks + s.addressMarks

/-- Records whose check agrees. -/
def intactMarks (s : Statistics) : Nat :=
  s.intactDataMarks + s.intactAddressMarks

/-- The share of marks whose check agrees, in percent; zero when there is
no mark. -/
def intactRate (s : Statistics) : Float :=
  if s.marks = 0 then 0
  else s.intactMarks.toFloat / s.marks.toFloat * 100

end Statistics

end FluxMarks
