import FluxMarks.Command.Arguments
import FluxMarks.Command.Outlet
import FluxMarks.Command.RecordFile
import FluxMarks.Command.Summary
import FluxMarks.Dump
import FluxMarks.Source.Events
import FluxMarks.Statistics
import FluxMarks.Text.Terminal

/-!
# A run of the command

A run opens the capture, decodes it to its end or to the first failure,
and then, only if nothing failed, writes the file of records. The two
dealings with the outside, opening the one file and writing the other,
are given to the run as their results, so that a run is a value: the
lines of the dump, the log, and how it ended. Lines that were decoded
before a failure stay in the dump.
-/

namespace FluxMarks.Command

/-- Why a run failed: what was being done, and what went wrong with
it. -/
structure Failure where
  context : String
  cause : String
  deriving Repr, DecidableEq

def Failure.chain (f : Failure) : List String :=
  [f.context, f.cause]

/-- A capture decoded as far as it could be read. -/
structure Reading where
  events : List Event
  log : List Message
  /-- Why it could not be read on, if it could not. -/
  failure : Option CaptureError

def Reading.ofMedium (medium : List ReadStep) : Reading :=
  let answers := Source.drain (decodeMedium medium)
  { events := answers.filterMap Pull.item?
    log := answers.flatMap Pull.log
    failure := answers.findSome? Pull.error? }

/-- The records that were decoded, as entries of a file. -/
def Reading.entries (r : Reading) : List RecordEntry :=
  r.events.filterMap fun
    | .frame _ => none
    | .record r => some (.ofRecord r)

structure Session where
  lines : List String
  /-- What was logged while the capture was decoded. -/
  log : List Message
  /-- The file of records still to be written: its path and its text. -/
  toWrite : Option (String × String)
  /-- What writing the file of records has let out. -/
  shown : List Emission := []
  /-- What was logged once it was written. -/
  lastLog : List Message := []
  result : Except Failure Statistics

namespace Session

/-- Decodes the capture that `opened` gives access to. There is a file to
write only if one was asked for and the whole capture was read. -/
def start (input : String) (json : Option String) (opened : Except String (List ReadStep)) :
    Session :=
  match opened with
  | .error cause =>
    { lines := []
      log := [.fileStarted input]
      toWrite := none
      result := .error { context := "Failed to open input file: " ++ input, cause } }
  | .ok medium =>
    let reading := Reading.ofMedium medium
    let lines := reading.events.map Event.line
    let log := .fileStarted input :: reading.log
    match reading.failure with
    | some error =>
      { lines, log
        toWrite := none
        result := .error
          { context := "Failed to read input file: " ++ input, cause := error.message } }
    | none =>
      { lines, log
        toWrite := json.map fun path => (path, RecordFile.text reading.entries)
        result := .ok (.ofEvents reading.events) }

/-- The run after its file of records was written, or could not be. A file
that is one of the command's own streams shows the text there. -/
def written (s : Session) (path : String) : Except String (List Emission) → Session
  | .ok shown => { s with toWrite := none, shown, lastLog := [.recordsWritten path] }
  | .error cause =>
    { s with
      toWrite := none
      result := .error { context := "Failed to write JSON file: " ++ path, cause } }

end Session

/-! ## What the caller sees -/

def isShown (verbose : Bool) (m : Message) : Bool :=
  match m.level with
  | .warn => true
  | .info | .debug => verbose
  | .trace => false

/-- A message as it is shown, if it is: only the log is made harmless for
a terminal. -/
def shownMessage (verbose : Bool) (m : Message) : Option Emission :=
  if isShown verbose m then some (.note (Text.forTerminal m.line)) else none

def Failure.notes (f : Failure) : List String :=
  ["Error: " ++ f.context, "", "Caused by:", "    " ++ f.cause]

namespace Session

def exitCode (s : Session) : UInt8 :=
  match s.result with
  | .error _ => 1
  | .ok _ => 0

/-- What is let out before the file of records is written: the log so
far, and as much of the dump as is on its way. -/
def beginning (s : Session) (options : Options) : List Emission :=
  s.log.filterMap (shownMessage options.verbose) ++ [.output (Outlet.ofLines s.lines).sent]

/-- What is let out after that. The dump is complete before anything is
said about how the run ended. -/
def ending (s : Session) (options : Options) (colours : Bool) : List Emission :=
  let notes :=
    match s.result with
    | .error failure => failure.notes
    | .ok statistics => if options.stats then summaryLines colours statistics else []
  s.lastLog.filterMap (shownMessage options.verbose)
    ++ [.output (Outlet.ofLines s.lines).waiting] ++ notes.map .note

/-- What a run lets out from its beginning to its end. -/
def report (s : Session) (options : Options) (colours : Bool) : Report :=
  ⟨s.beginning options ++ s.shown ++ s.ending options colours, s.exitCode⟩

end Session

def Report.refusal : Report :=
  ⟨[.note usageText], 2⟩

end FluxMarks.Command
