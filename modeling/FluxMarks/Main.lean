import FluxMarks.Command.Session

/-!
# The program

Hands the command what it needs from the outside, and lets its report
out: opens and reads the capture, writes the file of records, prints.
-/

namespace FluxMarks.Command

def systemMessage : IO.Error → String
  | .noFileOrDirectory _ code details | .inappropriateType _ code details
  | .permissionDenied _ code details | .invalidArgument _ code details
  | .resourceExhausted _ code details => s!"{details} (os error {code})"
  | error => toString error

/-- Reads a file to its end, or to the first failure. -/
partial def readMedium (file : IO.FS.Handle) : IO (List ReadStep) := do
  match ← (file.read defaultChunk.toUSize).toBaseIO with
  | .error error => return [.failed (systemMessage error)]
  | .ok chunk =>
    if chunk.isEmpty then return []
    return .stretch chunk.toList :: (← readMedium file)

def openMedium (path : String) : IO (Except String (List ReadStep)) := do
  match ← (IO.FS.Handle.mk path .read).toBaseIO with
  | .error error => return .error (systemMessage error)
  | .ok file => return .ok (← readMedium file)

def writeText (path text : String) : IO Unit := do
  let file ← IO.FS.Handle.mk path .write
  file.putStr text
  file.flush

/-- Writes the file of records, if there is one to be written. -/
def writeRecords (session : Session) : IO Session := do
  match session.toWrite with
  | none => return session
  | some (path, text) =>
    match ← (writeText path text).toBaseIO with
    | .ok () => return session.written path (.ok [])
    | .error error => return session.written path (.error (systemMessage error))

/-- Lets text out, in this order also where both streams end up in one
place. -/
def emit (emissions : List Emission) : IO Unit := do
  for emission in emissions do
    match emission with
    | .output text =>
      IO.print text
      (← IO.getStdout).flush
    | .errors text => IO.eprint text

def printReport (report : Report) : IO UInt32 := do
  emit report.emissions
  return report.exitCode.toUInt32

/-- Runs the command on the capture and the file of records that the
options name. -/
def runSession (options : Options) (colours : Bool) : IO UInt32 := do
  let session := Session.start options.input options.json (← openMedium options.input)
  emit (session.beginning options)
  let session ← writeRecords session
  emit (session.ending options colours)
  return session.exitCode.toUInt32

end FluxMarks.Command

open FluxMarks.Command in
/-- The command, as called from a shell. -/
def main (arguments : List String) : IO UInt32 := do
  match Request.ofArguments arguments with
  | .refused => printReport .refusal
  | .version => printReport (.ofLines [versionText])
  | .help => printReport (.ofLines helpLines)
  | .dump options =>
    let terminal ← (← IO.getStdout).isTty
    let colours := showsColours (← IO.getEnv "CLICOLOR_FORCE") (← IO.getEnv "NO_COLOR")
      (← IO.getEnv "CLICOLOR") terminal
    runSession options colours
