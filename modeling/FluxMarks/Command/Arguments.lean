/-!
# The command line

The command takes one capture, two switches and the name of a file for
the records. Arguments are read from left to right, and the first that
settles the matter does: a wrong argument is refused before anything that
stands to its right is looked at, and a request for the version or for
help is answered as soon as it is met.
-/

namespace FluxMarks.Command

/-- What a run of the command is to do. -/
structure Options where
  input : String
  /-- Where the records are to be written as well. -/
  json : Option String
  /-- Whether the log is told in more detail. -/
  verbose : Bool
  /-- Whether a summary follows the dump. -/
  stats : Bool
  deriving Repr, DecidableEq

/-- What the arguments ask for. -/
inductive Request where
  | dump (options : Options)
  | version
  | help
  | refused
  deriving Repr, DecidableEq

structure Partial where
  input : Option String := none
  json : Option String := none
  verbose : Bool := false
  stats : Bool := false
  deriving Repr, DecidableEq, Inhabited

/-- What reading an argument leads to: an answer that nothing to the right
can change, or the arguments read so far. -/
abbrev Step := Except Request Partial

namespace Partial

/-- All arguments were read: the capture must have been named. -/
def finish (p : Partial) : Request :=
  match p.input with
  | none => .refused
  | some input => .dump { input, json := p.json, verbose := p.verbose, stats := p.stats }

/-- Takes the capture's path, which is given once and is not empty. -/
def takeInput (p : Partial) (path : String) : Step :=
  if p.input.isSome || path.isEmpty then .error .refused else .ok { p with input := some path }

/-- Takes the path of the record file, likewise. -/
def takeJson (p : Partial) (path : String) : Step :=
  if p.json.isSome || path.isEmpty then .error .refused else .ok { p with json := some path }

/-- Turns the log up, once. -/
def takeVerbose (p : Partial) : Step :=
  if p.verbose then .error .refused else .ok { p with verbose := true }

def takeStats (p : Partial) : Step :=
  if p.stats then .error .refused else .ok { p with stats := true }

def readPaths (p : Partial) : List String → Request
  | [] => p.finish
  | path :: rest =>
    match p.takeInput path with
    | .error request => request
    | .ok p => p.readPaths rest

/-- Reads the letters of a group such as `-vV`, one after another. -/
def readLetters (p : Partial) : List Char → Step
  | [] => .ok p
  | 'v' :: rest =>
    match p.takeVerbose with
    | .error request => .error request
    | .ok p => p.readLetters rest
  | 'V' :: _ => .error .version
  | 'h' :: _ => .error .help
  | _ :: _ => .error .refused

/-- Reads a long option, from what follows its two dashes. Only the file
of records takes a value after an equals sign. -/
def readLong (p : Partial) : List Char → Step
  | 'j' :: 's' :: 'o' :: 'n' :: '=' :: path => p.takeJson (String.ofList path)
  | name =>
    if name = "verbose".toList then p.takeVerbose
    else if name = "stats".toList then p.takeStats
    else if name = "version".toList then .error .version
    else if name = "help".toList then .error .help
    else .error .refused

/-- Reads an argument that needs no other one: a long option, a group of
letters, or else the path of the capture. A dash alone is a path. -/
def readOne (p : Partial) (argument : String) : Step :=
  match argument.toList with
  | '-' :: '-' :: name => p.readLong name
  | '-' :: letter :: letters => p.readLetters (letter :: letters)
  | _ => p.takeInput argument

/-- Whether an argument is read as an option and not as a path. -/
def looksLikeOption (argument : String) : Bool :=
  match argument.toList with
  | '-' :: _ :: _ => true
  | _ => false

/-- Reads arguments. The one after `--json` is its value, unless it looks
like an option; after `--` come only paths. -/
def read (p : Partial) : List String → Request
  | [] => p.finish
  | "--" :: rest => p.readPaths rest
  | ["--json"] => .refused
  | "--json" :: path :: rest =>
    if looksLikeOption path then .refused
    else
      match p.takeJson path with
      | .error request => request
      | .ok p => p.read rest
  | argument :: rest =>
    match p.readOne argument with
    | .error request => request
    | .ok p => p.read rest

end Partial

def Request.ofArguments (arguments : List String) : Request :=
  Partial.read {} arguments

def versionText : String :=
  "rllflux 0.1.0"

def usageText : String :=
  "Usage: rllflux [OPTIONS] <INPUT>"

def helpLines : List String :=
  ["rllflux - Dump WD RLL(2,7) address and data marks from raw flux captures",
   "",
   usageText,
   "",
   "Arguments:",
   "  <INPUT>  Raw flux capture, one sample byte per transition interval",
   "",
   "Options:",
   "  -v, --verbose      Enable verbose logging",
   "      --json <PATH>  Also write recovered records to a JSON file",
   "      --stats        Print decode statistics to stderr",
   "  -h, --help         Print help",
   "  -V, --version      Print version"]

end FluxMarks.Command
