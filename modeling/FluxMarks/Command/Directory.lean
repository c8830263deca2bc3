import FluxMarks.Command.Path
import FluxMarks.Command.Session
import FluxMarks.Command.Surroundings

/-!
# The command over a directory

A directory that holds files and nothing else, and the command run over
it. This is all of a file system that a run can notice: whether a path
names a file, a directory, or nothing, and what the system says when it
is used as what it is not. Outside the directory no files are known but
those that stand at well-known places.
-/

namespace FluxMarks.Command

/-- A directory and the files in it, by name. -/
structure Directory where
  path : String
  files : List (String × List UInt8)
  /-- The directory that the command is run in: a path that does not start
  at the root starts there. -/
  workingPath : String
  deriving Repr, DecidableEq

inductive Place where
  | directory
  | file (name : String) (content : List UInt8)
  /-- Nothing, but a file of that name could be made. -/
  | free (name : String)
  /-- Nothing, but a file could be made there, out of sight. -/
  | elsewhere
  /-- Nothing, not even a place for it. -/
  | nowhere
  /-- Something inside a file. -/
  | insideFile
  /-- A name that is longer than any can be, and whether it is the last
  one of the path. -/
  | overlong (last : Bool)
  | fixture (kind : Fixture)
  deriving Repr, DecidableEq

namespace Directory

def content? (d : Directory) (name : String) : Option (List UInt8) :=
  d.files.lookup name

/-- Whether there is a directory at the end of a way from the root. Known
are this one, the one the command is run in, those at well-known places,
and all that lie on the way to them. -/
def isDirectoryAt (d : Directory) (way : List String) : Bool :=
  (Path.namesOf d.path :: Path.namesOf d.workingPath :: outerDirectories).any fun known =>
    way.isPrefixOf known

/-- Where a file leads, given the names after its own: nothing lies inside
it. -/
def atFile (rest : List String) (file : Place) : Place :=
  if rest.isEmpty then file else .insideFile

/-- Where a name leads that nothing goes by, given the names after it and
what it would be as the last one. -/
def atUnknown (name : String) (rest : List String) (asLast : Place) : Place :=
  if longestName < name.utf8ByteSize then .overlong rest.isEmpty
  else if rest.isEmpty then asLast
  else .nowhere

/-- Where a name in a directory leads that is not a directory's. -/
def atName (d : Directory) (way : List String) (name : String) (rest : List String) : Place :=
  if way = Path.namesOf d.path then
    match d.content? name with
    | some content => atFile rest (.file name content)
    | none => atUnknown name rest (.free name)
  else
    match fixtures.lookup (way ++ [name]) with
    | some kind => atFile rest (.fixture kind)
    | none => if takesFiles way then atUnknown name rest .elsewhere else .nowhere

/-- Follows names from the directory at the end of a way. Above the root
is the root. -/
def follow (d : Directory) (way : List String) : List String → Place
  | [] => .directory
  | "." :: rest => d.follow way rest
  | ".." :: rest => d.follow way.dropLast rest
  | name :: rest =>
    match links.lookup (way ++ [name]) with
    | some target => d.follow target rest
    | none =>
      if d.isDirectoryAt (way ++ [name]) then d.follow (way ++ [name]) rest
      else d.atName way name rest

def place (d : Directory) (path : Path) : Place :=
  d.follow (if path.fromRoot then [] else Path.namesOf d.workingPath) path.names

/-- Opens a path for reading. A directory can be opened, and only reading
from it fails. -/
def openFile (d : Directory) (text : String) : Except SystemFault (List ReadStep) :=
  match Path.ofText text with
  | .error fault => .error fault
  | .ok path =>
    match d.place path with
    | .directory => .ok [.failed SystemFault.isDirectory.message]
    | .file _ content =>
      if path.endsInSlash then .error .notDirectory else .ok [.stretch content]
    | .fixture kind => if path.endsInSlash then .error .notDirectory else kind.read
    | .insideFile => .error .notDirectory
    | .overlong _ => .error .nameTooLong
    | .free _ | .elsewhere | .nowhere => .error .notFound

/-- What a path gives to read, if it names a file. -/
def fileAt? (d : Directory) (text : String) : Option (List UInt8) :=
  match d.openFile text with
  | .ok [.stretch content] => some content
  | _ => none

def put (d : Directory) (name : String) (content : List UInt8) : Directory :=
  { d with files := (name, content) :: d.files.filter fun file => file.1 != name }

/-- Writes a text to a path: the directory then, and what can be seen of
the text. A slash at the end asks for a directory, and the system says so
before it looks for the last name. -/
def writeFile (d : Directory) (text written : String) :
    Except SystemFault (Directory × List Emission) :=
  match Path.ofText text with
  | .error fault => .error fault
  | .ok path =>
    match d.place path with
    | .directory => .error .isDirectory
    | .file name _ | .free name =>
      if path.endsInSlash then .error .isDirectory
      else .ok (d.put name written.toUTF8.toList, [])
    | .elsewhere => if path.endsInSlash then .error .isDirectory else .ok (d, [])
    | .fixture kind =>
      if path.endsInSlash then .error .isDirectory
      else (kind.write written).map fun shown => (d, shown)
    | .overlong last =>
      if last && path.endsInSlash then .error .isDirectory else .error .nameTooLong
    | .insideFile => .error .notDirectory
    | .nowhere => .error .notFound

/-- A run over the directory, given what opening its capture gave. -/
def runOpened (d : Directory) (input : String) (json : Option String)
    (opened : Except String (List ReadStep)) : Session × Directory :=
  let session := Session.start input json opened
  match session.toWrite with
  | none => (session, d)
  | some (path, text) =>
    match d.writeFile path text with
    | .ok (d, shown) => (session.written path (.ok shown), d)
    | .error fault => (session.written path (.error fault.message), d)

def run (d : Directory) (input : String) (json : Option String) : Session × Directory :=
  d.runOpened input json ((d.openFile input).mapError SystemFault.message)

def execute (d : Directory) (colours : Bool) (arguments : List String) : Report × Directory :=
  match Request.ofArguments arguments with
  | .refused => (.refusal, d)
  | .version => (.ofLines [versionText], d)
  | .help => (.ofLines helpLines, d)
  | .dump options =>
    let (session, d) := d.run options.input options.json
    (session.report options colours, d)

end Directory

end FluxMarks.Command
