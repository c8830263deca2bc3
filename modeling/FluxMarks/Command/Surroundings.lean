import FluxMarks.Command.Path
import FluxMarks.Command.Report
import FluxMarks.Source.Reader

/-!
# Outside the directory

What stands at well-known places of every system: directories that a path
can lead through, and things that are no plain files, among them the
streams of the command itself. A place is given by its way, the names
that lead to it from the root.
-/

namespace FluxMarks.Command

inductive Fixture where
  /-- Is empty and forgets what is written to it. -/
  | null
  /-- Has no end and forgets what is written to it. -/
  | endless
  /-- Has no end and no room for anything. -/
  | full
  | output
  | errors
  /-- The terminal, in a run that has none. -/
  | terminal
  /-- A file, of which only its place is known. -/
  | document
  deriving Repr, DecidableEq

/-- The fixtures, by their ways. Nobody writes to the standard input. -/
def fixtures : List (List String × Fixture) :=
  [(["dev", "null"], .null), (["dev", "zero"], .endless), (["dev", "random"], .endless),
   (["dev", "urandom"], .endless), (["dev", "full"], .full), (["dev", "tty"], .terminal),
   (["dev", "stdin"], .null), (["dev", "stdout"], .output), (["dev", "stderr"], .errors),
   (["proc", "self", "fd", "0"], .null), (["proc", "self", "fd", "1"], .output),
   (["proc", "self", "fd", "2"], .errors), (["proc", "version"], .document),
   (["etc", "passwd"], .document), (["etc", "group"], .document), (["etc", "hosts"], .document),
   (["etc", "hostname"], .document), (["usr", "bin", "sh"], .document),
   (["usr", "bin", "env"], .document)]

/-- The directories that no other one in this list lies below. -/
def outerDirectories : List (List String) :=
  [["boot"], ["dev", "pts"], ["dev", "shm"], ["etc"], ["home"], ["media"], ["mnt"], ["opt"],
   ["proc", "self", "fd"], ["root"], ["run"], ["srv"], ["sys"], ["tmp"], ["usr", "bin"],
   ["usr", "lib"], ["usr", "local", "bin"], ["usr", "sbin"], ["usr", "share"], ["var", "cache"],
   ["var", "lib"], ["var", "log"], ["var", "tmp"]]

/-- Second ways to a directory, each with the directory's own. A path that
takes one goes on from the directory itself, so that what lies above is
what lies above there. -/
def links : List (List String × List String) :=
  [(["dev", "fd"], ["proc", "self", "fd"]), (["proc", "self", "root"], []),
   (["bin"], ["usr", "bin"]), (["lib"], ["usr", "lib"]), (["sbin"], ["usr", "sbin"]),
   (["var", "run"], ["run"])]

/-- Whether a file can be made in a directory. What stands for the
processes of the system takes none. -/
def takesFiles (way : List String) : Bool :=
  way.head? != some "proc"

namespace Fixture

/-- Opens a fixture for reading. A run that reads one without an end does
not end either, and what the others hold is not known: of all these
nothing is told. -/
def read : Fixture → Except SystemFault (List ReadStep)
  | .null => .ok [.stretch []]
  | .terminal => .error .noDevice
  | .endless | .full | .output | .errors | .document => .ok []

/-- Writes a text to a fixture: what can be seen of it. -/
def write (text : String) : Fixture → Except SystemFault (List Emission)
  | .null | .endless | .document => .ok []
  | .full => if text.isEmpty then .ok [] else .error .noSpace
  | .output => .ok [.output text]
  | .errors => .ok [.errors text]
  | .terminal => .error .noDevice

end Fixture

end FluxMarks.Command
