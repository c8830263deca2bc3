/-!
# What the caller sees

The command lets out text on two streams and exits with a code. The order
across the streams is kept as well, although a caller who reads each on
its own cannot tell it.
-/

namespace FluxMarks.Command

inductive Emission where
  | output (text : String)
  | errors (text : String)
  deriving Repr, DecidableEq

def Emission.note (line : String) : Emission :=
  .errors (line ++ "\n")

/-- Lines as text, each with its end. -/
def textOfLines (lines : List String) : String :=
  String.join (lines.map (· ++ "\n"))

/-- What the command lets out, and the code it exits with. -/
structure Report where
  emissions : List Emission
  exitCode : UInt8
  deriving Repr, DecidableEq

namespace Report

def output (r : Report) : String :=
  String.join (r.emissions.filterMap fun
    | .output text => some text
    | .errors _ => none)

def errors (r : Report) : String :=
  String.join (r.emissions.filterMap fun
    | .output _ => none
    | .errors text => some text)

/-- What is let out when nothing is run. -/
def ofLines (lines : List String) : Report :=
  ⟨[.output (textOfLines lines)], 0⟩

end Report

end FluxMarks.Command
