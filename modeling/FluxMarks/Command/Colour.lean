/-!
# Colours

Parts of the summary are set off by colour, if whoever runs the command
wants to see any. Wanting is settled by three variables of the
environment and by where the output goes.
-/

namespace FluxMarks.Command

inductive Colour where
  | red
  | green
  | yellow
  deriving Repr, DecidableEq

/-- The number of a colour among the terminal's foreground colours. -/
def Colour.code : Colour → String
  | .red => "31"
  | .green => "32"
  | .yellow => "33"

def coloured (shown : Bool) (colour : Colour) (text : String) : String :=
  if shown then "\x1b[" ++ colour.code ++ "m" ++ text ++ "\x1b[0m" else text

/-- Whether a variable says yes: any value but `0` does. -/
def saysYes (value : Option String) : Option Bool :=
  value.map (· != "0")

/-- Whether colours are shown. The variable that forces them outdoes the
one that forbids them; without either they are shown on a terminal,
unless a third variable says no. -/
def showsColours (force forbid wish : Option String) (terminal : Bool) : Bool :=
  if saysYes force = some true then true
  else if forbid.isSome then false
  else (saysYes wish).getD true && terminal

end FluxMarks.Command
