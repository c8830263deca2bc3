import FluxMarks.Text.Hex

/-!
# Text for a terminal

A line of the log may hold text that the caller chose, such as the name
of a file, and a terminal obeys some characters where it should show
them. Those that can begin a command to it, ring its bell, move back or
clear the page are written out; a tab and all that a terminal merely
shows stay as they are.
-/

namespace FluxMarks.Text

/-- The seven-bit controls that a terminal obeys: bell, backspace, form
feed, escape and delete. -/
def terminalControls : List Char :=
  ['\x07', '\x08', '\x0c', '\x1b', '\x7f']

/-- The controls from U+0080 to U+009F, which need eight bits. -/
def isHighControl (c : Char) : Bool :=
  0x80 ≤ c.toNat && c.toNat ≤ 0x9f

def terminalText (c : Char) : String :=
  if terminalControls.contains c then "\\x" ++ Hex.ofNatPadded 2 c.toNat
  else if isHighControl c then "\\u\x7b" ++ Hex.ofNat c.toNat ++ "\x7d"
  else c.toString

/-- A text that no terminal takes for commands. -/
def forTerminal (text : String) : String :=
  String.join (text.toList.map terminalText)

end FluxMarks.Text
