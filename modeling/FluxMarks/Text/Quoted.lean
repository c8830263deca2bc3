import FluxMarks.Text.Extending
import FluxMarks.Text.Hex
import FluxMarks.Text.Ignorable
import FluxMarks.Text.Unprintable

/-!
# Quoting a character

An error text that names a character puts it between single quotes and
keeps it readable: what would break the line, vanish, or attach itself to
the quote is written as an escape.
-/

namespace FluxMarks.Text

/-- How a character is written between single quotes. Five characters
have escapes of their own, a double quote needs none, and a character that
cannot stand for itself is given by its code point. -/
def escaped (c : Char) : String :=
  if c = '\x00' then "\\0"
  else if c = '\t' then "\\t"
  else if c = '\r' then "\\r"
  else if c = '\n' then "\\n"
  else if c = '\'' then "\\'"
  else if c = '\\' then "\\\\"
  else if isExtending c || isIgnorable c || isUnprintable c then
    "\\u\x7b" ++ Hex.ofNat c.toNat ++ "\x7d"
  else c.toString

def quoted (c : Char) : String :=
  "'" ++ escaped c ++ "'"

end FluxMarks.Text
