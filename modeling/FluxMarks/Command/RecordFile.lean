import FluxMarks.Record

/-!
# The file of records

Besides the dump the command can write the records it found to a file of
their own, as an array of objects in JSON. An entry has the same parts as
the line of the dump and says whether the record is intact.
-/

namespace FluxMarks.Command

structure RecordEntry where
  tag : String
  length : Nat
  check : String
  intact : Option Bool
  payload : String
  deriving Repr, DecidableEq

def RecordEntry.ofRecord (r : Record) : RecordEntry where
  tag := r.kind.tag
  length := r.length
  check := r.checkText
  intact := r.isIntact
  payload := Hex.ofBytes r.payload

namespace RecordFile

/-- A string in JSON. Tags, checks and payloads consist of letters, digits
and question marks, none of which needs an escape. -/
def quoted (text : String) : String :=
  "\"" ++ text ++ "\""

def verdict : Option Bool → String
  | some true => "true"
  | some false => "false"
  | none => "null"

/-- An entry in JSON, one field on a line. -/
def entryText (e : RecordEntry) : String :=
  "  \x7b\n"
    ++ "    \"tag\": " ++ quoted e.tag ++ ",\n"
    ++ "    \"length\": " ++ toString e.length ++ ",\n"
    ++ "    \"check\": " ++ quoted e.check ++ ",\n"
    ++ "    \"intact\": " ++ verdict e.intact ++ ",\n"
    ++ "    \"payload\": " ++ quoted e.payload ++ "\n"
    ++ "  \x7d"

/-- The file of some entries. An empty array takes no second line. -/
def text (entries : List RecordEntry) : String :=
  match entries with
  | [] => "[]"
  | _ => "[\n" ++ ",\n".intercalate (entries.map entryText) ++ "\n]"

end RecordFile

end FluxMarks.Command
