/-!
# Paths

What the system makes of the text of a path before it looks for any file:
the names on the way, where they start, and whether a slash at the end
says that a directory is meant. Some texts are refused at this point
already.
-/

namespace FluxMarks.Command

/-- Why the system refuses a path, or what is to be done with what it
leads to. -/
inductive SystemFault where
  | notFound
  | noDevice
  | notDirectory
  | isDirectory
  | noSpace
  /-- The path, or a name in it, is longer than any can be. -/
  | nameTooLong
  /-- The text holds U+0000, which ends a path. -/
  | nulInName
  deriving Repr, DecidableEq

def SystemFault.message : SystemFault → String
  | .notFound => "No such file or directory (os error 2)"
  | .noDevice => "No such device or address (os error 6)"
  | .notDirectory => "Not a directory (os error 20)"
  | .isDirectory => "Is a directory (os error 21)"
  | .noSpace => "No space left on device (os error 28)"
  | .nameTooLong => "File name too long (os error 36)"
  | .nulInName => "file name contained an unexpected NUL byte"

def longestPath : Nat := 4095

def longestName : Nat := 255

structure Path where
  /-- The names on the way. Slashes in a row count as one. -/
  names : List String
  fromRoot : Bool
  endsInSlash : Bool
  deriving Repr, DecidableEq

namespace Path

def namesOf (text : String) : List String :=
  let pieces : List (List Char) := text.toList.foldr
    (fun c pieces => if c = '/' then [] :: pieces else pieces.modifyHead (c :: ·)) [[]]
  (pieces.filter (!·.isEmpty)).map String.ofList

/-- Reads a path. The empty text leads nowhere. -/
def ofText (text : String) : Except SystemFault Path :=
  if text.toList.contains '\x00' then .error .nulInName
  else if text.isEmpty then .error .notFound
  else if longestPath < text.utf8ByteSize then .error .nameTooLong
  else .ok
    { names := namesOf text
      fromRoot := text.toList.head? == some '/'
      endsInSlash := text.toList.getLast? == some '/' }

end Path

end FluxMarks.Command
