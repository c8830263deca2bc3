import FluxMarks.Command.Report

/-!
# Output on its way

The dump does not go out line by line. It is gathered in blocks, and of
each block the lines go out at once while the beginning of a line, unless
it is long, waits for its end. Whoever shares the standard output with the
dump can tell: the file of records may be that very stream, and then it
stands before the lines that still wait. Nothing is lost or moved about on
the way (`Outlet.sent_append_waiting_ofLines`).
-/

namespace FluxMarks.Command

/-- Text held back until there is more of it than its capacity, in
bytes. -/
structure Buffer where
  capacity : Nat
  held : String := ""
  deriving Repr, DecidableEq

namespace Buffer

/-- Adds a text, which is never torn: what then goes out, and the buffer.
A text that does not fit pushes out what is held, and one that would fill
the buffer by itself does not stay either. -/
def put (b : Buffer) (text : String) : String × Buffer :=
  if b.capacity ≤ text.utf8ByteSize then (b.held ++ text, { b with held := "" })
  else if b.capacity < b.held.utf8ByteSize + text.utf8ByteSize then
    (b.held, { b with held := text })
  else ("", { b with held := b.held ++ text })

theorem put_conserves (b : Buffer) (text : String) :
    (b.put text).1 ++ (b.put text).2.held = b.held ++ text := by
  unfold put
  split
  · simp
  · split <;> simp

end Buffer

/-- A text cut after its last line. -/
def cutLines (text : List Char) : List Char × List Char :=
  let backwards := text.reverse
  ((backwards.dropWhile (· != '\n')).reverse, (backwards.takeWhile (· != '\n')).reverse)

theorem cutLines_conserves (text : List Char) : (cutLines text).1 ++ (cutLines text).2 = text := by
  simp [cutLines, ← List.reverse_append, List.takeWhile_append_dropWhile]

/-- The standard output as the dump reaches it. -/
structure Outlet where
  sent : String := ""
  line : Buffer := { capacity := 1024 }
  block : Buffer := { capacity := 8192 }
  deriving Repr, DecidableEq

namespace Outlet

def waiting (o : Outlet) : String :=
  o.line.held ++ o.block.held

def putPart (o : Outlet) (text : String) : Outlet :=
  let (out, line) := o.line.put text
  { o with sent := o.sent ++ out, line }

/-- Takes over a block. Its lines go out after the one whose beginning was
waiting, and what follows them is the beginning of the next. -/
def putBlock (o : Outlet) (text : String) : Outlet :=
  match cutLines text.toList with
  | ([], _) => o.putPart text
  | (lines, part) =>
    let cut : Outlet :=
      { o with
        sent := o.sent ++ o.line.held ++ String.ofList lines
        line := { o.line with held := "" } }
    cut.putPart (String.ofList part)

def put (o : Outlet) (piece : String) : Outlet :=
  let (out, block) := o.block.put piece
  if out.isEmpty then { o with block } else { o.putBlock out with block }

/-- Adds a line. Its end is a piece of its own. -/
def putLine (o : Outlet) (line : String) : Outlet :=
  (o.put line).put "\n"

def ofLines (lines : List String) : Outlet :=
  lines.foldl putLine {}

/-! ## Nothing is lost -/

theorem sent_append_held_putPart (o : Outlet) (text : String) :
    (o.putPart text).sent ++ (o.putPart text).line.held = o.sent ++ o.line.held ++ text := by
  simp [putPart, String.append_assoc, Buffer.put_conserves]

theorem sent_append_held_putBlock (o : Outlet) (text : String) :
    (o.putBlock text).sent ++ (o.putBlock text).line.held = o.sent ++ o.line.held ++ text := by
  unfold putBlock
  split
  · exact sent_append_held_putPart o text
  · rename_i lines part _ h
    have whole := cutLines_conserves text.toList
    rw [h] at whole
    rw [sent_append_held_putPart]
    apply String.toList_inj.mp
    simp [← whole]

theorem sent_append_waiting_put (o : Outlet) (piece : String) :
    (o.put piece).sent ++ (o.put piece).waiting = o.sent ++ o.waiting ++ piece := by
  have kept := Buffer.put_conserves o.block piece
  by_cases h : (o.block.put piece).1.isEmpty
  · rw [String.isEmpty_iff] at h
    rw [h, String.empty_append] at kept
    simp [put, waiting, h, kept, String.append_assoc]
  · have passed := sent_append_held_putBlock o (o.block.put piece).1
    rw [String.append_assoc] at passed
    simp only [put, h, waiting, ← String.append_assoc]
    simp [passed, kept, String.append_assoc]

theorem sent_append_waiting_foldl (o : Outlet) (lines : List String) :
    (lines.foldl putLine o).sent ++ (lines.foldl putLine o).waiting
      = o.sent ++ o.waiting ++ textOfLines lines := by
  induction lines generalizing o with
  | nil => simp [textOfLines, String.join]
  | cons line rest ih =>
    rw [List.foldl_cons, ih]
    simp [putLine, sent_append_waiting_put, textOfLines, String.append_assoc]

/-- What has gone out and what still waits are the lines, whole and in
order. -/
theorem sent_append_waiting_ofLines (lines : List String) :
    (ofLines lines).sent ++ (ofLines lines).waiting = textOfLines lines := by
  rw [ofLines, sent_append_waiting_foldl]
  simp [waiting]

end Outlet

end FluxMarks.Command
