import FluxMarks.Source.Basic

/-!
# Scripted sources

The sources that answer as they were told to. A script has a list of
answers, one a pull, and answers nothing ever after. It may answer nothing
in the middle of its list, which tells a stage that remembers its end from
one that asks again. A tape has an answer for every pull there will be, and
need not come to an end.
-/

namespace FluxMarks

/-- The answers a source still has to give. -/
structure Script (α : Type) where
  answers : List (Option (Except CaptureError α))

namespace Script

variable {α : Type}

def ofItems (items : List α) : Script α :=
  ⟨items.map fun a => some (.ok a)⟩

def pull : Script α → Pull (Script α) α
  | ⟨[]⟩ => ⟨none, [], ⟨[]⟩⟩
  | ⟨answer :: rest⟩ => ⟨answer, [], ⟨rest⟩⟩

instance : FiniteSource (Script α) α where
  pull := pull
  remaining s := s.answers.length
  remaining_pull_lt := by
    rintro ⟨_ | ⟨answer, rest⟩⟩ a h
    · simp [pull] at h
    · simp [pull]

end Script

/-- An answer for every pull, and the number of the next pull. -/
structure Tape (α : Type) where
  answers : Nat → Option (Except CaptureError α)
  position : Nat

namespace Tape

variable {α : Type}

def ofItems (items : Nat → α) : Tape α :=
  { answers := fun i => some (.ok (items i)), position := 0 }

instance : Source (Tape α) α where
  pull t := ⟨t.answers t.position, [], { t with position := t.position + 1 }⟩

end Tape

end FluxMarks
