import FluxMarks.Log

/-!
# Sources

A source hands out one item at a time, on request. Each pull answers with
an item, with a failure, or with nothing, and leaves the source in a new
state; what was said on the way is part of the answer. A source may answer
nothing and still have more to give, so it is left to each stage to
remember that it has ended. It may also never come to that: a source is
anything that can be pulled.

A finite source can bound how many items are still to come. This is what
makes it possible to run it to its end, and it is what a stage needs to
know that it will not look for the end of an item for ever.
-/

namespace FluxMarks

/-- The answer to one pull on a source in state `σ` of items `α`. -/
structure Pull (σ α : Type) where
  item : Option (Except CaptureError α)
  log : List Message
  next : σ

/-- States from which items can be pulled. -/
class Source (σ : Type) (α : outParam Type) where
  pull : σ → Pull σ α

/-- Sources that hand out so many items at most before they answer with
something else. -/
class FiniteSource (σ : Type) (α : outParam Type) extends Source σ α where
  /-- A bound on the items still to come. -/
  remaining : σ → Nat
  /-- An item that was handed out no longer counts as remaining. -/
  remaining_pull_lt : ∀ (s : σ) (a : α),
    (pull s).item = some (.ok a) → remaining (pull s).next < remaining s

namespace Source

variable {σ α : Type}

/-- The answers to so many pulls in a row, also past the end. -/
def pulls [Source σ α] : Nat → σ → List (Pull σ α)
  | 0, _ => []
  | n + 1, s =>
    let answer := pull s
    answer :: pulls n answer.next

/-- The answers up to and including the first that is no item. -/
def drain [FiniteSource σ α] (s : σ) : List (Pull σ α) :=
  match _isItem : (pull s).item with
  | some (.ok _) => pull s :: drain (pull s).next
  | _ => [pull s]
  termination_by FiniteSource.remaining s
  decreasing_by exact FiniteSource.remaining_pull_lt s _ _isItem

end Source

namespace Pull

variable {σ α : Type}

def item? (p : Pull σ α) : Option α :=
  match p.item with
  | some (.ok a) => some a
  | _ => none

def error? (p : Pull σ α) : Option CaptureError :=
  match p.item with
  | some (.error e) => some e
  | _ => none

end Pull

end FluxMarks
