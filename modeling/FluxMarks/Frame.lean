import FluxMarks.Sample

/-!
# Frames

The controller marks the start of every field by a pair of periods that
no encoded data contains, the sync pattern. `splitFrames` cuts a capture
at each of them; what stands between two is a frame. The sync pattern
belongs to neither side, and whatever follows the last one is a frame
too, even when nothing does, so a capture with `n` sync patterns always
has `n + 1` frames.
-/

namespace FluxMarks

def syncPattern : List Nat := [8, 3]

/-- The periods between two sync patterns, and the place of the frame in
its capture. The first and the last frame of a capture may be partial. -/
structure Frame where
  index : Nat
  periods : List Nat
  deriving Repr, DecidableEq

/-- Whether the periods held so far, most recent first, end in a sync
pattern. -/
def endsInSync (held : List Nat) : Bool :=
  syncPattern.reverse.isPrefixOf held

/-- What was held before the sync pattern that ends it, in capture
order. -/
def beforeSync (held : List Nat) : List Nat :=
  (held.drop syncPattern.length).reverse

/-- Cuts periods at every sync pattern, going on from the periods already
`held` (most recent first) since the last cut. -/
def splitFrom (held : List Nat) : List Nat → List (List Nat)
  | [] => [held.reverse]
  | period :: rest =>
    if endsInSync (period :: held) then
      beforeSync (period :: held) :: splitFrom [] rest
    else
      splitFrom (period :: held) rest

theorem splitFrom_ne_nil (held periods : List Nat) : splitFrom held periods ≠ [] := by
  fun_induction splitFrom held periods <;> simp_all

def splitFrames (periods : List Nat) : List Frame :=
  (splitFrom [] periods).mapIdx Frame.mk

/-- Puts a sync pattern between neighbouring frames. -/
def joinFrames (frames : List (List Nat)) : List Nat :=
  syncPattern.intercalate frames

/-- The position of the first sync pattern among some periods. -/
def findSync : List Nat → Option Nat
  | [] => none
  | period :: rest =>
    if syncPattern.isPrefixOf (period :: rest) then some 0
    else (findSync rest).map (· + 1)

end FluxMarks
