import FluxMarks.Error
import FluxMarks.Frame
import FluxMarks.Text.Quoted

/-!
# Waveforms

A waveform draws the clock cells of a frame one by one and says of each
whether a flux transition ends it. A period of `n` cells is `n - 1` gaps
and a transition. The drawing has one symbol for a cell, so its text and
its cells are the same thing read twice, and periods and drawings
determine each other as long as there is a period at all.
-/

namespace FluxMarks

/-- One clock cell. -/
inductive Cell where
  /-- The flux does not change. -/
  | gap
  /-- A flux transition ends the cell. -/
  | transition
  deriving Repr, DecidableEq

def Cell.symbol : Cell → Char
  | .gap => '-'
  | .transition => '|'

def Cell.ofSymbol? (c : Char) : Option Cell :=
  if c = '-' then some .gap
  else if c = '|' then some .transition
  else none

theorem Cell.ofSymbol?_symbol (cell : Cell) : Cell.ofSymbol? cell.symbol = some cell := by
  cases cell <;> rfl

def Cell.draw (cells : List Cell) : String :=
  String.ofList (cells.map Cell.symbol)

/-- The cells of a frame. The default is the drawing of nothing, which no
frame has. -/
structure Waveform where
  cells : List Cell := []
  deriving Repr, DecidableEq, Inhabited

namespace Waveform

/-- Why a text is no waveform. -/
inductive Fault where
  /-- The first symbol that draws no cell. -/
  | unexpectedSymbol (symbol : Char)
  | notClosed
  deriving Repr, DecidableEq

def Fault.message : Fault → String
  | .unexpectedSymbol symbol => "unexpected symbol " ++ Text.quoted symbol
  | .notClosed => "waveform must end with a transition"

def Fault.toError (fault : Fault) : CaptureError :=
  .invalidWaveform fault.message

/-- The waveform as text, one symbol for a cell. -/
def text (w : Waveform) : String :=
  Cell.draw w.cells

def length (w : Waveform) : Nat :=
  w.cells.length

/-- Whether the last cell ends in a transition. -/
def isClosed (w : Waveform) : Bool :=
  w.cells.getLast? = some .transition

theorem isClosed_iff {w : Waveform} : w.isClosed = true ↔ w.cells.getLast? = some .transition := by
  rw [isClosed, decide_eq_true_eq]

/-! ## Periods to cells -/

/-- The cells of one period. No period is shorter than the cell its
transition ends, so a period of zero looks like a period of one. -/
def periodCells (period : Nat) : List Cell :=
  List.replicate (period - 1) .gap ++ [.transition]

/-- Draws periods. With no period at all there is still the transition
that ends the frame. -/
def ofPeriods : List Nat → Waveform
  | [] => ⟨[.transition]⟩
  | periods => ⟨periods.flatMap periodCells⟩

theorem isClosed_ofPeriods (periods : List Nat) : (ofPeriods periods).isClosed = true := by
  cases periods with
  | nil => rfl
  | cons period periods =>
    suffices h : ∃ cells, (period :: periods).flatMap periodCells = cells ++ [.transition] by
      obtain ⟨cells, h⟩ := h
      simp [ofPeriods, isClosed, h]
    induction periods generalizing period with
    | nil => exact ⟨_, by simp [periodCells]; rfl⟩
    | cons next periods ih =>
      obtain ⟨cells, h⟩ := ih next
      refine ⟨periodCells period ++ cells, ?_⟩
      rw [List.flatMap_cons, h, List.append_assoc]

/-! ## Cells to periods -/

/-- The periods that transitions end, the first of them `gaps` cells
under way. Gaps that no transition follows end no period. -/
def periodsFrom (gaps : Nat) : List Cell → List Nat
  | [] => []
  | .gap :: cells => periodsFrom (gaps + 1) cells
  | .transition :: cells => (gaps + 1) :: periodsFrom 0 cells

/-- The periods a closed waveform draws. A lone transition is read as a
period of one. -/
def periods (w : Waveform) : List Nat :=
  if w.isClosed then periodsFrom 0 w.cells else []

/-! ## Text to cells -/

/-- Takes cells as a waveform if a transition closes them. -/
def ofCells (cells : List Cell) : Except Fault Waveform :=
  let w : Waveform := ⟨cells⟩
  if w.isClosed then .ok w else .error .notClosed

/-- Reads symbols as cells, up to the first that draws none. -/
def readCells : List Char → Except Fault (List Cell)
  | [] => .ok []
  | c :: rest =>
    match Cell.ofSymbol? c with
    | none => .error (.unexpectedSymbol c)
    | some cell => (readCells rest).map (cell :: ·)

/-- Reads a drawing. A wrong symbol anywhere is found before a missing
end is. -/
def parse (text : String) : Except Fault Waveform :=
  (readCells text.toList).bind ofCells

theorem readCells_symbols (cells : List Cell) :
    readCells (cells.map Cell.symbol) = .ok cells := by
  induction cells with
  | nil => rfl
  | cons cell cells ih => simp [readCells, Cell.ofSymbol?_symbol, ih, Except.map]

theorem parse_text {w : Waveform} (h : w.isClosed = true) : parse w.text = .ok w := by
  simp [parse, text, Cell.draw, readCells_symbols, Except.bind, ofCells, h]

end Waveform

def Frame.waveform (frame : Frame) : Waveform :=
  .ofPeriods frame.periods

end FluxMarks
