import PhraseStructure.Fault

/-!
# Charts

A chart records, for every contiguous part of an input, which non-terminals are
known to derive it.  Cell `(length, start)` stands for the `length` tokens that
begin at position `start`; row 0 has one cell per position, the end included.

Non-terminals are numbered in the order of `names`.  The cells are stored one
row after another, shortest first, and row `length` of an input of `n` tokens has
`n - length + 1` cells.  A cell is a row of marks, one per number.

A chart only gains marks.  Asking for a cell or a number that does not exist is a
fault.
-/

namespace PhraseStructure

/-- The non-terminals known to derive each part of an input. -/
structure Chart where
  size : Nat
  names : List Token
  cells : Array (Array Bool)

namespace Chart

/-- The number of cells for an input of `size` tokens. -/
def cellCount (size : Nat) : Nat :=
  (size + 1) * (size + 2) / 2

/-- The chart without marks. -/
def blank (size : Nat) (names : List Token) : Chart where
  size := size
  names := names
  cells := Array.replicate (cellCount size) (Array.replicate names.length false)

/-- The place of a cell, if the cell exists. -/
def place? (size length start : Nat) : Option Nat :=
  if length ≤ size ∧ start ≤ size - length then
    some (length * (size + 1) - length * (length - 1) / 2 + start)
  else
    none

/-- The place of a cell. -/
def place (chart : Chart) (length start : Nat) : Except Fault Nat :=
  match place? chart.size length start with
  | some place => .ok place
  | none => .error (.cell length start chart.size)

/-- The marks of a cell. -/
def cell (chart : Chart) (length start : Nat) : Except Fault (Array Bool) := do
  let place ← chart.place length start
  match chart.cells[place]? with
  | some marks => return marks
  | none => throw (.cell length start chart.size)

/-- The mark of a numbered non-terminal in a cell. -/
def marked (chart : Chart) (length start number : Nat) : Except Fault Bool := do
  let marks ← chart.cell length start
  match marks[number]? with
  | some mark => return mark
  | none => throw (.number number chart.names.length)

/-- The chart with a numbered non-terminal marked in a cell, and whether the
mark is new. -/
def mark (chart : Chart) (length start number : Nat) : Except Fault (Chart × Bool) := do
  let known ← chart.marked length start number
  if known then
    return (chart, false)
  else
    let place ← chart.place length start
    let ⟨size, names, cells⟩ := chart
    return (⟨size, names, cells.modify place fun marks => marks.setIfInBounds number true⟩, true)

/-- A token is among the non-terminals of a cell. -/
def contains (chart : Chart) (length start : Nat) (token : Token) : Except Fault Bool := do
  let _ ← chart.place length start
  match chart.names.idxOf? token with
  | some number => chart.marked length start number
  | none => return false

/-- The non-terminals of a cell, in the order of their numbers. -/
def namesAt (chart : Chart) (length start : Nat) : Except Fault (List Token) := do
  let marks ← chart.cell length start
  return ((chart.names.zip marks.toList).filter Prod.snd).map Prod.fst

/-- The non-terminals of a cell between braces. -/
def renderCell (chart : Chart) (length start : Nat) : Except Fault Text := do
  let names ← chart.namesAt length start
  return [' ', '\x7b'] ++ Text.joined [',', ' '] (names.map Token.text) ++ ['\x7d']

/-- The cells of one length on a line. -/
def renderRow (chart : Chart) (length : Nat) : Except Fault Text := do
  let cells ← (List.range (chart.size - length + 1)).mapM (chart.renderCell length)
  return Text.decimal length ++ [':'] ++ cells.flatten ++ ['\n']

/-- One line per length, the longest first. -/
def render (chart : Chart) : Except Fault Text := do
  let rows ← (List.range (chart.size + 1)).reverse.mapM chart.renderRow
  return rows.flatten

end Chart
end PhraseStructure
