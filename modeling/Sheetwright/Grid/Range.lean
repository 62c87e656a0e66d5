import Sheetwright.Grid.Fault
import Sheetwright.Grid.Position
/-!
# Ranges

A range is a rectangle of cells. Its first cell, top left, is its anchor.
-/

namespace Sheetwright.Grid

/-- A rectangle of cells, given by its outer rows and columns. -/
structure Range where
  minRow : Nat
  minColumn : Nat
  maxRow : Nat
  maxColumn : Nat
  row_le : minRow ≤ maxRow
  column_le : minColumn ≤ maxColumn
  deriving Repr, DecidableEq

namespace Range

def bound (greatest : Nat) (n : Int) : Except Fault Nat :=
  if n < 1 then .error .boundTooLow
  else if (greatest : Int) < n then .error (.boundTooHigh greatest)
  else .ok n.toNat

def ofBounds (minRow minColumn maxRow maxColumn : Int) : Except Fault Range := do
  let left ← bound Grid.lastColumn minColumn
  let top ← bound Grid.lastRow minRow
  let right ← bound Grid.lastColumn maxColumn
  let bottom ← bound Grid.lastRow maxRow
  if hc : left ≤ right then
    if hr : top ≤ bottom then return ⟨top, left, bottom, right, hr, hc⟩
    else throw (.reversedRange top bottom)
  else throw (.reversedRange left right)

def span (first last : Nat) : List Nat := List.range' first (last + 1 - first)

def rows (r : Range) : List Nat := span r.minRow r.maxRow

def columns (r : Range) : List Nat := span r.minColumn r.maxColumn

def anchor (r : Range) : Position := ⟨r.minRow, r.minColumn⟩

def corner (r : Range) : Position := ⟨r.maxRow, r.maxColumn⟩

/-- The cells of the range, row by row. -/
def positions (r : Range) : List Position :=
  r.rows.flatMap fun row => r.columns.map fun column => ⟨row, column⟩

/-- The cells of the range but the first. -/
def rest (r : Range) : List Position := r.positions.drop 1

def contains (r : Range) (p : Position) : Bool :=
  r.minRow ≤ p.row && p.row ≤ r.maxRow && r.minColumn ≤ p.column && p.column ≤ r.maxColumn

def covers (r other : Range) : Bool :=
  r.minRow ≤ other.minRow && other.maxRow ≤ r.maxRow &&
    r.minColumn ≤ other.minColumn && other.maxColumn ≤ r.maxColumn

end Range

end Sheetwright.Grid
