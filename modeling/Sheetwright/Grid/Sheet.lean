import Sheetwright.Grid.Cell
import Sheetwright.Grid.Range
/-!
# Sheets

A sheet holds the cells that were ever opened, by position. A cell is allocated when it is opened
for the first time, whether to be read or to be filled, and the extent of a sheet counts allocated
cells. An operation that stops with a fault leaves behind what it did before.
-/

namespace Sheetwright.Grid

/-- A sheet of cells. -/
structure Sheet where
  title : String
  cells : Std.ExtTreeMap Position Cell := ∅
  merged : List Range := []
  heights : Std.ExtTreeMap Nat Float := ∅
  widths : Std.ExtTreeMap String Float := ∅

namespace Sheet

instance : Inhabited Sheet := ⟨{ title := "" }⟩

abbrev Action := EStateM Fault Sheet

/-! ## Reading -/

/-- The cell at a position; one that is not allocated is empty. -/
def cell (s : Sheet) (p : Position) : Cell := s.cells.getD p {}

def value (s : Sheet) (p : Position) : Value := (s.cell p).value

/-- The last row with an allocated cell, at least the first row. -/
def maxRow (s : Sheet) : Nat := s.cells.foldl (fun last p _ => max last p.row) 1

/-- The last column with an allocated cell, at least the first column. -/
def maxColumn (s : Sheet) : Nat := s.cells.foldl (fun last p _ => max last p.column) 1

/-- The last row that holds a value, or zero. -/
def lastUsed (s : Sheet) : Nat :=
  s.cells.foldl (fun last p c => if c.value.isUsed then max last p.row else last) 0

def filledCount (s : Sheet) : Nat :=
  s.cells.foldl (fun count _ c => if c.value = .blank then count else count + 1) 0

/-! ## Opening cells -/

def allocate (s : Sheet) (p : Position) : Sheet := { s with cells := s.cells.insertIfNew p {} }

def allocateBlock (s : Sheet) (rows columns : List Nat) : Sheet :=
  rows.foldl (fun s row => columns.foldl (fun s column => s.allocate ⟨row, column⟩) s) s

/-- The position in a row and column that may lie outside the sheet. -/
def locate (row column : Int) : Except Fault Position :=
  if row < 1 || column < 1 then .error .beforeFirst
  else if (lastRow : Int) < row then .error (.afterLastRow row)
  else .ok ⟨row.toNat, column.toNat⟩

def openCell (row column : Int) : Action Position := do
  match locate row column with
  | .ok p =>
    modify (·.allocate p)
    return p
  | .error fault => throw fault

/-! ## Filling cells -/

def putCell (s : Sheet) (p : Position) (c : Cell) : Sheet := { s with cells := s.cells.insert p c }

def onCell (p : Position) (action : EStateM Fault Cell Unit) : Action Unit := fun s =>
  match action.run (s.cell p) with
  | .ok _ c => .ok () (s.putCell p c)
  | .error fault c => .error fault (s.putCell p c)

/-- Enters a datum in a row and column; null makes the cell blank. -/
def enter (row column : Int) (d : Datum) : Action Unit := do
  let p ← openCell row column
  onCell p (Cell.enter d)

/-- Writes a datum in a row and column; null leaves the old value. -/
def write (row column : Int) (d : Datum) : Action Unit := do
  let p ← openCell row column
  match d with
  | .null => return
  | d => onCell p (Cell.enter d)

def writeColumn (row column : Int) : List Datum → Action Unit
  | [] => pure ()
  | d :: rest => do
    write row column d
    writeColumn (row + 1) column rest

def restyle (s : Sheet) (p : Position) (change : Style → Style) : Sheet :=
  let c := s.cell p
  s.putCell p { c with style := change c.style }

/-- Sets the height of a row; none gives it back its usual one. -/
def setHeight (s : Sheet) (row : Nat) : Option Float → Sheet
  | some height => { s with heights := s.heights.insert row height }
  | none => { s with heights := s.heights.erase row }

def setWidth (s : Sheet) (column : List Char) (width : Float) : Sheet :=
  { s with widths := s.widths.insert (String.ofList column) width }

end Sheet

end Sheetwright.Grid
