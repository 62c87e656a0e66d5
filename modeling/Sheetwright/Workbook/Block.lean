import Sheetwright.Formula.Relocation
import Sheetwright.Workbook
/-!
# Blocks

A block is some rows of a sheet up to a last column. Copying a block to another row of the same or
of another sheet takes along values, formulas (moved to the new place), styles, row heights and the
merged ranges inside the block. Cells are read and written one after another, row by row, so a copy
within one sheet reads what it has written before.
-/

namespace Sheetwright.Workbook

open Grid

def integers (first last : Int) : List Int :=
  (List.range (last + 1 - first).toNat).map fun (i : Nat) => first + i

/-- A bound that is zero stands for the usual one. -/
def boundOr (usual bound : Int) : Int := if bound = 0 then usual else bound

/-- The value that a cell takes along to another position. -/
def carried (origin dest : Position) (value : Value) : Except Fault Datum :=
  if lastColumn < origin.column then .error (.unnamedColumn origin.column)
  else match value with
    | .text s =>
      match Formula.relocate origin dest s.toList with
      | .ok moved => .ok (.text (String.ofList moved))
      | .error e => .error (.formula e)
    | value => .ok value.datum

/-- Copies a cell `offset` rows further down in a sheet. A covered cell is left out, and a cell
without a style of its own does not touch the style at its new place. -/
def copyCell (source dest : Nat) (offset : Int) (origin : Position) : Action Unit := do
  let c := ((← get).sheet source).cell origin
  if c.isCovered then return
  let target ← onSheet dest (Sheet.openCell (origin.row + offset) origin.column)
  match carried origin target c.value with
  | .error fault => throw (.sheet fault)
  | .ok datum =>
    onSheet dest (Sheet.onCell target (Cell.enter datum))
    if c.style.isSet then
      onSheet dest (modify fun s => s.restyle target fun _ => c.style)

/-- Copies a row of cells; the whole row is opened before. -/
def copyRow (source dest : Nat) (offset : Int) (columns : List Int) (row : Int) : Action Unit := do
  let origins ← columns.mapM fun column => onSheet source (Sheet.openCell row column)
  origins.forM (copyCell source dest offset)

def copyHeight (source dest : Nat) (offset row : Int) : Action Unit := do
  match ((← get).sheet source).heights.get? row.toNat with
  | some height => onSheet dest (modify fun s => s.setHeight (row + offset).toNat (some height))
  | none => return

def copyMerge (dest : Nat) (offset : Int) (r : Range) : Action Unit :=
  onSheet dest (Sheet.mergeBounds (r.minRow + offset) r.minColumn (r.maxRow + offset) r.maxColumn)

/-- Copies rows `first` to `last` of a sheet, up to a last column, to the row `start` and below. -/
def copyBlock (source : Nat) (first last : Int) (dest : Nat) (start lastColumn : Int) :
    Action Unit := do
  let offset := start - first
  let s := (← get).sheet source
  let columns := integers 1 (boundOr s.maxColumn (min lastColumn s.maxColumn))
  let rows := integers (boundOr 1 first) (boundOr s.maxRow last)
  rows.forM (copyRow source dest offset columns)
  (integers first last).forM (copyHeight source dest offset)
  let merged := ((← get).sheet source).merged.filter fun r =>
    first ≤ (r.minRow : Int) && (r.maxRow : Int) ≤ last && (r.maxColumn : Int) ≤ lastColumn
  merged.forM (copyMerge dest offset)

end Sheetwright.Workbook
