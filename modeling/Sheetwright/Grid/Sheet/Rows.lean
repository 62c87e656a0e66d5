import Sheetwright.Grid.Sheet.Merge
import Sheetwright.Text.Blank
/-!
# Rows

Searching a sheet by rows and clearing rows. Both open the cells they read. When rows are cleared
the cells below move up, while formulas, merged ranges and row heights below stay as they are.
-/

namespace Sheetwright.Grid.Sheet

/-! ## Searching -/

def rows (s : Sheet) : List Nat := Range.span 1 s.maxRow

def columns (s : Sheet) : List Nat := Range.span 1 s.maxColumn

/-- The last row that holds a value, or zero; every cell of the sheet is opened. -/
def lastUsedRow : Action Nat := do
  modify fun s => s.allocateBlock s.rows s.columns
  return (← get).lastUsed

/-- The cell at a position holds a tag, apart from blanks around it. -/
def isTagged (s : Sheet) (p : Position) (tag : String) : Bool :=
  match s.value p with
  | .text text => Text.trimmed text = tag
  | _ => false

def ends? : List Nat → Option (Nat × Nat)
  | [] => none
  | first :: rest => some (first, (first :: rest).getLast (by simp))

/-- The first and the last row whose cell in a column holds a tag. Column zero stands for all
columns of the sheet, of which there must be just one. -/
def findTagged (column : Int) (tag : String) : Action (Option (Nat × Nat)) := do
  let s ← get
  if column < 0 then throw .beforeFirst
  else if column = 0 && s.maxColumn ≠ 1 then
    modify fun s => s.allocateBlock [1] s.columns
    throw .severalColumns
  else
    let column := max 1 column.toNat
    modify fun s => s.allocateBlock s.rows [column]
    let s ← get
    return ends? (s.rows.filter fun row => s.isTagged ⟨row, column⟩ tag)

/-! ## Clearing -/

/-- Takes apart merged ranges one after another. -/
def unmergeAll : List Range → Action Unit
  | [] => pure ()
  | r :: rest => do
    unmerge r
    unmergeAll rest

/-- Removes the cells in rows `first` to `last` and moves the cells below up; those below are
allocated first. -/
def deleteRows (first last : Int) : Action Unit := do
  if last < -1 then throw .beforeFirst
  modify fun s =>
    let below := max 1 (last + 1).toNat
    let s := s.allocateBlock (Range.span below s.maxRow) s.columns
    let place (p : Position) : Option Position :=
      if (p.row : Int) < first then some p
      else if (p.row : Int) ≤ last then none
      else some ⟨(p.row - (last - first + 1)).toNat, p.column⟩
    { s with cells := s.cells.foldl (fun cells p c =>
        match place p with
        | some q => cells.insert q c
        | none => cells) ∅ }

/-- Clears rows `first` to `last`: merged ranges that touch them are taken apart, their cells are
removed and their heights forgotten. -/
def clearRows (first last : Int) : Action Unit := do
  if last < first then return
  let s ← get
  unmergeAll (s.merged.filter fun r => (r.minRow : Int) ≤ last && first ≤ (r.maxRow : Int))
  deleteRows first last
  modify fun s => { s with heights := s.heights.filter fun row _ =>
    !(first ≤ (row : Int) && (row : Int) ≤ last) }

end Sheetwright.Grid.Sheet
