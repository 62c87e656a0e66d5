import Sheetwright.Datum.Json
import Sheetwright.Text.Line
import Sheetwright.Workbook
/-!
# Stored workbooks

What is left of a workbook when it has been stored and is opened again. Empty cells without a style
are not stored, the empty text comes back as a blank, numbers keep sixteen digits, and the cells of
merged ranges are covered anew.
-/

namespace Sheetwright

open Grid

/-- The number that a text writes; a number without point and exponent is whole. -/
def Grid.Value.ofNumberText (text : List Char) : Value :=
  match Datum.Json.read text with
  | .ok (.int n) => .int n
  | .ok (.float x) => .float x
  | _ => .blank

/-- The number that is left of a number stored with sixteen digits. -/
def Grid.Value.ofStoredNumber (x : Float) : Value :=
  .ofNumberText (Number.sixteenDigitText x).toList

/-- The value that comes back when a value is stored. -/
def Grid.Value.stored : Value → Value
  | .blank => .blank
  | .text s => if s.isEmpty then .blank else .text (String.ofList (Text.unifyNewlines s.toList))
  | .int n => .ofStoredNumber (Number.ofInt n)
  | .float x => .ofStoredNumber x
  | .bool b => .bool b

/-- The cell that comes back when a cell is stored; a blank cell without a style is not stored. -/
def Grid.Cell.stored? (c : Cell) : Option Cell :=
  match c.content with
  | .covered => if c.style.isSet then some { c with content := .entry .number .blank } else none
  | .entry kind value =>
    if value = .blank && !c.style.isSet then none
    else
      let value := value.stored
      some { c with content := .entry (if value = .blank then .number else kind) value }

/-- The sheet that comes back when a sheet is stored. -/
def Grid.Sheet.stored (s : Sheet) : Sheet :=
  let kept : Sheet := { s with cells := s.cells.filterMap fun _ c => c.stored? }
  s.merged.foldl Sheet.cover kept

namespace Workbook

/-- The workbook that comes back when a workbook is stored. -/
def stored (b : Workbook) : Workbook := ⟨b.sheets.map Sheet.stored⟩

/-- The columns without a name in which a sheet has a cell to store. -/
def unnamedColumns (s : Sheet) : List Nat :=
  (s.cells.toList.filter fun (p, c) => lastColumn < p.column && c.stored?.isSome).map
    fun (p, _) => p.column

/-- Why a workbook cannot be stored, if so. -/
def storingFault? (b : Workbook) : Option Document.Fault :=
  match b.sheets.flatMap unnamedColumns with
  | column :: _ => some (.sheet (.unnamedColumn column))
  | [] => if b.sheets.isEmpty then some .nothingToStore else none

end Workbook

end Sheetwright
