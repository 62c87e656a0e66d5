import Sheetwright.Datum
import Sheetwright.Formula.Token
import Sheetwright.Grid.Column
/-!
# Faults of a sheet

What can go wrong when cells are opened, filled, merged or taken apart.
-/

namespace Sheetwright.Grid

/-- Why an operation on a sheet stops. -/
inductive Fault where
  /-- A row or column before the first. -/
  | beforeFirst
  /-- A row after the last. -/
  | afterLastRow (row : Int)
  /-- A column that has no name. -/
  | unnamedColumn (column : Int)
  /-- A datum that no cell can hold. -/
  | unsupported (datum : Datum)
  /-- A text with characters that no cell can hold. -/
  | illegalText (text : String)
  /-- A cell that is covered by a merged range. -/
  | covered
  /-- A cell of a merged range that is not there. -/
  | noCell (row column : Nat)
  /-- A search that runs over several columns. -/
  | severalColumns
  /-- An end of a range that lies before its start. -/
  | reversedRange (start stop : Int)
  /-- A bound of a range that is below one. -/
  | boundTooLow
  /-- A bound of a range that is above the greatest. -/
  | boundTooHigh (greatest : Nat)
  /-- A colour that is not written in hexadecimal digits. -/
  | invalidColor
  /-- A formula that cannot be moved. -/
  | formula (error : Formula.Error)
  deriving Inhabited

def Fault.message : Fault → String
  | beforeFirst => "Row or column values must be at least 1"
  | afterLastRow row =>
    s!"Row numbers must be between 1 and 1048576. Row number supplied was {row}"
  | unnamedColumn column => s!"Invalid column index {column}"
  | unsupported datum => "Cannot convert " ++ datum.display ++ " to Excel"
  | illegalText text => text ++ " cannot be used in worksheets."
  | covered => "'MergedCell' object attribute 'value' is read-only"
  | noCell row column => s!"({row}, {column})"
  | severalColumns => "too many values to unpack (expected 1)"
  | reversedRange start stop => s!"{stop} must be greater than {start}"
  | boundTooLow => "Min value is 1"
  | boundTooHigh greatest => s!"Max value is {greatest}"
  | invalidColor => "Colors must be aRGB hex values"
  | formula error => error.message

end Sheetwright.Grid
