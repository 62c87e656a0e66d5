import Sheetwright.Grid.Column
import Sheetwright.Text.Digit
import Std.Data.ExtTreeMap
/-!
# Positions

A position is a row and a column, both counted from one. Positions are ordered row by row, which is
the order in which a sheet is read.
-/

namespace Sheetwright.Grid

def lastRow : Nat := 1048576

/-- The place of a cell. -/
structure Position where
  row : Nat
  column : Nat
  deriving Repr, DecidableEq, Inhabited

namespace Position

/-! ## Order -/

/-- Row by row, and by column within a row. -/
instance : Ord Position := ⟨compareLex (compareOn Position.row) (compareOn Position.column)⟩

instance : Std.TransOrd Position :=
  inferInstanceAs (Std.TransCmp (compareLex (compareOn Position.row) (compareOn Position.column)))

instance : Std.LawfulEqOrd Position where
  eq_of_compare {p q} h := by
    change compareLex (compareOn Position.row) (compareOn Position.column) p q = .eq at h
    have both : p.row = q.row ∧ p.column = q.column := by
      simpa only [compareLex_eq_eq, compareOn, Nat.compare_eq_eq] using h
    cases p
    cases q
    simp_all

/-! ## Names -/

/-- The name of a position, such as `B12`. -/
def name (p : Position) : List Char := columnName p.column ++ Text.decimal p.row

/-- Reads the name of a position: letters, then a number that does not begin with zero. -/
def ofName? (text : List Char) : Option Position :=
  let isRowDigit (c : Char) : Bool := '1' ≤ c && c ≤ '9'
  let letters := text.takeWhile (!isRowDigit ·)
  let digits := text.dropWhile (!isRowDigit ·)
  if digits.isEmpty || !digits.all Char.isDigit then none
  else (columnOfName? letters).map fun column => ⟨Text.numeral digits, column⟩

end Position

end Sheetwright.Grid
