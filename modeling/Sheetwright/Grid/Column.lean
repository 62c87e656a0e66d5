import Sheetwright.Text.Case
/-!
# Column names

Columns are numbered from one and named by letters: `A` to `Z`, then `AA` and on to `ZZZ`. The name
is the number in base 26 with digits from 1 to 26, so every column has one name and every name of
one to three letters is a column.
-/

namespace Sheetwright.Grid

/-- The number of the last column that has a name, `ZZZ`. -/
def lastColumn : Nat := 18278

/-- The letter of a digit from 1 to 26. -/
def columnLetter (digit : Nat) : Char := Char.ofNat (64 + digit)

/-- The letters of a column number; zero has none. -/
def columnName (column : Nat) : List Char :=
  if column = 0 then []
  else columnName ((column - 1) / 26) ++ [columnLetter ((column - 1) % 26 + 1)]
termination_by column
decreasing_by omega

/-- The value of a capital letter as a digit of a column name. -/
def columnDigit? (c : Char) : Option Nat :=
  if 'A' ≤ c && c ≤ 'Z' then some (c.toNat - 64) else none

def columnNumber? (letters : List Char) : Option Nat :=
  letters.foldlM (fun value c => (columnDigit? c).map (26 * value + ·)) 0

/-- The column named by one to three letters of either case. -/
def columnOfName? (name : List Char) : Option Nat :=
  let letters := Text.upper name
  if name.length ≤ 3 && !letters.isEmpty && letters.length ≤ 3 then columnNumber? letters else none

def nameOfColumn? (column : Int) : Option (List Char) :=
  if 1 ≤ column && column ≤ lastColumn then some (columnName column.toNat) else none

end Sheetwright.Grid
