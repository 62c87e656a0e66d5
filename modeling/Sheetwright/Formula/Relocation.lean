import Sheetwright.Formula.Token
import Sheetwright.Grid.Position
/-!
# Relocation of formulas

A formula that is copied to another cell keeps its meaning relative to that cell: every row or
column that is not marked with a dollar sign moves by the distance between the two cells. A
reference that would leave the sheet is refused.
-/

namespace Sheetwright.Formula

open Grid

/-- A distance between two cells. -/
structure Shift where
  rows : Int
  columns : Int
  deriving Repr, DecidableEq

def Shift.between (origin dest : Position) : Shift :=
  ⟨(dest.row : Int) - origin.row, (dest.column : Int) - origin.column⟩

/-! ## Parts of a reference -/

/-- One end of a reference: a text and whether a dollar sign fixes it. -/
structure Anchor where
  fixed : Bool
  text : List Char
  deriving Repr, DecidableEq

def Anchor.render (a : Anchor) : List Char := if a.fixed then '$' :: a.text else a.text

/-- Splits off a dollar sign. -/
def Anchor.ofText : List Char → Anchor
  | '$' :: rest => ⟨true, rest⟩
  | text => ⟨false, text⟩

def isColumnLetter (c : Char) : Bool := c.isAlpha

def isColumnText (text : List Char) : Bool :=
  !text.isEmpty && text.length ≤ 3 && text.all isColumnLetter

/-- One to seven digits of which the first is not zero. -/
def isRowText (text : List Char) : Bool :=
  !text.isEmpty && text.length ≤ 7 && text.all Char.isDigit && text.head? != some '0'

def row? (text : List Char) : Option Anchor :=
  let a := Anchor.ofText text
  if isRowText a.text then some a else none

def column? (text : List Char) : Option Anchor :=
  let a := Anchor.ofText text
  if isColumnText a.text then some a else none

/-- Reads a whole text as a cell: a column followed by a row. -/
def cell? (text : List Char) : Option (Anchor × Anchor) :=
  let start := Anchor.ofText text
  let letters := start.text.takeWhile isColumnLetter
  match isColumnText letters, row? (start.text.dropWhile isColumnLetter) with
  | true, some row => some (⟨start.fixed, letters⟩, row)
  | _, _ => none

/-! ## Moving -/

def moveRow (delta : Int) (a : Anchor) : Except Error (List Char) :=
  if a.fixed then .ok a.render
  else
    let row := (Text.numeral a.text : Int) + delta
    if row ≤ 0 then .error .outOfRange else .ok (Text.decimal row.toNat)

/-- A column moved by a distance; its letters come back in upper case. -/
def moveColumn (delta : Int) (a : Anchor) : Except Error (List Char) :=
  if a.fixed then .ok a.render
  else match columnOfName? a.text with
    | none => .error .outOfRange
    | some column => match nameOfColumn? (column + delta) with
      | none => .error .outOfRange
      | some name => .ok name

/-- One end of a range; a text that names no cell stays as it is. -/
def moveEnd (shift : Shift) (text : List Char) : Except Error (List Char) :=
  match cell? text with
  | none => .ok text
  | some (column, row) => do
    return (← moveColumn shift.columns column) ++ (← moveRow shift.rows row)

/-- A reference split after its last exclamation mark into the sheet it names and the rest. -/
def splitSheet (text : List Char) : List Char × List Char :=
  let rest := (text.reverse.takeWhile (· != '!')).reverse
  if rest.length = text.length then ([], text) else (text.take (text.length - rest.length), rest)

/-- A reference moved by a distance. A defined name does not move and loses the sheet before it. -/
def moveReference (shift : Shift) (text : List Char) : Except Error (List Char) := do
  let (sheet, body) := splitSheet text
  match body.splitOn ':' with
  | [single] =>
    if (cell? single).isNone then return single
    else return sheet ++ (← moveEnd shift single)
  | [start, stop] =>
    match row? start, row? stop with
    | some a, some b => return sheet ++ (← moveRow shift.rows a) ++ ':' :: (← moveRow shift.rows b)
    | _, _ => match column? start, column? stop with
      | some a, some b =>
        return sheet ++ (← moveColumn shift.columns a) ++ ':' :: (← moveColumn shift.columns b)
      | _, _ => return sheet ++ (← moveEnd shift start) ++ ':' :: (← moveEnd shift stop)
  | ends => return sheet ++ [':'].intercalate (← ends.mapM (moveEnd shift))

def Token.move (shift : Shift) : Token → Except Error (List Char)
  | .reference text => moveReference shift text
  | .verbatim text => .ok text

/-- A text moved from one cell to another: a text that begins with an equals sign is a formula and
its references move, any other text stays. The sign alone moves to the empty text. -/
def relocate (origin dest : Position) (text : List Char) : Except Error (List Char) :=
  match text with
  | '=' :: body => do
    let parts ← tokens body
    if parts.isEmpty then return []
    return '=' :: (← parts.mapM (Token.move (Shift.between origin dest))).flatten
  | _ => .ok text

end Sheetwright.Formula
