import Sheetwright.Text.Integer
/-!
# Attribute names

The vocabulary of a code record. Eight names stand for themselves; four groups of names carry an
index, such as `row17`. A name is written in any case and its index in any script, and is known by
one canonical spelling.
-/

namespace Sheetwright

/-- An attribute that occurs once in a record. -/
inductive Scalar where
  | timeseries
  | sections
  | beginningMonth
  | financialsDriver
  | labelRow
  | columnLabels
  | driver
  | assumptions
  deriving Repr, DecidableEq

def Scalar.all : List Scalar :=
  [.timeseries, .sections, .beginningMonth, .financialsDriver, .labelRow, .columnLabels, .driver,
   .assumptions]

def Scalar.name : Scalar → String
  | timeseries => "timeseries"
  | sections => "sections"
  | beginningMonth => "beginningmonth"
  | financialsDriver => "financialsdriver"
  | labelRow => "labelrow"
  | columnLabels => "columnlabels"
  | driver => "driver"
  | assumptions => "assumptions"

/-- A group of attributes told apart by an index. -/
inductive Group where
  | label
  | fincode
  | driver
  | row
  deriving Repr, DecidableEq

def Group.all : List Group := [.label, .fincode, .driver, .row]

/-- The canonical spelling without the index. -/
def Group.name : Group → String
  | label => "label"
  | fincode => "fincode"
  | driver => "driver"
  | row => "row"

/-- The number of slots of a group; indices run from one to it. -/
def Group.size : Group → Nat
  | row => 200
  | _ => 9

/-- The name of an attribute. -/
inductive AttributeName where
  | scalar (s : Scalar)
  | slot (group : Group) (index : Nat)
  deriving Repr, DecidableEq

namespace AttributeName

def text : AttributeName → String
  | scalar s => s.name
  | slot group index => group.name ++ String.ofList (Text.decimal index)

/-- The name meant by a run of ASCII letters and a run of digits, if it is in the vocabulary. The
index is read only after a name that takes one. -/
def read (letters digits : List Char) : Except Text.IntegerFault (Option AttributeName) :=
  let word := String.ofList (letters.map Char.toLower)
  if digits.isEmpty then .ok ((Scalar.all.find? (·.name == word)).map .scalar)
  else match Group.all.find? (·.name == word) with
    | none => .ok none
    | some group =>
      (Text.readDigits digits).map fun index =>
        if 1 ≤ index && index ≤ group.size then some (.slot group index) else none

end AttributeName

end Sheetwright
