import Sheetwright.Code.Slots
import Sheetwright.Field
import Sheetwright.Record
/-!
# Codes

A code is a record under the key it has in a collection. Its attributes have become fields: eight
texts, a deletion mark, and four groups of slots. The values a run needs (row identifiers, driver
references, assumption values) are read off these fields.
-/

namespace Sheetwright

/-- One code of a collection. -/
structure Code where
  key : String
  baseType : String
  rawText : String := ""
  timeseries : String := ""
  sections : String := ""
  beginningMonth : String := ""
  financialsDriver : String := ""
  labelRow : String := ""
  columnLabels : String := ""
  driver : String := ""
  assumptions : String := ""
  isDeleted : Bool := false
  labels : Slots Group.label.size := .blank
  fincodes : Slots Group.fincode.size := .blank
  drivers : Slots Group.driver.size := .blank
  rows : Slots Group.row.size := .blank
  deriving Repr, DecidableEq

namespace Code

/-! ## Access -/

/-- The value of a scalar attribute; empty when it was not given. -/
def scalar (c : Code) : Scalar → String
  | .timeseries => c.timeseries
  | .sections => c.sections
  | .beginningMonth => c.beginningMonth
  | .financialsDriver => c.financialsDriver
  | .labelRow => c.labelRow
  | .columnLabels => c.columnLabels
  | .driver => c.driver
  | .assumptions => c.assumptions

def slots (c : Code) : (g : Group) → Slots g.size
  | .label => c.labels
  | .fincode => c.fincodes
  | .driver => c.drivers
  | .row => c.rows

/-- The values of a slot group, each with its index. -/
def filledSlots (c : Code) (g : Group) : List (Nat × String) := (c.slots g).filled

/-- The identifiers of the rows: the first field of each, without blanks, where there is one. -/
def rowIdentifiers (c : Code) : List String :=
  (c.filledSlots .row).filterMap fun (_, row) =>
    let identifier := Text.trim ((row.toList.splitOn '|').headD [])
    if identifier.isEmpty then none else some (String.ofList identifier)

/-- The row identifiers that the drivers refer to. -/
def driverReferences (c : Code) : List String :=
  (c.drivers.values.map Text.trimmed).filter fun reference => !reference.isEmpty

/-- The assumptions between commas, without blanks around each. -/
def assumptionValues (c : Code) : List String :=
  if c.assumptions.isEmpty then []
  else (c.assumptions.toList.splitOn ',').map fun value => String.ofList (Text.trim value)

def attributeItems (c : Code) : List (String × Datum) :=
  let scalars := Scalar.all.filterMap fun s =>
    if (c.scalar s).isEmpty then none else some (s.name, Datum.text (c.scalar s))
  let deleted := if c.isDeleted then [(deleteMarker, Datum.bool true)] else []
  let slots := Group.all.flatMap fun g => (c.filledSlots g).map fun (index, value) =>
    ((AttributeName.slot g index).text, Datum.text value)
  scalars ++ deleted ++ slots

/-! ## From a record -/

/-- A scalar attribute of a record, read as a field; one that is not given is empty. -/
def scalarOf (r : Record) (s : Scalar) (place : String) : Field.Check String :=
  match r.attributes.get? s.name with
  | some value => if value.isGiven then Field.note [place] "" (Field.text value) else pure ""
  | none => pure ""

/-- A group of slots of a record; any value is taken in its plain form. -/
def slotsOf (r : Record) (g : Group) : Slots g.size :=
  Slots.ofFunction fun index =>
    match r.attributes.get? (AttributeName.slot g index).text with
    | some value => if value.isGiven then value.plain else ""
    | none => ""

def ofRecord (key : String) (r : Record) : Except (List Field.Error) Code :=
  Field.Check.result do
    let key ← Field.note ["key"] "" (Field.filledText (.text key))
    return { key
             baseType := r.baseType
             rawText := r.rawText
             timeseries := ← scalarOf r .timeseries "timeseries"
             sections := ← scalarOf r .sections "sections"
             beginningMonth := ← scalarOf r .beginningMonth "beginning_month"
             financialsDriver := ← scalarOf r .financialsDriver "financials_driver"
             labelRow := ← scalarOf r .labelRow "label_row"
             columnLabels := ← scalarOf r .columnLabels "column_labels"
             driver := ← scalarOf r .driver "driver"
             assumptions := ← scalarOf r .assumptions "assumptions"
             isDeleted := r.isDeleted
             labels := slotsOf r .label
             fincodes := slotsOf r .fincode
             drivers := slotsOf r .driver
             rows := slotsOf r .row }

end Code

end Sheetwright
