import Sheetwright.Entries
import Sheetwright.Layout
import Sheetwright.Workbook
/-!
# Templates

A template is a workbook with one sheet: a header, and below it the blocks, each a run of rows that
carry the type of the block in the tag column. Runs copy blocks from it.
-/

namespace Sheetwright.Template

open Grid

/-- Why no template can be made. -/
inductive Fault where
  | title (cause : Title.Fault)
  | sheet (cause : Grid.Fault)
  | rowTooShort (size : Nat)
  | rowTooLong

def Fault.message : Fault → String
  | .title cause => cause.message
  | .sheet cause => cause.message
  | .rowTooShort size => s!"not enough values to unpack (expected 3, got {size})"
  | .rowTooLong => "too many values to unpack (expected 3)"

/-! ## Blocks -/

/-- What a row of a block is for. -/
inductive RowKind where
  | heading
  | input
  | formula
  | pause
  deriving Repr, DecidableEq

/-- The kind that a word names; a row of no other kind holds formulas. -/
def RowKind.ofDatum : Datum → RowKind
  | .text "section" => .heading
  | .text "input" => .input
  | .text "break" => .pause
  | _ => .formula

/-- A row of a block: its identifier, its label and what it is for. -/
structure Row where
  id : Datum
  label : Datum
  kind : RowKind

def Row.ofData : List Datum → Except Fault Row
  | [id, label, kind] => .ok ⟨id, label, .ofDatum kind⟩
  | _ :: _ :: _ :: _ :: _ => .error .rowTooLong
  | data => .error (.rowTooShort data.length)

/-- The blocks of a template by type; each row is given as data. -/
abbrev Blocks := Entries String (List (List Datum))

/-- The blocks of a template that is made without further wishes. -/
def defaultBlocks : Blocks :=
  [("SUB-EV", [row "" "Units" "section", row "AS" "# of units sold" "input"]),
   ("UNITREV-VR", [row "" "Revenue" "section", row "LRA" "Unit revenue" "calc"]),
   ("UNITEXP-VR", [row "" "Expenses" "section", row "LX" "Unit cost" "calc"]),
   ("BR", [row "" "" "break"])]
where
  row (id label kind : String) : List Datum := [.text id, .text label, .text kind]

/-! ## Looks -/

def inputFill : Fill := .solid (.written "FFFFF2CC")

def headerFill : Fill := .solid (.written "FF4472C4")

def headingFill : Fill := .solid (.written "FFF2F2F2")

def font (size : Float) (bold : Bool) (color : Option String) : Font :=
  { name := some "Calibri", size := some size, bold, color := color.map .written }

def titleFont : Font := font 14 true (some "FFFFFFFF")

def headerFont : Font := font 11 true (some "FFFFFFFF")

def headingFont : Font := font 11 true (some "FF4472C4")

def labelFont : Font := font 10 false none

def formulaFont : Font := font 10 false (some "FF1F4E79")

def periodFormat : String := "#,##0"

/-! ## Building -/

def periods : List String := ["M1", "M2", "M3", "M4", "M5", "M6"]

def firstPeriodColumn : Nat := 6

def periodColumns : List Nat := List.range' firstPeriodColumn periods.length

def headerRow (layout : Layout) : Nat := max 1 (layout.dataStartRow - 2)

/-- The header by columns. A period takes the place of what stands in its column, and the column of
assumptions is named only if it has no other name. -/
def headers (layout : Layout) : Entries Nat String :=
  let named := Entries.ofPairs [(1, "ID"), (2, "Label"), (layout.tagColumn, "Code")]
  let named := if named.has layout.assumptionsColumn then named
    else named.put layout.assumptionsColumn "Assumption"
  (periodColumns.zip periods).foldl (fun named (column, period) => named.put column period) named

abbrev Build := EStateM Fault Sheet

def onSheet {α : Type} (action : Sheet.Action α) : Build α := action.adaptExcept .sheet

def letters (column : Nat) : Build (List Char) :=
  match nameOfColumn? column with
  | some name => pure name
  | none => throw (.sheet (.unnamedColumn column))

/-- Enters a datum, unless it is null, and changes the look of its cell. -/
def put (row column : Nat) (datum : Datum) (look : Style → Style) : Build Unit := do
  onSheet (Sheet.write row column datum)
  modify fun s => s.restyle ⟨row, column⟩ look

def writeHeader (layout : Layout) : Build Unit := do
  put 1 1 (.text "Model calculations") fun look =>
    { look with font := titleFont, fill := headerFill }
  (headers layout).forM fun (column, name) =>
    put (headerRow layout) column (.text name) fun look =>
      { look with font := headerFont, fill := headerFill }
  modify fun s => s.setWidth ['B'] 28
  let tag ← letters layout.tagColumn
  modify fun s => s.setWidth tag 14

/-- Writes the cells of a row that belong to the periods. -/
def writePeriods (layout : Layout) (row : Nat) (kind : RowKind) : Build Unit := do
  let assumption ← letters layout.assumptionsColumn
  let border : Border := { bottom := some "thin" }
  periodColumns.forM fun column =>
    match kind with
    | .input => put row column (.int 0) fun look =>
      { look with fill := inputFill, format := periodFormat, border }
    | _ => put row column (.text ("=$" ++ String.ofList assumption ++ toString row)) fun look =>
      { look with font := formulaFont, format := periodFormat, border }

def writeRow (layout : Layout) (row : Nat) (type : String) (data : List Datum) : Build Unit := do
  let r ← match Row.ofData data with
    | .ok r => pure r
    | .error fault => throw fault
  onSheet (Sheet.write row layout.tagColumn (.text type))
  if r.kind = .pause then return
  if r.id.isGiven then onSheet (Sheet.write row 1 r.id)
  if r.kind = .heading then
    put row 2 r.label fun look => { look with font := headingFont, fill := headingFill }
  else
    put row 2 r.label fun look => { look with font := labelFont }
    writePeriods layout row r.kind

def taggedRows (blocks : Blocks) : List (String × List Datum) :=
  blocks.flatMap fun (type, rows) => rows.map fun data => (type, data)

def writeRows (layout : Layout) (row : Nat) : List (String × List Datum) → Build Unit
  | [] => pure ()
  | (type, data) :: rest => do
    writeRow layout row type data
    writeRows layout (row + 1) rest

/-- The title of the template sheet; a new workbook begins with a sheet that has a title already. -/
def sheetTitle (layout : Layout) : Except Fault String :=
  match Title.fault? layout.templateSheet with
  | some fault => .error (.title fault)
  | none =>
    if layout.templateSheet = "Sheet" then .ok "Sheet"
    else (Title.unused ["Sheet"] layout.templateSheet).mapError .title

def build (layout : Layout) (blocks : Blocks) : Except Fault Workbook := do
  let title ← sheetTitle layout
  let write : Build Unit := do
    writeHeader layout
    writeRows layout layout.dataStartRow (taggedRows blocks)
  match write.run { title } with
  | .ok _ s => return ⟨[s]⟩
  | .error fault _ => throw fault

end Sheetwright.Template
