import Sheetwright.Formula.Relocation
import Sheetwright.Workbook.Package.Styles
import Sheetwright.Workbook.Stored
/-!
# Sheet parts

The part of a workbook file that holds one sheet: the widths of its columns, its rows with their
heights and cells, and its merged ranges. A cell carries its content in one of several forms by
kind.
-/

namespace Sheetwright.Package

open Grid Xml

/-! ## Writing -/

def writeText (s : String) : Xml := element "t" [("xml:space", "preserve")] [.text s]

/-- The content of a cell: the name of its form, and the parts that hold it. -/
def writeContent (kind : ValueKind) (value : Value) : Option String × List Xml :=
  let plain (s : String) : List Xml := [element "v" [] [.text s]]
  match kind, value with
  | _, .blank => (none, [])
  | .formula, .text s => (none, [element "f" [] [.text (String.ofList (s.toList.drop 1))]])
  | .error, .text s => (some "e", plain s)
  | _, .text s => (some "inlineStr", [element "is" [] [writeText s]])
  | _, .int n => (none, plain (Number.sixteenDigitText (Number.ofInt n)))
  | _, .float x => (none, plain (Number.sixteenDigitText x))
  | _, .bool b => (some "b", plain (if b then "1" else "0"))

def writeCell (styles : List Style) (p : Position) (c : Cell) : Xml :=
  let (form, parts) := writeContent c.kind c.value
  let number := styles.idxOf c.style
  element "c" ([("r", String.ofList p.name)] ++
    (if number = 0 then [] else [("s", toString number)]) ++
    (form.map fun form => ("t", form)).toList) parts

/-- The rows that hold a cell or have a height. -/
def writtenRows (s : Sheet) (cells : List (Position × Cell)) : List Nat :=
  let rows := cells.map fun (p, _) => p.row
  (s.heights.keys.foldl (fun rows row => if rows.contains row then rows else rows ++ [row])
    rows.eraseDups).mergeSort (· ≤ ·)

def writeRow (styles : List Style) (s : Sheet) (cells : List (Position × Cell)) (row : Nat) : Xml :=
  let height := (s.heights.get? row).map fun height =>
    [("ht", measureText height), ("customHeight", "1")]
  element "row" ([("r", toString row)] ++ height.getD [])
    ((cells.filter fun (p, _) => p.row = row).map fun (p, c) => writeCell styles p c)

def writeWidths (s : Sheet) : List Xml :=
  let columns := s.widths.toList.filterMap fun (name, width) =>
    (columnOfName? name.toList).map fun column => leaf "col" [("min", toString column),
      ("max", toString column), ("width", measureText width), ("customWidth", "1")]
  if columns.isEmpty then [] else [element "cols" [] columns]

def rangeName (r : Range) : String :=
  String.ofList r.anchor.name ++ ":" ++ String.ofList r.corner.name

def writeMerged (s : Sheet) : List Xml :=
  if s.merged.isEmpty then []
  else [counted "mergeCells" (s.merged.map fun r => leaf "mergeCell" [("ref", rangeName r)])]

def storedCells (s : Sheet) : List (Position × Cell) :=
  s.cells.toList.filterMap fun (p, c) => c.stored?.map fun c => (p, c)

/-- A sheet whose cells refer to the given styles. -/
def writeSheet (styles : List Style) (s : Sheet) : Xml :=
  let cells := storedCells s
  let rows := (writtenRows s cells).map (writeRow styles s cells)
  element "worksheet" [("xmlns", "http://schemas.openxmlformats.org/spreadsheetml/2006/main")]
    (writeWidths s ++ [element "sheetData" [] rows] ++ writeMerged s)

/-! ## Reading -/

/-- Formulas that other cells share, by number, each with the position it is written for. -/
abbrev SharedFormulas := List (String × Position × List Char)

/-- Reads a formula. One that is shared is written once and moved to the other cells. -/
def readFormula (shared : SharedFormulas) (p : Position) (x : Xml) : List Char × SharedFormulas :=
  let written := '=' :: x.content.toList
  match x.attribute? "t", x.attribute? "si" with
  | some "shared", some number =>
    match shared.lookup number with
    | some (origin, formula) => ((Formula.relocate origin p formula).toOption.getD formula, shared)
    | none => (written, (number, p, written) :: shared)
  | _, _ => (written, shared)

/-- The value that a cell holds when its form is not a formula. -/
def readValue (strings : List String) (form : String) (x : Xml) : ValueKind × Value :=
  let content := ((x.first? "v").map (·.content)).getD ""
  match form with
  | "inlineStr" => (.text, match x.first? "is" with
    | some part => .text part.content
    | none => .blank)
  | "s" => (.text, match content.toNat?.bind fun index => strings[index]? with
    | some s => .text s
    | none => .blank)
  | "str" => (.text, if content.isEmpty then .blank else .text content)
  | "e" => (.error, if content.isEmpty then .blank else .text content)
  | "b" => (.boolean, if content.isEmpty then .blank else .bool (content = "1"))
  | _ => (.number, .ofNumberText content.toList)

def readCell (styles : Array Style) (strings : List String) (shared : SharedFormulas) (x : Xml) :
    Option (Position × Cell) × SharedFormulas :=
  match Position.ofName? ((x.attribute? "r").getD "").toList with
  | none => (none, shared)
  | some p =>
    let style := ((x.number? "s").bind fun number => styles[number]?).getD {}
    match x.first? "f" with
    | some formula =>
      let (written, shared) := readFormula shared p formula
      (some (p, ⟨.entry .formula (.text (String.ofList written)), style⟩), shared)
    | none =>
      let (kind, value) := readValue strings ((x.attribute? "t").getD "n") x
      let kind := if value = .blank then .number else kind
      (some (p, ⟨.entry kind value, style⟩), shared)

def readRange (name : String) : Option Range :=
  match (name.toList.splitOn ':').map Position.ofName? with
  | [some p, some q] => (Range.ofBounds p.row p.column q.row q.column).toOption
  | _ => none

def readSheet (styles : Array Style) (strings : List String) (title : String) (x : Xml) : Sheet :=
  let rows := listed x "sheetData" "row"
  let (cells, _) := (rows.flatMap (·.all "c")).foldl (fun (cells, shared) part =>
    match readCell styles strings shared part with
    | (some (p, c), shared) => ((p, c) :: cells, shared)
    | (none, shared) => (cells, shared)) (([] : List (Position × Cell)), ([] : SharedFormulas))
  let heights := rows.filterMap fun row =>
    match row.number? "r", (row.attribute? "ht").bind readMeasure with
    | some number, some height => some (number, height)
    | _, _ => none
  let widths := (listed x "cols" "col").filterMap fun column =>
    match column.number? "min", (column.attribute? "width").bind readMeasure with
    | some number, some width => some (String.ofList (columnName number), width)
    | _, _ => none
  let merged := (listed x "mergeCells" "mergeCell").filterMap fun part =>
    (part.attribute? "ref").bind readRange
  let s : Sheet :=
    { title, cells := .ofList cells.reverse, heights := .ofList heights, widths := .ofList widths
      merged }
  merged.foldl Sheet.cover s

end Sheetwright.Package
