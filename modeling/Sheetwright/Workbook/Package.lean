import Sheetwright.Archive.Zip
import Sheetwright.Workbook.Package.Sheet
/-!
# Workbook packages

A workbook file is an archive of parts: a list of the sheets with their titles, one part for every
sheet, the styles, and lists that say which part is what and where it is.
-/

namespace Sheetwright.Package

open Grid Xml

/-! ## Names of parts -/

def relations : String := "http://schemas.openxmlformats.org/officeDocument/2006/relationships"

def packages : String := "http://schemas.openxmlformats.org/package/2006/"

def partType (kind : String) : String :=
  "application/vnd.openxmlformats-officedocument.spreadsheetml." ++ kind ++ "+xml"

/-- The name of the part of a sheet, below the folder of the workbook. -/
def sheetPart (number : Nat) : String := s!"worksheets/sheet{number}.xml"

/-! ## Writing -/

def writeTypes (sheets : Nat) : Xml :=
  let override (name kind : String) : Xml :=
    leaf "Override" [("PartName", "/xl/" ++ name), ("ContentType", partType kind)]
  element "Types" [("xmlns", packages ++ "content-types")]
    ([leaf "Default" [("Extension", "rels"),
        ("ContentType", "application/vnd.openxmlformats-package.relationships+xml")],
      leaf "Default" [("Extension", "xml"), ("ContentType", "application/xml")],
      override "workbook.xml" "sheet.main", override "styles.xml" "styles"] ++
      (List.range sheets).map fun index => override (sheetPart (index + 1)) "worksheet")

/-- A list of relations: the kind of each part and where it is. -/
def writeRelations (parts : List (String × String)) : Xml :=
  element "Relationships" [("xmlns", packages ++ "relationships")]
    (parts.zipIdx.map fun ((kind, target), index) => leaf "Relationship"
      [("Id", s!"rId{index + 1}"), ("Type", relations ++ "/" ++ kind), ("Target", target)])

def writeTitles (titles : List String) : Xml :=
  element "workbook" [("xmlns", "http://schemas.openxmlformats.org/spreadsheetml/2006/main"),
    ("xmlns:r", relations)]
    [element "sheets" [] (titles.zipIdx.map fun (title, index) => leaf "sheet"
      [("name", title), ("sheetId", toString (index + 1)), ("r:id", s!"rId{index + 1}")])]

/-- The styles in use, the default one first. -/
def stylesOf (b : Workbook) : List Style :=
  (({} : Style) :: b.sheets.flatMap fun s => (storedCells s).map fun (_, c) => c.style).eraseDups

def parts (b : Workbook) : List (String × Xml) :=
  let styles := stylesOf b
  let numbers := List.range' 1 b.sheets.length
  [("[Content_Types].xml", writeTypes b.sheets.length),
   ("_rels/.rels", writeRelations [("officeDocument", "xl/workbook.xml")]),
   ("xl/workbook.xml", writeTitles b.titles),
   ("xl/_rels/workbook.xml.rels", writeRelations
     (numbers.map (fun number => ("worksheet", sheetPart number)) ++ [("styles", "styles.xml")])),
   ("xl/styles.xml", writeStyles styles)] ++
    (b.sheets.zip numbers).map fun (s, number) => ("xl/" ++ sheetPart number, writeSheet styles s)

def encode (b : Workbook) : List UInt8 :=
  Archive.write ((parts b).map fun (name, x) => ⟨name, Text.encodeUtf8 x.document⟩)

/-! ## Reading -/

def readPart (entries : List Archive.Entry) (name : String) : Option Xml := do
  let entry ← entries.find? (·.name = name)
  Xml.read (← (Text.decodeUtf8 entry.content).toOption)

/-- Where a part is, given what a relation says. -/
def partName (target : String) : String :=
  match target.toList with
  | '/' :: rest => String.ofList rest
  | _ => "xl/" ++ target

/-- The sheets with the names of their parts. -/
def readTitles (x links : Xml) : List (String × String) :=
  let targets := (links.all "Relationship").filterMap fun link =>
    match link.attribute? "Id", link.attribute? "Target" with
    | some id, some target => some (id, target)
    | _, _ => none
  (listed x "sheets" "sheet").filterMap fun sheet =>
    match sheet.attribute? "name", (sheet.attribute? "id").bind fun id => targets.lookup id with
    | some title, some target => some (title, partName target)
    | _, _ => none

def decode (bytes : List UInt8) : Option Workbook := do
  let entries ← Archive.read bytes
  let sheets ← readPart entries "xl/workbook.xml"
  let links ← readPart entries "xl/_rels/workbook.xml.rels"
  let styles := ((readPart entries "xl/styles.xml").map readStyles).getD []
  let strings := match readPart entries "xl/sharedStrings.xml" with
    | some x => (x.all "si").map (·.content)
    | none => []
  let sheets ← (readTitles sheets links).mapM fun (title, part) => do
    return readSheet styles.toArray strings title (← readPart entries part)
  return ⟨sheets⟩

end Sheetwright.Package
