import Sheetwright.Datum.Json
import Sheetwright.Grid.Style
import Sheetwright.Markup.Xml
/-!
# Style sheets

The part of a workbook file that lists the styles in use. Cells refer to a style by its number, and
a style refers to its font, fill, border and number format in the same way.
-/

namespace Sheetwright.Package

open Grid Xml

/-! ## Writing -/

/-- An element without parts. -/
def leaf (name : String) (attributes : List (String × String)) : Xml := element name attributes []

def counted (name : String) (children : List Xml) : Xml :=
  element name [("count", toString children.length)] children

def writeColor (name : String) : Color → Xml
  | .written argb => leaf name [("rgb", argb)]
  | .theme index => leaf name [("theme", toString index)]

def writeFont (f : Font) : Xml :=
  element "font" [] ((if f.bold then [leaf "b" []] else []) ++
    (if f.italic then [leaf "i" []] else []) ++
    (f.size.map fun size => leaf "sz" [("val", measureText size)]).toList ++
    (f.color.map (writeColor "color")).toList ++
    (f.name.map fun name => leaf "name" [("val", name)]).toList)

def writeFill (f : Fill) : Xml :=
  match f.pattern with
  | some pattern => element "fill" []
      [element "patternFill" [("patternType", pattern)] [writeColor "fgColor" f.color]]
  | none => element "fill" [] [leaf "patternFill" []]

def writeSide (name : String) (line : Option String) : Xml :=
  leaf name (line.map fun style => ("style", style)).toList

def writeBorder (b : Border) : Xml :=
  element "border" [] [writeSide "left" b.left, writeSide "right" b.right, writeSide "top" b.top,
    writeSide "bottom" b.bottom, leaf "diagonal" []]

/-- The number formats that every style sheet knows without listing them. -/
def knownFormats : List (Nat × String) :=
  [(0, "General"), (1, "0"), (2, "0.00"), (3, "#,##0"), (4, "#,##0.00"), (9, "0%"), (10, "0.00%"),
   (11, "0.00E+00"), (12, "# ?/?"), (13, "# ??/??"), (14, "mm-dd-yy"), (15, "d-mmm-yy"),
   (16, "d-mmm"), (17, "mmm-yy"), (18, "h:mm AM/PM"), (19, "h:mm:ss AM/PM"), (20, "h:mm"),
   (21, "h:mm:ss"), (22, "m/d/yy h:mm"), (37, "#,##0_);(#,##0)"), (38, "#,##0_);[Red](#,##0)"),
   (39, "#,##0.00_);(#,##0.00)"), (40, "#,##0.00_);[Red](#,##0.00)"), (45, "mm:ss"),
   (46, "[h]:mm:ss"), (47, "mmss.0"), (48, "##0.0E+0"), (49, "@")]

/-- The number of the first format that a style sheet lists itself. -/
def firstListedFormat : Nat := 164

/-- The number of a format; one that is not known is listed under the number of its style. -/
def formatNumber (format : String) (style : Nat) : Nat :=
  match knownFormats.find? (·.2 = format) with
  | some (number, _) => number
  | none => firstListedFormat + style

/-- The parts of a style that stand with it and are not listed. -/
def writeDetails (s : Style) : List Xml :=
  let a := s.alignment
  let wrap := a.wrap.map fun wrap => ("wrapText", if wrap then "1" else "0")
  let attributes := (a.horizontal.map fun word => ("horizontal", word)).toList ++
    (a.vertical.map fun word => ("vertical", word)).toList ++ wrap.toList
  (if attributes.isEmpty then [] else [leaf "alignment" attributes]) ++
    if s.locked then [] else [leaf "protection" [("locked", "0")]]

/-- The style of a number; its font, fill and border have numbers that follow from its own, the
first font being that of the workbook and the first two fills being fixed. -/
def writeStyle (number : Nat) (s : Style) : Xml :=
  let font := if s.font.isNone then 0 else number
  let fill := if number = 0 then 0 else number + 1
  element "xf" [("numFmtId", toString (formatNumber s.format number)), ("fontId", toString font),
    ("fillId", toString fill), ("borderId", toString number), ("xfId", "0"),
    ("applyAlignment", "1"), ("applyProtection", "1")] (writeDetails s)

/-- The style sheet that lists some styles, the default one first. -/
def writeStyles (styles : List Style) : Xml :=
  let formats := styles.zipIdx.filterMap fun (s, number) =>
    if firstListedFormat ≤ formatNumber s.format number then
      some (leaf "numFmt" [("numFmtId", toString (formatNumber s.format number)),
        ("formatCode", s.format)])
    else none
  let fixedFills := [{}, { pattern := some "gray125" : Fill }]
  let fills := fixedFills ++ (styles.drop 1).map (·.fill)
  element "styleSheet" [("xmlns", "http://schemas.openxmlformats.org/spreadsheetml/2006/main")]
    ((if formats.isEmpty then [] else [counted "numFmts" formats]) ++
      [counted "fonts" (styles.map fun s => writeFont (s.font.getD .standard)),
       counted "fills" (fills.map writeFill),
       counted "borders" (styles.map fun s => writeBorder s.border),
       counted "cellStyleXfs" [leaf "xf" [("numFmtId", "0"), ("fontId", "0"), ("fillId", "0"),
         ("borderId", "0")]],
       counted "cellXfs" (styles.zipIdx.map fun (s, number) => writeStyle number s)])

/-! ## Reading -/

/-- The elements of a name inside a list of that part. -/
def listed (x : Xml) (list name : String) : List Xml :=
  ((x.first? list).map (·.all name)).getD []

def readColor (x : Xml) : Option Color :=
  match x.attribute? "rgb", x.number? "theme" with
  | some argb, _ => some (.written argb)
  | none, some index => some (.theme index)
  | none, none => none

def readMeasure (text : String) : Option Float :=
  match Datum.Json.read text.toList with
  | .ok (.int n) => some (Number.ofInt n)
  | .ok (.float x) => some x
  | _ => none

def falseWords : List String := ["0", "false"]

def isMarked (x : Xml) (name : String) : Bool :=
  match x.first? name with
  | some mark => !falseWords.contains ((mark.attribute? "val").getD "1")
  | none => false

def readFont (x : Xml) : Font :=
  { name := (x.first? "name").bind (·.attribute? "val")
    size := ((x.first? "sz").bind (·.attribute? "val")).bind readMeasure
    bold := isMarked x "b"
    italic := isMarked x "i"
    color := (x.first? "color").bind readColor }

def readFill (x : Xml) : Fill :=
  match x.first? "patternFill" with
  | none => {}
  | some pattern =>
    let kind := (pattern.attribute? "patternType").bind fun word =>
      if word = "none" then none else some word
    { pattern := kind
      color := ((pattern.first? "fgColor").bind readColor).getD ({} : Fill).color }

def readBorder (x : Xml) : Border :=
  let side (name : String) : Option String := (x.first? name).bind (·.attribute? "style")
  ⟨side "left", side "right", side "top", side "bottom"⟩

def readFormats (x : Xml) : List (Nat × String) :=
  (listed x "numFmts" "numFmt").filterMap fun format =>
    match format.number? "numFmtId", format.attribute? "formatCode" with
    | some number, some code => some (number, code)
    | _, _ => none

/-- The style of a cell. The first font is that of the workbook, so it is none of its own. -/
def readStyle (fonts : List Font) (fills : List Fill) (borders : List Border)
    (formats : List (Nat × String)) (x : Xml) : Style :=
  let part {α : Type} (standIn : α) (name : String) (all : List α) : α :=
    ((x.number? name).bind fun index => all[index]?).getD standIn
  let alignment := x.first? "alignment"
  let protection := (x.first? "protection").bind (·.attribute? "locked")
  { font := match x.number? "fontId" with
      | some 0 | none => none
      | some index => fonts[index]?
    fill := part {} "fillId" fills
    border := part {} "borderId" borders
    alignment :=
      { horizontal := alignment.bind (·.attribute? "horizontal")
        vertical := alignment.bind (·.attribute? "vertical")
        wrap := (alignment.bind (·.attribute? "wrapText")).map fun word =>
          word = "1" || word = "true" }
    locked := !falseWords.contains (protection.getD "1")
    format := ((x.number? "numFmtId").bind fun number => formats.lookup number).getD "General" }

/-- Reads the styles that a style sheet lists. -/
def readStyles (x : Xml) : List Style :=
  let fonts := (listed x "fonts" "font").map readFont
  let fills := (listed x "fills" "fill").map readFill
  let borders := (listed x "borders" "border").map readBorder
  (listed x "cellXfs" "xf").map (readStyle fonts fills borders (readFormats x ++ knownFormats))

end Sheetwright.Package
