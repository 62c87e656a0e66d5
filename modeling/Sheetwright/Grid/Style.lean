import Sheetwright.Grid.Fault
import Sheetwright.Text.Digit
/-!
# Styles

The look of a cell: font, fill, border, alignment, protection and number format. A cell that was
never styled has the default style.
-/

namespace Sheetwright.Grid

/-- A colour, written out or taken from the theme. -/
inductive Color where
  | written (argb : String)
  | theme (index : Nat)
  deriving Repr, DecidableEq

/-- A colour written in eight hexadecimal digits, or in six with a transparency of zero. -/
def Color.ofText (text : String) : Except Fault Color :=
  if !text.toList.all Text.isHex then .error .invalidColor
  else if text.length = 8 then .ok (.written text)
  else if text.length = 6 then .ok (.written ("00" ++ text))
  else .error .invalidColor

/-- A font; what it leaves open is unset. -/
structure Font where
  name : Option String := none
  size : Option Float := none
  bold : Bool := false
  italic : Bool := false
  color : Option Color := none
  deriving Repr, DecidableEq

/-- The fill of a cell. -/
structure Fill where
  pattern : Option String := none
  color : Color := .written "00000000"
  deriving Repr, DecidableEq

def Fill.solid (color : Color) : Fill := ⟨some "solid", color⟩

/-- The lines around a cell. -/
structure Border where
  left : Option String := none
  right : Option String := none
  top : Option String := none
  bottom : Option String := none
  deriving Repr, DecidableEq

/-- The border that takes from another the sides it has no line on. -/
def Border.orElse (b other : Border) : Border where
  left := b.left <|> other.left
  right := b.right <|> other.right
  top := b.top <|> other.top
  bottom := b.bottom <|> other.bottom

/-- Where the content of a cell stands. -/
structure Alignment where
  horizontal : Option String := none
  vertical : Option String := none
  wrap : Option Bool := none
  deriving Repr, DecidableEq

/-- The font that a new workbook gives every cell. -/
def Font.standard : Font := { name := some "Calibri", size := some 11, color := some (.theme 1) }

/-- The look of a cell. A cell without a font of its own has the one that its workbook gives every
cell. -/
structure Style where
  font : Option Font := none
  fill : Fill := {}
  border : Border := {}
  alignment : Alignment := {}
  locked : Bool := true
  format : String := "General"
  deriving Repr, DecidableEq

instance : Inhabited Style := ⟨{}⟩

/-- The cell was given a look of its own. -/
def Style.isSet (s : Style) : Bool := s ≠ {}

/-! ## As text -/

/-- A measure: a whole one has no fraction. -/
def measureText (x : Float) : String :=
  match Number.whole? x with
  | some n => toString n
  | none => Number.shortestText x

def orDash (word : Option String) : String := word.getD "-"

def Color.text : Color → String
  | written argb => argb
  | theme index => s!"theme:{index}"

def Font.text (f : Font) : String :=
  let name := f.name.getD "None"
  let size := (f.size.map measureText).getD "None"
  let marks := (if f.bold then "b" else "-") ++ (if f.italic then "i" else "-")
  " ".intercalate ["font", name, size, marks, orDash (f.color.map Color.text)]

def Fill.text (f : Fill) : String := " ".intercalate ["fill", orDash f.pattern, f.color.text]

def Border.text (b : Border) : String :=
  "border " ++ ",".intercalate ([b.left, b.right, b.top, b.bottom].map orDash)

def Alignment.text (a : Alignment) : String :=
  " ".intercalate ["align", orDash a.horizontal, orDash a.vertical,
    if a.wrap = some true then "wrap" else "-"]

def Style.text (s : Style) : String :=
  "; ".intercalate [(s.font.getD .standard).text, s.fill.text, s.border.text, s.alignment.text,
    if s.locked then "locked" else "unlocked", "fmt " ++ s.format]

end Sheetwright.Grid
