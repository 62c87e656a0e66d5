import Sheetwright.Grid.Style
/-!
# Cells

A cell holds a value and a style. The kind of its content is found when a datum is entered: a text
that begins with an equals sign is a formula, and seven texts stand for errors. Of a merged range
only the first cell holds a value; the others are covered and cannot be filled.
-/

namespace Sheetwright.Grid

/-- The value of a cell. -/
inductive Value where
  | blank
  | text (s : String)
  | int (n : Int)
  | float (x : Float)
  | bool (b : Bool)
  deriving Repr, DecidableEq, Inhabited

/-- What a cell holds; a blank cell counts as a number. -/
inductive ValueKind where
  | number
  | text
  | formula
  | boolean
  | error
  deriving Repr, DecidableEq, Inhabited

/-- The content of a cell. -/
inductive Content where
  | entry (kind : ValueKind) (value : Value)
  | covered
  deriving Repr, DecidableEq

/-- A cell with its look. -/
structure Cell where
  content : Content := .entry .number .blank
  style : Style := {}
  deriving Repr, DecidableEq

instance : Inhabited Cell := ⟨{}⟩

def ValueKind.letter : ValueKind → String
  | number => "n"
  | text => "s"
  | formula => "f"
  | boolean => "b"
  | error => "e"

/-! ## Values -/

def Value.datum : Value → Datum
  | blank => .null
  | text s => .text s
  | int n => .int n
  | float x => .float x
  | bool b => .bool b

/-- A value that counts as content of its row: neither blank nor the empty text. -/
def Value.isUsed : Value → Bool
  | blank => false
  | text s => !s.isEmpty
  | _ => true

/-! ## Reading a cell -/

namespace Cell

/-- The value of a cell; a covered cell is blank. -/
def value (c : Cell) : Value :=
  match c.content with
  | .entry _ value => value
  | .covered => .blank

def kind (c : Cell) : ValueKind :=
  match c.content with
  | .entry kind _ => kind
  | .covered => .number

def isCovered (c : Cell) : Bool := c.content = .covered

/-- The cell holds nothing and looks like any other. -/
def isVacant (c : Cell) : Bool := c.value = .blank && !c.style.isSet

/-- The cell without its cover: it keeps its look and is blank. -/
def uncovered (c : Cell) : Cell :=
  match c.content with
  | .covered => { c with content := .entry .number .blank }
  | .entry .. => c

/-! ## Entering a datum -/

/-- The most characters that a cell holds; a longer text is cut. -/
def textLimit : Nat := 32767

/-- A character that no cell can hold: a control character other than tab, line feed and carriage
return. -/
def isIllegal (c : Char) : Bool :=
  let n := c.toNat
  n ≤ 8 || n == 11 || n == 12 || (14 ≤ n && n ≤ 31)

def errorTexts : List String :=
  ["#NULL!", "#DIV/0!", "#VALUE!", "#REF!", "#NAME?", "#NUM!", "#N/A"]

def textKind (s : String) : ValueKind :=
  match s.toList with
  | '=' :: _ :: _ => .formula
  | _ => if errorTexts.contains s then .error else .text

/-- The text as far as a cell holds it. -/
def cut (s : String) : String :=
  if s.length ≤ textLimit then s else String.ofList (s.toList.take textLimit)

def set (kind : ValueKind) (value : Value) : EStateM Fault Cell Unit :=
  modify fun c => { c with content := .entry kind value }

/-- Sets the kind of a cell and refuses the value; the old value stays. -/
def refuse (kind : ValueKind) (fault : Fault) : EStateM Fault Cell Unit := do
  modify fun c => { c with content := .entry kind c.value }
  throw fault

def enter (d : Datum) : EStateM Fault Cell Unit := do
  if (← get).isCovered then throw .covered
  match d with
  | .null => set .number .blank
  | .bool b => set .boolean (.bool b)
  | .int n => set .number (.int n)
  | .float x => set .number (.float x)
  | .text s =>
    let s := cut s
    if s.toList.any isIllegal then refuse .text (.illegalText s)
    else set (textKind s) (.text s)
  | .list _ | .map _ => refuse .number (.unsupported d)

end Cell

end Sheetwright.Grid
