import Sheetwright.Datum.Yaml.Cursor
/-!
# YAML text

Reading a datum from YAML: maps and lists, by indentation or between brackets, of plain words and
quoted texts. Anchors, tags, block texts and keys behind a question mark are not read.
-/

namespace Sheetwright.Datum.Yaml

/-! ## Between brackets -/

def isKey : Datum → Bool
  | .list _ | .map _ => false
  | _ => true

/-- The number of steps that suffice for what follows a place. -/
def Cursor.fuel (c : Cursor) : Nat := c.rest.length + 1

/-- The place at the colon after a key that was read from `start`; both are on one line. -/
def colon? (start next : Cursor) : Option Cursor :=
  let next := next.skip
  if next.rest.head? = some ':' && next.line = start.line then some (next.advance 1) else none

mutual

def readFlow : (fuel : Nat) → Cursor → Option (Datum × Cursor)
  | 0, _ => none
  | fuel + 1, c =>
    match c.rest with
    | '\x7b' :: _ => do
      let (entries, next) ← readFlowEntries fuel (c.advance 1).skip
      return (.map (mapOf entries), next)
    | '[' :: _ => do
      let (items, next) ← readFlowItems fuel (c.advance 1).skip
      return (.list items, next)
    | '"' :: _ => do
      let (s, next) ← (c.advance 1).readQuoted '"' c.fuel []
      return (.text (String.ofList s), next)
    | '\'' :: _ => do
      let (s, next) ← (c.advance 1).readQuoted '\'' c.fuel []
      return (.text (String.ofList s), next)
    | _ =>
      if c.beginsPlain true && !c.isDone then do
        let (word, next) := c.readPlain true 0 c.fuel []
        return (← scalar? word, next)
      else none

/-- Reads the value after a colon between brackets; before a comma or a bracket there is none. -/
def readFlowValue : (fuel : Nat) → Cursor → Option (Datum × Cursor)
  | 0, _ => none
  | fuel + 1, c =>
    match c.rest with
    | ',' :: _ | ']' :: _ | '\x7d' :: _ => some (.null, c)
    | _ => readFlow fuel c

/-- Reads the entries of a map up to and with its closing brace. -/
def readFlowEntries : (fuel : Nat) → Cursor → Option (List (Datum × Datum) × Cursor)
  | 0, _ => none
  | fuel + 1, c =>
    match c.rest with
    | '\x7d' :: _ => some ([], c.advance 1)
    | _ => do
      let (key, next) ← readFlow fuel c
      if !isKey key then none
      else
        let (value, next) ← match colon? c next with
          | some after => readFlowValue fuel after.skip
          | none => some (.null, next)
        let next := next.skip
        match next.rest with
        | ',' :: _ =>
          let (entries, last) ← readFlowEntries fuel (next.advance 1).skip
          return ((key, value) :: entries, last)
        | '\x7d' :: _ => return ([(key, value)], next.advance 1)
        | _ => none

/-- Reads the items of a list up to and with its closing bracket; a key and a value alone are a map
of one entry. -/
def readFlowItems : (fuel : Nat) → Cursor → Option (List Datum × Cursor)
  | 0, _ => none
  | fuel + 1, c =>
    match c.rest with
    | ']' :: _ => some ([], c.advance 1)
    | _ => do
      let (item, next) ← readFlow fuel c
      let (item, next) ← match colon? c next with
        | some after => do
          let (value, next) ← readFlowValue fuel after.skip
          if isKey item then some (Datum.map [(item, value)], next) else none
        | none => some (item, next)
      let next := next.skip
      match next.rest with
      | ',' :: _ =>
        let (items, last) ← readFlowItems fuel (next.advance 1).skip
        return (item :: items, last)
      | ']' :: _ => return ([item], next.advance 1)
      | _ => none

end

/-! ## By indentation -/

/-- The place after the colon of a key on a line, if the colon and a blank follow. -/
def blockColon? (start next : Cursor) : Option Cursor :=
  let next := next.skipSpaces
  if next.isSign ':' && next.line = start.line then some (next.advance 1) else none

/-- Reads a word, a quoted text or a datum between brackets; a plain word goes on over lines that
are indented by more than `indent`. -/
def readLeaf (indent : Int) (c : Cursor) : Option (Datum × Cursor) :=
  match c.rest with
  | [] => none
  | d :: _ =>
    if d = '\x7b' || d = '[' || d = '"' || d = '\'' then readFlow (2 * c.fuel) c
    else if c.beginsPlain false then do
      let (word, next) := c.readPlain false (indent + 1) c.fuel []
      return (← scalar? word, next)
    else none

mutual

/-- Reads a datum that stands deeper than `indent`. With `inline` it goes on a line that was begun
before, where neither a map nor a list may begin. With `level` a list may stand at `indent`. -/
def readBlock : (fuel : Nat) → (indent : Int) → (inline level : Bool) → Cursor →
    Option (Datum × Cursor)
  | 0, _, _, _, _ => none
  | fuel + 1, indent, inline, level, c =>
    let column : Int := c.column
    let isList := c.isSign '-'
    if c.isDone || column < indent || (column = indent && !(isList && level)) then some (.null, c)
    else if isList then
      if inline then none
      else do
        let (items, next) ← readItems fuel c.column (level && column = indent) c
        return (.list items, next)
    else do
      let (datum, next) ← readLeaf indent c
      match blockColon? c next with
      | some _ =>
        if inline then none
        else do
          let (entries, next) ← readEntries fuel c.column c
          return (.map (mapOf entries), next)
      | none => return (datum, next.skip)

/-- Reads the entries of a map whose keys stand in a column. -/
def readEntries : (fuel : Nat) → (column : Nat) → Cursor → Option (List (Datum × Datum) × Cursor)
  | 0, _, _ => none
  | fuel + 1, column, c =>
    if c.isDone || c.column < column then some ([], c)
    else if column < c.column then none
    else do
      let (key, next) ← readLeaf column c
      let after ← blockColon? c next
      if !isKey key then none
      else
        let start := after.skip
        let inline := start.line = c.line
        let (value, next) ← readBlock fuel column inline (!inline) start
        let next := next.skip
        if next.line = c.line && !next.isDone then none
        else
          let (entries, last) ← readEntries fuel column next
          return ((key, value) :: entries, last)

/-- Reads the items of a list whose dashes stand in a column; a `level` list ends before what is no
item in that column. -/
def readItems : (fuel : Nat) → (column : Nat) → (level : Bool) → Cursor →
    Option (List Datum × Cursor)
  | 0, _, _, _ => none
  | fuel + 1, column, level, c =>
    if c.isDone || c.column < column then some ([], c)
    else if column < c.column then none
    else if !c.isSign '-' then if level then some ([], c) else none
    else do
      let start := (c.advance 1).skip
      let (item, next) ← readBlock fuel column false false start
      let next := next.skip
      if next.line = c.line && !next.isDone then none
      else
        let (items, last) ← readItems fuel column level next
        return (item :: items, last)

end

/-! ## Documents -/

/-- Nothing but marks that end a document follows. -/
def endsHere : (fuel : Nat) → Cursor → Bool
  | 0, _ => false
  | fuel + 1, c =>
    if c.rest.isEmpty then true
    else if c.mark? = some '.' then
      let next := (c.advance 3).skip
      next.rest.isEmpty || (next.line ≠ c.line && endsHere fuel next)
    else false

def readDocument (c : Cursor) : Option Datum := do
  let (datum, next) ←
    if c.mark? = some '-' then
      let start := (c.advance 3).skip
      readBlock (4 * c.fuel) (-1) (start.line = c.line) false start
    else if c.mark? = some '.' then none
    else readBlock (4 * c.fuel) (-1) false false c
  let next := next.skip
  if endsHere next.fuel next then return datum else none

def read (text : List Char) : Option Datum :=
  if !text.all isAllowed then none
  else
    let text := match text with
      | '\uFEFF' :: rest => rest
      | text => text
    readDocument (Cursor.skip ⟨text, 0, 0⟩)

end Sheetwright.Datum.Yaml
