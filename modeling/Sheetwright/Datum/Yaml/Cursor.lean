import Sheetwright.Datum.Yaml.Scalar
/-!
# Places in a YAML text

Reading goes on from a place, which knows its line and column since both carry meaning: a key and
its colon stand on one line, and columns tell what belongs together. Here are the parts that hold no
further parts: blanks with comments, document marks, plain words and quoted texts.
-/

namespace Sheetwright.Datum.Yaml

/-- A place in a text. -/
structure Cursor where
  rest : List Char
  line : Nat
  column : Nat
  deriving Repr, DecidableEq

/-- A character that ends a line. -/
def isBreak (c : Char) : Bool :=
  c = '\n' || c = '\r' || c.toNat = 0x85 || c.toNat = 0x2028 || c.toNat = 0x2029

def isBlankOrEnd : List Char → Bool
  | [] => true
  | c :: _ => c = ' ' || c = '\t' || isBreak c

/-- The characters that a text may hold. -/
def isAllowed (c : Char) : Bool :=
  let n := c.toNat
  n = 9 || n = 10 || n = 13 || (32 ≤ n && n ≤ 0x7E) || n = 0x85 || (0xA0 ≤ n && n ≤ 0xFFFD) ||
    0x10000 ≤ n

namespace Cursor

/-- The place after characters of the same line. -/
def advance (n : Nat) (c : Cursor) : Cursor :=
  { c with rest := c.rest.drop n, column := c.column + n }

/-- Skips blanks and line ends, and comments up to the end of their line. -/
def skipFrom (inComment : Bool) (line column : Nat) : List Char → Cursor
  | [] => ⟨[], line, column⟩
  | c :: rest =>
    if isBreak c then skipFrom false (line + 1) 0 rest
    else if inComment || c = ' ' || c = '#' then
      skipFrom (inComment || c = '#') line (column + 1) rest
    else ⟨c :: rest, line, column⟩

/-- Skips blanks, line ends and comments. -/
def skip (c : Cursor) : Cursor := skipFrom false c.line c.column c.rest

def skipSpaces (c : Cursor) : Cursor := c.advance (c.rest.takeWhile (· = ' ')).length

/-- The mark at the start of a line that begins or ends a document, if one stands here. -/
def mark? (c : Cursor) : Option Char :=
  match c.column, c.rest with
  | 0, '-' :: '-' :: '-' :: rest => if isBlankOrEnd rest then some '-' else none
  | 0, '.' :: '.' :: '.' :: rest => if isBlankOrEnd rest then some '.' else none
  | _, _ => none

/-- Nothing more of the document follows. -/
def isDone (c : Cursor) : Bool := c.rest.isEmpty || c.mark?.isSome

/-- A character that has a meaning of its own, with a blank behind it. -/
def isSign (sign : Char) (c : Cursor) : Bool :=
  match c.rest with
  | d :: rest => d = sign && isBlankOrEnd rest
  | [] => false

/-- Skips line ends and the spaces around them, and gathers the line ends; a mark stops it. -/
def skipBreaks (gathered : Nat) (line column : Nat) : List Char → Nat × Cursor
  | [] => (gathered, ⟨[], line, column⟩)
  | c :: rest =>
    if (Cursor.mark? ⟨c :: rest, line, column⟩).isSome then (gathered, ⟨c :: rest, line, column⟩)
    else if isBreak c then skipBreaks (gathered + 1) (line + 1) 0 rest
    else if c = ' ' then skipBreaks gathered line (column + 1) rest
    else (gathered, ⟨c :: rest, line, column⟩)

/-! ## Plain words -/

/-- The characters that part data between brackets. -/
def flowSigns : List Char := [',', '[', ']', '\x7b', '\x7d']

/-- The text begins with a character that parts data between brackets. -/
def isAtFlowSign (text : List Char) : Bool := (text.head?.map flowSigns.contains).getD false

def endsPlain (inFlow : Bool) (c : Char) (after : List Char) : Bool :=
  c = ' ' || c = '\t' || isBreak c ||
    (c = ':' && (isBlankOrEnd after || (inFlow && isAtFlowSign after))) ||
    (inFlow && (c = '?' || flowSigns.contains c))

def plainRun (inFlow : Bool) : List Char → List Char
  | [] => []
  | c :: rest => if endsPlain inFlow c rest then [] else c :: plainRun inFlow rest

/-- The characters with which no plain word begins, unless a blank is missing behind the first
three. -/
def indicators : List Char :=
  ['-', '?', ':', '#', '&', '*', '!', '|', '>', '\'', '"', '%', '@', Char.ofNat 0x60] ++ flowSigns

def beginsPlain (inFlow : Bool) (c : Cursor) : Bool :=
  match c.rest with
  | [] => false
  | d :: rest =>
    !(d = ' ' || d = '\t' || isBreak d || indicators.contains d) ||
      (!isBlankOrEnd rest && (d = '-' || (!inFlow && (d = '?' || d = ':'))))

/-- What joins two parts of a text that line ends part: a space for one, otherwise a line feed for
every further one. -/
def joint (breaks : Nat) : List Char :=
  if breaks = 1 then [' '] else List.replicate (breaks - 1) '\n'

/-- Reads a plain word; it goes on over lines whose column is not below `least`. The word read so
far is given last character first. -/
def readPlain (inFlow : Bool) (least : Int) : (fuel : Nat) → List Char → Cursor → List Char × Cursor
  | 0, read, c => (read.reverse, c)
  | fuel + 1, read, c =>
    let run := plainRun inFlow c.rest
    if run.isEmpty then (read.reverse, c)
    else
      let read := run.reverse ++ read
      let spaces := ((c.advance run.length).rest.takeWhile (· = ' ')).length
      let next := (c.advance run.length).advance spaces
      match next.rest with
      | [] => (read.reverse, next)
      | d :: _ =>
        let (breaks, next) :=
          if isBreak d then skipBreaks 0 next.line next.column next.rest else (0, next)
        let stops := next.isDone || next.rest.head? = some '#' ||
          (breaks = 0 && spaces = 0) || (breaks ≠ 0 && !inFlow && (next.column : Int) < least)
        if stops then (read.reverse, next)
        else
          let joined := if breaks = 0 then List.replicate spaces ' ' else joint breaks
          if (plainRun inFlow next.rest).isEmpty then (read.reverse, next)
          else readPlain inFlow least fuel (joined.reverse ++ read) next

/-! ## Quoted texts -/

/-- The character that an escape of one letter stands for. -/
def escaped? (c : Char) : Option Char :=
  let table : List (Char × Nat) :=
    [('0', 0), ('a', 7), ('b', 8), ('t', 9), ('\t', 9), ('n', 10), ('v', 11), ('f', 12), ('r', 13),
     ('e', 27), (' ', 32), ('"', 34), ('/', 47), ('\\', 92), ('N', 0x85), ('_', 0xA0),
     ('L', 0x2028), ('P', 0x2029)]
  (table.lookup c).map Char.ofNat

/-- The number of hexadecimal digits that an escape asks for. -/
def hexLength? (c : Char) : Option Nat :=
  if c = 'x' then some 2 else if c = 'u' then some 4 else if c = 'U' then some 8 else none

/-- Reads what follows a backslash: the character it stands for and the place after it. -/
def readEscape (c : Cursor) : Option (Char × Cursor) :=
  match c.rest with
  | [] => none
  | d :: rest =>
    match escaped? d, hexLength? d with
    | some e, _ => some (e, c.advance 1)
    | none, some n =>
      let digits := rest.take n
      if digits.length = n && digits.all Text.isHex then
        some (Char.ofNat (inBase 16 digits), c.advance (n + 1))
      else none
    | none, none => none

/-- Skips blanks inside a quoted text and counts line ends; a document mark is not allowed there. -/
def skipFolds (gathered : Nat) (line column : Nat) : List Char → Option (Nat × Cursor)
  | [] => none
  | c :: rest =>
    if (Cursor.mark? ⟨c :: rest, line, column⟩).isSome then none
    else if isBreak c then skipFolds (gathered + 1) (line + 1) 0 rest
    else if c = ' ' || c = '\t' then skipFolds gathered line (column + 1) rest
    else some (gathered, ⟨c :: rest, line, column⟩)

/-- Reads a quoted text whose opening quote was read. The text read so far is given last character
first. -/
def readQuoted (quote : Char) : (fuel : Nat) → List Char → Cursor → Option (List Char × Cursor)
  | 0, _, _ => none
  | fuel + 1, read, c =>
    match c.rest with
    | [] => none
    | d :: rest =>
      if d = quote then
        if quote = '\'' && rest.head? = some '\'' then
          readQuoted quote fuel ('\'' :: read) (c.advance 2)
        else some (read.reverse, c.advance 1)
      else if d = '\\' && quote = '"' then
        if (rest.head?.map isBreak).getD false then do
          let (breaks, next) ← skipFolds 0 c.line (c.column + 1) rest
          readQuoted quote fuel (List.replicate (breaks - 1) '\n' ++ read) next
        else do
          let (e, next) ← readEscape (c.advance 1)
          readQuoted quote fuel (e :: read) next
      else if d = ' ' || d = '\t' || isBreak d then
        let blanks := c.rest.takeWhile fun e => e = ' ' || e = '\t'
        let next := c.advance blanks.length
        if (next.rest.head?.map isBreak).getD true then do
          let (breaks, next) ← skipFolds 0 next.line next.column next.rest
          readQuoted quote fuel ((joint breaks).reverse ++ read) next
        else readQuoted quote fuel (blanks.reverse ++ read) next
      else readQuoted quote fuel (d :: read) (c.advance 1)

end Cursor

end Sheetwright.Datum.Yaml
