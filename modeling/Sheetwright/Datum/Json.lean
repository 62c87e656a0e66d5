import Sheetwright.Datum
import Sheetwright.Text.Integer
/-!
# JSON text

Reading a datum from JSON. Besides the standard grammar the constants `NaN` and `Infinity` are
accepted. An error names the place where reading stopped by line, column and position.
-/

namespace Sheetwright.Datum.Json

/-- What is wrong at the place where reading stopped. -/
inductive Problem where
  | byteOrderMark
  | value
  | propertyName
  | colon
  | comma
  | extraData
  | unterminatedString
  | controlCharacter
  | escape
  | unicodeEscape
  deriving Repr, DecidableEq

def Problem.text : Problem → String
  | .byteOrderMark => "Unexpected UTF-8 BOM (decode using utf-8-sig)"
  | .value => "Expecting value"
  | .propertyName => "Expecting property name enclosed in double quotes"
  | .colon => "Expecting ':' delimiter"
  | .comma => "Expecting ',' delimiter"
  | .extraData => "Extra data"
  | .unterminatedString => "Unterminated string starting at"
  | .controlCharacter => "Invalid control character at"
  | .escape => "Invalid \\escape"
  | .unicodeEscape => "Invalid \\uXXXX escape"

/-- Why a text is not read. -/
inductive Fault where
  /-- The text breaks the grammar at a position. -/
  | malformed (problem : Problem) (position : Nat)
  /-- A number has too many digits. -/
  | number (fault : Text.IntegerFault)
  deriving Repr, DecidableEq

/-- An error with the place where it stands in the text. -/
structure Error where
  fault : Fault
  line : Nat
  column : Nat
  deriving Repr, DecidableEq

def Fault.placed (text : List Char) : Fault → Error
  | .malformed problem position =>
    let before := text.take position
    let tail := before.reverse.takeWhile (· != '\n')
    ⟨.malformed problem position, before.count '\n' + 1, tail.length + 1⟩
  | fault => ⟨fault, 0, 0⟩

def Error.message (e : Error) : String :=
  match e.fault with
  | .malformed problem position =>
    s!"{problem.text}: line {e.line} column {e.column} (char {position})"
  | .number fault => fault.message

/-! ## Reading -/

/-- The characters still to be read and the position of the first of them. -/
structure Cursor where
  position : Nat
  rest : List Char

/-- Moves over some characters. -/
def Cursor.advance (c : Cursor) (count : Nat) : Cursor :=
  ⟨c.position + count, c.rest.drop count⟩

/-- Moves over the characters that satisfy a test, and returns them. -/
def Cursor.takeWhile (c : Cursor) (p : Char → Bool) : List Char × Cursor :=
  let taken := c.rest.takeWhile p
  (taken, c.advance taken.length)

/-- Moves over white space. -/
def Cursor.skipSpace (c : Cursor) : Cursor := (c.takeWhile Text.isSpace).2

/-- The number written by four hexadecimal digits. -/
def hexFour? (text : List Char) : Option Nat :=
  if text.length = 4 && text.all Text.isHex then some (Text.inBase 16 text) else none

def escaped? : Char → Option Char
  | '"' => some '"'
  | '\\' => some '\\'
  | '/' => some '/'
  | 'b' => some '\x08'
  | 'f' => some '\x0c'
  | 'n' => some '\n'
  | 'r' => some '\r'
  | 't' => some '\t'
  | _ => none

/-- Reads four hexadecimal digits after `\u`; at least one character has to follow them. -/
def readUnicode (c : Cursor) : Except Fault (Nat × Cursor) :=
  if c.rest.length ≤ 4 then .error (.malformed .unicodeEscape (c.position - 1))
  else match hexFour? (c.rest.take 4) with
    | some n => .ok (n, c.advance 4)
    | none => .error (.malformed .unicodeEscape (c.position - 1))

/-- Joins a high and a low surrogate when the second follows the first. -/
def joinSurrogates (high : Nat) (c : Cursor) : Nat × Cursor :=
  match c.rest with
  | '\\' :: 'u' :: more =>
    match hexFour? (more.take 4) with
    | some low =>
      if 0xD800 ≤ high && high ≤ 0xDBFF && 0xDC00 ≤ low && low ≤ 0xDFFF then
        (0x10000 + (high - 0xD800) * 0x400 + (low - 0xDC00), c.advance 6)
      else (high, c)
    | none => (high, c)
  | _ => (high, c)

/-- Reads a string whose opening quote, at `start`, was read. The text read so far is given last
character first. -/
def readString (start : Nat) : (fuel : Nat) → List Char → Cursor → Except Fault (String × Cursor)
  | 0, _, _ => .error (.malformed .unterminatedString start)
  | fuel + 1, read, c =>
    match c.rest with
    | [] => .error (.malformed .unterminatedString start)
    | '"' :: _ => .ok (String.ofList read.reverse, c.advance 1)
    | '\\' :: 'u' :: _ => do
      let (n, next) ← readUnicode (c.advance 2)
      let (n, next) := joinSurrogates n next
      readString start fuel (Char.ofNat n :: read) next
    | ['\\'] => .error (.malformed .unterminatedString start)
    | '\\' :: e :: _ =>
      match escaped? e with
      | some character => readString start fuel (character :: read) (c.advance 2)
      | none => .error (.malformed .escape c.position)
    | d :: _ =>
      if d.toNat < 32 then .error (.malformed .controlCharacter c.position)
      else readString start fuel (d :: read) (c.advance 1)

/-- Reads a number; the sign was looked at but not read. -/
def readNumber (c : Cursor) : Except Fault (Datum × Cursor) :=
  let (negative, body) := match c.rest with
    | '-' :: _ => (true, c.advance 1)
    | _ => (false, c)
  let (digits, afterDigits) := match body.rest with
    | '0' :: _ => (['0'], body.advance 1)
    | _ => body.takeWhile Char.isDigit
  if digits.isEmpty then .error (.malformed .value c.position)
  else
    let (fraction, afterFraction) := match afterDigits.rest with
      | '.' :: d :: _ =>
        if d.isDigit then (afterDigits.advance 1).takeWhile Char.isDigit else ([], afterDigits)
      | _ => ([], afterDigits)
    let (exponent, afterExponent) := match afterFraction.rest with
      | e :: more =>
        let (minus, signs) := match more with
          | '-' :: _ => (true, 1)
          | '+' :: _ => (false, 1)
          | _ => (false, 0)
        let (power, next) := (afterFraction.advance (1 + signs)).takeWhile Char.isDigit
        if (e == 'e' || e == 'E') && !power.isEmpty then
          let n : Int := Text.numeral power
          (some (if minus then -n else n), next)
        else (none, afterFraction)
      | [] => (none, afterFraction)
    if fraction.isEmpty && exponent.isNone then
      match Text.readDigits digits with
      | .ok n => .ok (.int (if negative then -(n : Int) else n), afterExponent)
      | .error fault => .error (.number fault)
    else
      let x := Number.ofDecimal negative (Text.numeral (digits ++ fraction))
        (exponent.getD 0 - fraction.length)
      .ok (.float x, afterExponent)

def constants : List (List Char × Datum) :=
  [("null".toList, .null), ("true".toList, .bool true), ("false".toList, .bool false),
   ("NaN".toList, .float (0.0 / 0.0)), ("Infinity".toList, .float (1.0 / 0.0)),
   ("-Infinity".toList, .float (-1.0 / 0.0))]

mutual

def readValue : (fuel : Nat) → Cursor → Except Fault (Datum × Cursor)
  | 0, c => .error (.malformed .value c.position)
  | fuel + 1, c =>
    match c.rest with
    | '"' :: _ => do
      let (s, next) ← readString c.position (c.rest.length + 1) [] (c.advance 1)
      return (.text s, next)
    | '\x7b' :: _ =>
      let body := (c.advance 1).skipSpace
      match body.rest with
      | '\x7d' :: _ => .ok (.map [], body.advance 1)
      | _ => do
        let (entries, next) ← readEntries fuel body
        return (.map (mapOf entries), next)
    | '[' :: _ =>
      let body := (c.advance 1).skipSpace
      match body.rest with
      | ']' :: _ => .ok (.list [], body.advance 1)
      | _ => do
        let (items, next) ← readItems fuel body
        return (.list items, next)
    | _ => match constants.find? fun (word, _) => word.isPrefixOf c.rest with
      | some (word, datum) => .ok (datum, c.advance word.length)
      | none => readNumber c

/-- Reads the items of a list up to and with its closing bracket. -/
def readItems : (fuel : Nat) → Cursor → Except Fault (List Datum × Cursor)
  | 0, c => .error (.malformed .value c.position)
  | fuel + 1, c => do
    let (item, next) ← readValue fuel c
    let next := next.skipSpace
    match next.rest with
    | ']' :: _ => return ([item], next.advance 1)
    | ',' :: _ =>
      let (items, last) ← readItems fuel (next.advance 1).skipSpace
      return (item :: items, last)
    | _ => throw (.malformed .comma next.position)

/-- Reads the entries of a map up to and with its closing brace. -/
def readEntries : (fuel : Nat) → Cursor → Except Fault (List (Datum × Datum) × Cursor)
  | 0, c => .error (.malformed .propertyName c.position)
  | fuel + 1, c => do
    match c.rest with
    | '"' :: _ =>
      let (key, next) ← readString c.position (c.rest.length + 1) [] (c.advance 1)
      let next := next.skipSpace
      match next.rest with
      | ':' :: _ =>
        let (value, next) ← readValue fuel (next.advance 1).skipSpace
        let next := next.skipSpace
        match next.rest with
        | '\x7d' :: _ => return ([(.text key, value)], next.advance 1)
        | ',' :: _ =>
          let (entries, last) ← readEntries fuel (next.advance 1).skipSpace
          return ((.text key, value) :: entries, last)
        | _ => throw (.malformed .comma next.position)
      | _ => throw (.malformed .colon next.position)
    | _ => throw (.malformed .propertyName c.position)

end

def readAll (text : List Char) : Except Fault Datum :=
  match text with
  | '\uFEFF' :: _ => .error (.malformed .byteOrderMark 0)
  | _ => do
    let (datum, next) ← readValue (2 * text.length + 2) (Cursor.skipSpace ⟨0, text⟩)
    let next := next.skipSpace
    if next.rest.isEmpty then return datum else throw (.malformed .extraData next.position)

def read (text : List Char) : Except Error Datum := (readAll text).mapError (·.placed text)

end Sheetwright.Datum.Json
