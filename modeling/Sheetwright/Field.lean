import Sheetwright.Datum
import Sheetwright.Entries
import Sheetwright.Text.Integer
/-!
# Fields

A field of a model takes a datum and asks for a text, an integer, a truth value or a list. What can
be read without loss is accepted: a whole float or the text of an integer for an integer, `yes` for
a truth value. Every field of a model is checked before the problems are reported, in the order of
the fields.
-/

namespace Sheetwright.Field

/-! ## Problems -/

/-- What is wrong with the datum of a field. -/
inductive Problem where
  | missing
  | frozen
  | notText
  | emptyText
  | notInteger
  | notIntegerText
  | integerTooLong
  | fractional
  | notFinite
  | below (least : Int)
  | notBoolean
  | notBooleanText
  | notList
  | notOneOf (choices : List String)
  | refused (reason : String)
  deriving Repr, DecidableEq

def listChoices : List String → String
  | [] => ""
  | [last] => s!"'{last}'"
  | [first, last] => "'" ++ first ++ "' or '" ++ last ++ "'"
  | first :: rest => "'" ++ first ++ "', " ++ listChoices rest

def Problem.message : Problem → String
  | missing => "Field required"
  | frozen => "Instance is frozen"
  | notText => "Input should be a valid string"
  | emptyText => "String should have at least 1 character"
  | notInteger => "Input should be a valid integer"
  | notIntegerText => "Input should be a valid integer, unable to parse string as an integer"
  | integerTooLong => "Unable to parse input string as an integer, exceeded maximum size"
  | fractional => "Input should be a valid integer, got a number with a fractional part"
  | notFinite => "Input should be a finite number"
  | below least => s!"Input should be greater than or equal to {least}"
  | notBoolean => "Input should be a valid boolean"
  | notBooleanText => "Input should be a valid boolean, unable to interpret input"
  | notList => "Input should be a valid list"
  | notOneOf choices => "Input should be " ++ listChoices choices
  | refused reason => s!"Value error, {reason}"

def Problem.tag : Problem → String
  | missing => "missing"
  | frozen => "frozen_instance"
  | notText => "string_type"
  | emptyText => "string_too_short"
  | notInteger => "int_type"
  | notIntegerText => "int_parsing"
  | integerTooLong => "int_parsing_size"
  | fractional => "int_from_float"
  | notFinite => "finite_number"
  | below _ => "greater_than_equal"
  | notBoolean => "bool_type"
  | notBooleanText => "bool_parsing"
  | notList => "list_type"
  | notOneOf _ => "enum"
  | refused _ => "value_error"

/-- A problem at a place inside a model; the model as a whole has the empty place. -/
structure Error where
  place : List String
  problem : Problem
  deriving Repr, DecidableEq

def Error.message (e : Error) : String :=
  ".".intercalate e.place ++ ": " ++ e.problem.message ++ " [" ++ e.problem.tag ++ "]"

def report (errors : List Error) : String := "\n".intercalate (errors.map Error.message)

/-! ## Reading a datum -/

def text : Datum → Except Problem String
  | .text s => .ok s
  | _ => .error .notText

/-- Reads a text of at least one character. -/
def filledText (d : Datum) : Except Problem String := do
  let s ← text d
  if s.isEmpty then throw .emptyText else return s

/-- White space around the text of a number; the information separators do not count. -/
def isPadding (c : Char) : Bool := Text.isBlank c && !(28 ≤ c.toNat && c.toNat ≤ 31)

def dropZeroFraction (s : List Char) : List Char :=
  let fraction := s.dropWhile (· != '.')
  if (fraction.drop 1).all (· == '0') then s.takeWhile (· != '.') else s

/-- Reads an integer from text: padding around it, a sign, single underscores between ASCII digits
and a fraction of zeros are allowed. -/
def integerText (s : List Char) : Except Problem Int :=
  let inner := ((s.dropWhile isPadding).reverse.dropWhile isPadding).reverse
  let (negative, unsigned) := match inner with
    | '-' :: rest => (true, rest)
    | '+' :: rest => (false, rest)
    | rest => (false, rest)
  let body := dropZeroFraction unsigned
  match if body.all fun c => c.isDigit || c == '_' then Text.groupedDigits? body else none with
  | none => .error .notIntegerText
  | some digits =>
    if Text.digitLimit < digits.length then .error .integerTooLong
    else .ok (if negative then -(Text.numeral digits : Int) else Text.numeral digits)

def integer : Datum → Except Problem Int
  | .int n => .ok n
  | .bool b => .ok (if b then 1 else 0)
  | .text s => integerText s.toList
  | .float x =>
    if !Number.isFinite x then .error .notFinite
    else match Number.whole? x with
      | none => .error .fractional
      | some n => if n.natAbs < Nat.pow 2 63 then .ok n else .error .integerTooLong
  | _ => .error .notInteger

/-- Reads an integer that is not below a least one. -/
def integerFrom (least : Int) (d : Datum) : Except Problem Int := do
  let n ← integer d
  if n < least then throw (.below least) else return n

/-- The words for true and for false, in lower case. -/
def trueWords : List String := ["1", "true", "t", "yes", "y", "on"]

def falseWords : List String := ["0", "false", "f", "no", "n", "off"]

/-- Reads a truth value. -/
def boolean : Datum → Except Problem Bool
  | .bool b => .ok b
  | .text s =>
    let word := String.ofList (s.toList.map Char.toLower)
    if trueWords.contains word then .ok true
    else if falseWords.contains word then .ok false
    else .error .notBooleanText
  | .int n => ofNumber n
  | .float x => match Number.whole? x with
    | some n => ofNumber n
    | none => .error .notBoolean
  | _ => .error .notBoolean
where
  /-- One is true and zero is false. -/
  ofNumber (n : Int) : Except Problem Bool :=
    if n = 1 then .ok true else if n = 0 then .ok false else .error .notBooleanText

/-! ## Checking a model -/

/-- A check that gathers errors and always goes on, with a stand-in for a refused value. -/
abbrev Check := StateM (List Error)

def note {α : Type} (place : List String) (standIn : α) : Except Problem α → Check α
  | .ok value => pure value
  | .error problem => do
    modify (· ++ [⟨place, problem⟩])
    return standIn

/-- Reads the field of a name from arguments, or takes its default; a field without a default has to
be given. -/
def argument {α : Type} [Inhabited α] (arguments : Entries String Datum) (name : String)
    (default? : Option α) (read : Datum → Except Problem α) : Check α :=
  match arguments.get? name, default? with
  | some datum, _ => note [name] default (read datum)
  | none, some value => pure value
  | none, none => note [name] default (.error .missing)

def Check.result {α : Type} (check : Check α) : Except (List Error) α :=
  match check.run [] with
  | (value, []) => .ok value
  | (_, errors) => .error errors

end Sheetwright.Field
