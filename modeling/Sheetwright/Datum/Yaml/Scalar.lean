import Sheetwright.Datum
import Sheetwright.Text.Digit
import Sheetwright.Text.Search
/-!
# Plain scalars

What a word of a YAML text stands for when it is not quoted: nothing, a truth value, an integer in
one of several notations, a float, or else the text itself.
-/

namespace Sheetwright.Datum.Yaml

def nullWords : List String := ["", "~", "null", "Null", "NULL"]

def trueWords : List String := ["yes", "Yes", "YES", "true", "True", "TRUE", "on", "On", "ON"]

def falseWords : List String := ["no", "No", "NO", "false", "False", "FALSE", "off", "Off", "OFF"]

/-! ## Integers -/

/-- The number that digits write in a base; underscores do not count. -/
def inBase (base : Nat) (digits : List Char) : Nat := Text.inBase base (digits.filter (· ≠ '_'))

/-- At least one digit of a kind or underscore. -/
def areDigits (isDigit : Char → Bool) (digits : List Char) : Bool :=
  !digits.isEmpty && digits.all fun c => isDigit c || c = '_'

/-- A group of a number to the base sixty: one digit, or two up to 59. -/
def isSixtieth : List Char → Bool
  | [d] => d.isDigit
  | [d, e] => '0' ≤ d && d ≤ '5' && e.isDigit
  | _ => false

/-- A number whose first group begins with a digit other than zero. -/
def isLeading : List Char → Bool
  | d :: rest => '1' ≤ d && d ≤ '9' && rest.all fun c => c.isDigit || c = '_'
  | [] => false

def sixties (groups : List (List Char)) : Nat :=
  groups.foldl (fun value group => 60 * value + inBase 10 group) 0

/-- The number written without a sign. -/
def natural? (digits : List Char) : Option Nat :=
  match digits with
  | ['0'] => some 0
  | '0' :: 'b' :: rest =>
    if areDigits (fun c => c = '0' || c = '1') rest then some (inBase 2 rest) else none
  | '0' :: 'x' :: rest => if areDigits Text.isHex rest then some (inBase 16 rest) else none
  | '0' :: rest =>
    if areDigits (fun c => '0' ≤ c && c ≤ '7') rest then some (inBase 8 rest) else none
  | _ =>
    match digits.splitOn ':' with
    | first :: rest =>
      if isLeading first && rest.all isSixtieth then some (sixties (first :: rest)) else none
    | [] => none

/-- Splits off a sign; the first part tells whether it is a minus. -/
def splitSign : List Char → Bool × List Char
  | '-' :: rest => (true, rest)
  | '+' :: rest => (false, rest)
  | rest => (false, rest)

def integer? (word : List Char) : Option Int :=
  let (negative, digits) := splitSign word
  (natural? digits).map fun n => if negative then -(n : Int) else n

/-! ## Floats -/

/-- The exponent that follows a fraction: nothing, or the letter, a sign and digits. -/
def exponent? : List Char → Option Int
  | [] => some 0
  | e :: sign :: digits =>
    if (e = 'e' || e = 'E') && (sign = '-' || sign = '+') && !digits.isEmpty &&
        digits.all Char.isDigit then
      let n : Int := inBase 10 digits
      some (if sign = '-' then -n else n)
    else none
  | _ => none

def bare (digits : List Char) : List Char := digits.filter (· ≠ '_')

/-- The float with a whole part, a fraction and an exponent. -/
def decimal (negative : Bool) (whole fraction : List Char) (exponent : Int) : Float :=
  Number.ofDecimal negative (inBase 10 (whole ++ fraction)) (exponent - (bare fraction).length)

def isPlace (c : Char) : Bool := c.isDigit || c = '_'

/-- Digits that begin with a digit rather than with an underscore. -/
def beginsWithDigit : List Char → Bool
  | d :: rest => d.isDigit && rest.all isPlace
  | [] => false

/-- The float with a point that stands after a whole part. -/
def pointed? (negative : Bool) (whole rest : List Char) : Option Float :=
  let fraction := rest.takeWhile isPlace
  let tail := rest.dropWhile isPlace
  match whole.splitOn ':' with
  | [_] =>
    if beginsWithDigit whole then (exponent? tail).map (decimal negative whole fraction) else none
  | first :: groups =>
    if beginsWithDigit first && groups.all isSixtieth && tail.isEmpty then
      let seconds := Nat.toDigits 10 (sixties (first :: groups))
      some (decimal negative seconds fraction 0)
    else none
  | [] => none

def float? (word : List Char) : Option Float :=
  let (negative, body) := splitSign word
  let infinity : Float := Number.nearest negative ⟨Nat.pow 2 1100, 1⟩
  if [".inf", ".Inf", ".INF"].contains (String.ofList body) then some infinity
  else if [".nan", ".NaN", ".NAN"].contains (String.ofList word) then some (0.0 / 0.0)
  else match word with
    | '.' :: rest =>
      let fraction := rest.takeWhile isPlace
      if beginsWithDigit fraction then
        (exponent? (rest.dropWhile isPlace)).map (decimal false [] fraction)
      else none
    | _ => (Text.cut? '.' body).bind fun (whole, rest) => pointed? negative whole rest

/-! ## Words -/

/-- What a word stands for; two words have a meaning of their own that no datum has. -/
def scalar? (word : List Char) : Option Datum :=
  let text := String.ofList word
  if text = "<<" || text = "=" then none
  else if nullWords.contains text then some .null
  else if trueWords.contains text then some (.bool true)
  else if falseWords.contains text then some (.bool false)
  else match integer? word, float? word with
    | some n, _ => some (.int n)
    | none, some x => some (.float x)
    | none, none => some (.text text)

end Sheetwright.Datum.Yaml
