import Sheetwright.Text.Blank
import Sheetwright.Text.Digit
import Sheetwright.Text.Quoted
/-!
# Integers in text

Reading an integer from text: blanks around it are ignored, a sign may stand before it, single
underscores may stand between its digits, and the digits may come from any script. More than 4300
digits are refused, whatever their value, and no number that has more is written.
-/

namespace Sheetwright.Text

def digitLimit : Nat := 4300

/-- Why a text is not read as an integer. -/
inductive IntegerFault where
  | malformed (text : String)
  | tooLong (digits : Nat)
  deriving Repr, DecidableEq

/-- What is said of a number with more digits than the limit. -/
def overLimit (detail : String) : String :=
  s!"Exceeds the limit ({digitLimit} digits) for integer string conversion" ++ detail ++
    "; use sys.set_int_max_str_digits() to increase the limit"

def IntegerFault.message : IntegerFault → String
  | .malformed text => s!"invalid literal for int() with base 10: {quoted text}"
  | .tooLong digits => overLimit s!": value has {digits} digits"

/-- Reads a run of digits that is known to hold nothing else. -/
def readDigits (digits : List Char) : Except IntegerFault Nat :=
  if digitLimit < digits.length then .error (.tooLong digits.length) else .ok (numeral digits)

/-- The digits that a number is written with, unless they are more than the limit. -/
def writeDigits? (n : Nat) : Option (List Char) :=
  let digits := decimal n
  if digitLimit < digits.length then none else some digits

/-- The digits of a group in which single underscores may stand between digits. -/
def groupedDigits? : List Char → Option (List Char)
  | [] => none
  | [c] => if isDigit c then some [c] else none
  | c :: '_' :: rest => if isDigit c then (groupedDigits? rest).map (c :: ·) else none
  | c :: rest => if isDigit c then (groupedDigits? rest).map (c :: ·) else none

/-- Reads an integer with blanks, sign, underscores and digits of any script. -/
def readInteger (text : String) : Except IntegerFault Int :=
  let (negative, body) := match trim text.toList with
    | '-' :: rest => (true, rest)
    | '+' :: rest => (false, rest)
    | body => (false, body)
  match groupedDigits? body with
  | none => .error (.malformed text)
  | some digits => (readDigits digits).map fun n => if negative then -(n : Int) else (n : Int)

end Sheetwright.Text
