import Sheetwright.Text.Case
import Sheetwright.Text.Integer
import Sheetwright.Text.Search
/-!
# Titles

Every sheet of a workbook has a title. A title that is already taken, upper and lower case not being
told apart, gets a number: one more than the greatest number that follows the title anywhere in the
list of titles. There is no such number if one of those that follow the title has too many digits to
be read, or if the next one has too many to be written.
-/

namespace Sheetwright.Title

/-- Why a text cannot be a title. -/
inductive Fault where
  | empty
  | invalidCharacter (c : Char)
  /-- A number behind the title cannot be read. -/
  | unreadableNumber (cause : Text.IntegerFault)
  /-- The number that is next cannot be written. -/
  | unwritableNumber
  deriving Repr, DecidableEq

def Fault.message : Fault → String
  | empty => "Title must have at least one character"
  | invalidCharacter c => s!"Invalid character {c} found in sheet title"
  | unreadableNumber cause => cause.message
  | unwritableNumber => Text.overLimit ""

def invalidCharacters : List Char := ['\\', '*', '?', ':', '/', '[', ']']

/-- What makes a text unfit for a title, if anything does. -/
def fault? (title : String) : Option Fault :=
  if title.isEmpty then some .empty
  else (title.toList.find? invalidCharacters.contains).map .invalidCharacter

/-! ## Numbering -/

/-- Two titles that differ in case at most. -/
def same (a b : String) : Bool := Text.lower a.toList == Text.lower b.toList

/-- The text after one comma, if it begins with one. -/
def skipComma : List Char → List Char
  | ',' :: rest => rest
  | text => text

theorem skipComma_suffix (text : List Char) : skipComma text <:+ text := by
  fun_cases skipComma text <;> simp

/-- The digits after each occurrence of a title in a text, from left to right; an occurrence may be
followed by none. The title is given by its first character and the others. -/
def digitsAfter (first : Char) (word : List Char) : List Char → List (List Char)
  | [] => []
  | c :: text =>
    if Text.caseless first = Text.caseless c then
      match _h : Text.afterWord? word text with
      | some rest =>
        rest.takeWhile Text.isDigit ::
          digitsAfter first word (skipComma (rest.dropWhile Text.isDigit))
      | none => digitsAfter first word text
    else digitsAfter first word text
termination_by text => text.length
decreasing_by
  · have h₁ := Text.afterWord?_length _h
    have h₂ := (skipComma_suffix (rest.dropWhile Text.isDigit)).length_le
    have h₃ := (List.dropWhile_sublist (p := Text.isDigit) (l := rest)).length_le
    simp only [List.length_cons]
    omega
  all_goals simp

def readNumber (digits : List Char) : Except Fault Nat :=
  (Text.readDigits digits).mapError .unreadableNumber

/-- One more than the greatest of the numbers found; an occurrence without digits does not count. -/
def nextNumber (found : List (List Char)) : Except Fault Nat := do
  let numbers ← (found.filter fun digits => !digits.isEmpty).mapM readNumber
  return numbers.foldl max 0 + 1

def withNumber (wanted : String) (number : Nat) : Except Fault String :=
  match Text.writeDigits? number with
  | some digits => .ok (wanted ++ String.ofList digits)
  | none => .error .unwritableNumber

/-- The digits behind each occurrence of a title in a list of titles, if the title is taken. -/
def digitsBehind (titles : List String) (wanted : String) : List (List Char) :=
  if titles.any (same wanted) then
    match wanted.toList with
    | [] => []
    | first :: word => digitsAfter first word (",".intercalate titles).toList
  else []

/-- The title that a sheet gets when the wanted one may be taken already. -/
def unused (titles : List String) (wanted : String) : Except Fault String :=
  let found := digitsBehind titles wanted
  if found.isEmpty then .ok wanted else nextNumber found >>= withNumber wanted

end Sheetwright.Title
