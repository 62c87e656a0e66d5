import Sheetwright.Record
import Sheetwright.Text.Blank
import Sheetwright.Text.Search
/-!
# Fragments

A fragment is what stands between two semicolons of a record. It gives an attribute when it holds a
known name before an equals sign and a quoted value somewhere after it. Names that are not in the
vocabulary are passed over.
-/

namespace Sheetwright.Record

/-! ## Names before an equals sign -/

/-- A name followed by an equals sign: its letters, its digits and the text after the sign. -/
structure NamedPart where
  letters : List Char
  digits : List Char
  rest : List Char
  deriving Repr, DecidableEq

/-- Reads letters, digits, blanks and an equals sign at the beginning of a text. -/
def namedPart? (text : List Char) : Option NamedPart :=
  let letters := text.takeWhile Char.isAlpha
  let afterLetters := text.dropWhile Char.isAlpha
  let digits := afterLetters.takeWhile Text.isDigit
  let afterDigits := afterLetters.dropWhile Text.isDigit
  match letters, Text.trimStart afterDigits with
  | _ :: _, '=' :: rest => some ⟨letters, digits, rest⟩
  | _, _ => none

/-- What is left after a named part is shorter than the text. -/
theorem namedPart?_length {text : List Char} {part : NamedPart} (h : namedPart? text = some part) :
    part.rest.length < text.length := by
  simp only [namedPart?] at h
  split at h
  · rename_i hrest
    cases h
    have h1 := List.Sublist.length_le (List.dropWhile_sublist (l := text) Char.isAlpha)
    have h2 := List.Sublist.length_le
      (List.dropWhile_sublist (l := text.dropWhile Char.isAlpha) Text.isDigit)
    have h3 := List.Sublist.length_le (List.dropWhile_sublist
      (l := (text.dropWhile Char.isAlpha).dropWhile Text.isDigit) Text.isBlank)
    simp only [Text.trimStart] at hrest
    rw [hrest] at h3
    simp only [List.length_cons] at h3
    show (List.length _ : Nat) < _
    dsimp only
    omega
  · simp at h

/-- The named parts of a text from left to right. A name begins where no ASCII letter or digit
stands before it; `glued` tells whether one does. -/
def namedPartsFrom (glued : Bool) (text : List Char) : List NamedPart :=
  match text with
  | [] => []
  | c :: rest =>
    match _h : if glued then none else namedPart? (c :: rest) with
    | some part => part :: namedPartsFrom false part.rest
    | none => namedPartsFrom c.isAlphanum rest
termination_by text.length
decreasing_by
  · split at _h
    · simp at _h
    · exact namedPart?_length _h
  · simp

def namedParts (fragment : List Char) : List NamedPart := namedPartsFrom false fragment

/-! ## Attributes -/

/-- The first named part whose name is in the vocabulary, with the text after its equals sign. -/
def firstKnown : List NamedPart → Except Text.IntegerFault (Option (AttributeName × List Char))
  | [] => .ok none
  | part :: more => do
    match ← AttributeName.read part.letters part.digits with
    | some name => return some (name, part.rest)
    | none => firstKnown more

/-- Why a fragment gives no attribute. -/
inductive Reason where
  | strayText
  | unterminatedRecord
  | unrecognisedFragment
  | unknownAttribute
  | missingOpeningQuote
  | unterminatedValue
  | emptyBaseType
  deriving Repr, DecidableEq

def Reason.text : Reason → String
  | strayText => "text outside record"
  | unterminatedRecord => "unterminated record"
  | unrecognisedFragment => "unrecognised fragment"
  | unknownAttribute => "unknown attribute"
  | missingOpeningQuote => "missing opening quote"
  | unterminatedValue => "unterminated value"
  | emptyBaseType => "empty base type"

/-- What a fragment gives. -/
inductive Outcome where
  /-- An attribute with its value. -/
  | attribute (name : AttributeName) (value : List Char)
  /-- Nothing, for a reason worth noting. -/
  | dropped (reason : Reason)
  /-- Nothing: the fragment is blank or holds only the deletion mark. -/
  | nothing
  deriving Repr, DecidableEq

def marksDeletion (fragment : List Char) : Bool := Text.holds deleteMarker.toList fragment

def outcome (fragment : List Char) : Except Text.IntegerFault Outcome :=
  match namedParts fragment with
  | [] =>
    .ok (if Text.allBlank fragment || marksDeletion (Text.trim fragment) then .nothing
      else .dropped .unrecognisedFragment)
  | parts => do
    match ← firstKnown parts with
    | none => return .dropped .unknownAttribute
    | some (name, rest) =>
      match Text.after? '"' rest with
      | none => return .dropped .missingOpeningQuote
      | some quoted =>
        match Text.cut? '"' quoted with
        | none => return .dropped .unterminatedValue
        | some (value, _) => return .attribute name value

end Sheetwright.Record
