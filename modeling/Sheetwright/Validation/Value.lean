import Sheetwright.Text.Blank
import Sheetwright.Text.Case
import Sheetwright.Text.Digit
import Sheetwright.Text.Search
/-!
# Values in record texts

The validator looks for values in the text of a record as it stands: an indexed name, an equals sign
and a quoted value, with blanks around the sign. Row and driver names are found in any case, the
label of a tab only as `label1` or `Label1`. A name that continues a word is no name.
-/

namespace Sheetwright.Validation

/-- A quoted value after an equals sign at the beginning of a text, and the text after it. -/
def assigned? (text : List Char) : Option (List Char × List Char) :=
  match Text.trimStart text with
  | '=' :: rest => match Text.trimStart rest with
    | '"' :: quoted => Text.cut? '"' quoted
    | _ => none
  | _ => none

/-- What is left after a quoted value is no longer than the text. -/
theorem assigned?_length {text value rest : List Char} (h : assigned? text = some (value, rest)) :
    rest.length ≤ text.length := by
  have cutLength : ∀ {s a b : List Char}, Text.cut? '"' s = some (a, b) → b.length ≤ s.length := by
    intro s
    induction s with
    | nil => intro a b hs; simp [Text.cut?] at hs
    | cons c s ih =>
      intro a b hs
      simp only [Text.cut?] at hs
      split at hs
      · cases hs
        simp
      · cases hc : Text.cut? '"' s with
        | none => simp [hc] at hs
        | some pair =>
          obtain ⟨before, after⟩ := pair
          simp only [hc, Option.map_some, Option.some.injEq, Prod.mk.injEq] at hs
          obtain ⟨-, rfl⟩ := hs
          have := ih hc
          simp only [List.length_cons]
          omega
  have trimLength : ∀ s : List Char, (Text.trimStart s).length ≤ s.length := fun s =>
    List.Sublist.length_le (List.dropWhile_sublist _)
  simp only [assigned?] at h
  split at h
  · rename_i afterSign hsign
    split at h
    · rename_i quoted hquote
      have h1 := trimLength text
      have h2 := trimLength afterSign
      have h3 := cutLength h
      rw [hsign] at h1
      rw [hquote] at h2
      simp only [List.length_cons] at h1 h2
      omega
    · simp at h
  · simp at h

/-- A value assigned to an indexed name at the beginning of a text, and the text after it. -/
def indexed? (word text : List Char) : Option (List Char × List Char) :=
  match Text.afterWord? word text with
  | none => none
  | some rest =>
    if (rest.takeWhile Text.isDigit).isEmpty then none
    else assigned? (rest.dropWhile Text.isDigit)

/-- What is left after an indexed value is shorter by at least the word. -/
theorem indexed?_length {word text value rest : List Char}
    (h : indexed? word text = some (value, rest)) : rest.length + word.length ≤ text.length := by
  simp only [indexed?] at h
  split at h
  · simp at h
  · rename_i middle hword
    split at h
    · simp at h
    · have h1 := Text.afterWord?_length hword
      have h2 := assigned?_length h
      have h3 := List.Sublist.length_le (List.dropWhile_sublist (l := middle) Text.isDigit)
      omega

/-- A Latin letter, or a character that is the same as one when case is ignored. -/
def isWordLetter (c : Char) : Bool :=
  'a'.toNat ≤ Text.caseless c && Text.caseless c ≤ 'z'.toNat

/-- The values assigned to a word with an index, from left to right. The flag tells whether a letter
stands before the text. -/
def indexedValuesFrom (word : List Char) (glued : Bool) (text : List Char) : List (List Char) :=
  match text with
  | [] => []
  | c :: rest =>
    match _h : if glued || word.isEmpty then none else indexed? word (c :: rest) with
    | some (value, after) => value :: indexedValuesFrom word false after
    | none => indexedValuesFrom word (isWordLetter c) rest
termination_by text.length
decreasing_by
  · split at _h
    · simp at _h
    · rename_i hword
      have := indexed?_length _h
      have : word ≠ [] := by
        intro hnil
        simp [hnil] at hword
      have : 0 < word.length := List.length_pos_iff.2 this
      omega
  · simp

def rowValues (record : List Char) : List (List Char) :=
  indexedValuesFrom "row".toList false record

def driverValues (record : List Char) : List (List Char) :=
  indexedValuesFrom "driver".toList false record

/-- The first label of a tab, searched from the left. The flag tells whether an ASCII letter stands
before the text. -/
def tabLabelFrom? (glued : Bool) : List Char → Option (List Char)
  | [] => none
  | c :: rest =>
    let found :=
      if glued || !(c == 'l' || c == 'L') || !"abel1".toList.isPrefixOf rest then none
      else
        let tail := rest.drop 5
        if (tail.head?.map Text.isDigit).getD false then none else assigned? tail
    match found with
    | some (value, _) => some value
    | none => tabLabelFrom? c.isAlpha rest

def tabLabel? (record : List Char) : Option (List Char) := tabLabelFrom? false record

/-- The base type of a record text: what stands before the first `;` or `>`. -/
def baseType (record : List Char) : List Char :=
  let opened := match Text.trim record with
    | '<' :: rest => rest
    | body => body
  Text.trim (opened.takeWhile fun c => c != ';' && c != '>')

end Sheetwright.Validation
