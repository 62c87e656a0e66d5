import Sheetwright.Text.Case
/-!
# Searching

Finding a word or a mark inside a text, and the part of a text that a word or a mark sets off.
-/

namespace Sheetwright.Text

def holds (word : List Char) : List Char → Bool
  | [] => word.isEmpty
  | c :: rest => word.isPrefixOf (c :: rest) || holds word rest

/-- The text after the first occurrence of a character. -/
def after? (mark : Char) : List Char → Option (List Char)
  | [] => none
  | c :: rest => if c = mark then some rest else after? mark rest

/-- The text before the first occurrence of a character, and the text after it. -/
def cut? (mark : Char) : List Char → Option (List Char × List Char)
  | [] => none
  | c :: rest =>
    if c = mark then some ([], rest)
    else (cut? mark rest).map fun (before, after) => (c :: before, after)

/-- The text after a word that begins it, whatever the case of its letters. -/
def afterWord? : (word text : List Char) → Option (List Char)
  | [], text => some text
  | w :: word, c :: rest =>
    if caseless c = caseless w then afterWord? word rest else none
  | _ :: _, [] => none

/-- What is left after a word is as much shorter as the word is long. -/
theorem afterWord?_length {word text rest : List Char} (h : afterWord? word text = some rest) :
    rest.length + word.length = text.length := by
  induction word generalizing text with
  | nil => simp only [afterWord?, Option.some.injEq] at h; simp [h]
  | cons w word ih =>
    cases text with
    | nil => simp [afterWord?] at h
    | cons c text =>
      simp only [afterWord?] at h
      split at h
      · have := ih h
        simp only [List.length_cons]
        omega
      · simp at h

end Sheetwright.Text
