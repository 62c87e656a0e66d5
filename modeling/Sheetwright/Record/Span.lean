import Sheetwright.Text.Blank
/-!
# Spans

A text is cut into the spans that hold records and what lies around them. A span opens at the first
`<` after the last one and closes at the next `>`; an opening that is never closed ends the search.
-/

namespace Sheetwright.Record

/-- A part of a text. -/
inductive Segment where
  /-- Text outside every span. -/
  | stray (text : List Char)
  /-- A span with both its brackets. -/
  | span (text : List Char)
  /-- The text from an opening bracket that is never closed. -/
  | unterminated (text : List Char)
  deriving Repr, DecidableEq

def Segment.text : Segment → List Char
  | stray text => text
  | span text => text
  | unterminated text => text

/-- Cuts a text into segments; put together they are the text again. -/
def segments (text : List Char) : List Segment :=
  let gap := text.takeWhile (· != '<')
  let start := text.dropWhile (· != '<')
  if start.isEmpty then [.stray gap]
  else
    let body := start.takeWhile (· != '>')
    let rest := start.dropWhile (· != '>')
    if _h : rest.isEmpty then [.stray gap, .unterminated start]
    else .stray gap :: .span (body ++ ['>']) :: segments (rest.drop 1)
termination_by text.length
decreasing_by
  have hrest : rest.length ≤ start.length := List.Sublist.length_le (List.dropWhile_sublist _)
  have hstart : start.length ≤ text.length := List.Sublist.length_le (List.dropWhile_sublist _)
  have hpos : 0 < rest.length := by
    cases hr : rest with
    | nil => simp [hr] at _h
    | cons c cs => simp
  change (rest.drop 1).length < text.length
  rw [List.length_drop]
  omega

def spans (text : List Char) : List (List Char) :=
  (segments text).filterMap fun
    | .span span => some span
    | _ => none

/-- Spans run together and cut again after every closing bracket, blank pieces left out. -/
def recut (spans : List (List Char)) : List (List Char) :=
  ((spans.flatten.splitOn '>').filter fun piece => !Text.allBlank piece).map (· ++ ['>'])

/-- The record texts found in a text, brackets included. -/
def texts (text : List Char) : List (List Char) := recut (spans text)

end Sheetwright.Record
