import Sheetwright.Text.Blank
import Sheetwright.Text.Line
/-!
# Pasted input

Records are found in pasted lines, which may carry the quotes and commas of a list they were copied
from. Each line is trimmed and freed of these, the lines are joined, and the bracketed parts are
taken out.
-/

namespace Sheetwright.Validation

/-- A line without a quote at its beginning and without a comma, a closing apostrophe and comma, or
a double quote at its end. -/
def withoutNoise (line : List Char) : List Char :=
  let opened := match line with
    | '\'' :: rest => rest
    | '"' :: rest => rest
    | _ => line
  match opened.reverse with
  | ',' :: '\'' :: rest => rest.reverse
  | ',' :: rest => rest.reverse
  | '"' :: rest => rest.reverse
  | _ => opened

/-- The lines that are not blank, trimmed, without noise and joined by spaces. -/
def joinLines (lines : List (List Char)) : List Char :=
  [' '].intercalate
    ((lines.filter fun line => !Text.allBlank line).map fun line => withoutNoise (Text.trim line))

/-- The bracketed parts of a text: `<`, at least one character other than `>`, and `>`. -/
def bracketed (text : List Char) : List (List Char) :=
  match text with
  | [] => []
  | '<' :: rest =>
    let body := rest.takeWhile (· != '>')
    let after := rest.dropWhile (· != '>')
    if after.isEmpty then []
    else if body.isEmpty then bracketed rest
    else ('<' :: body ++ ['>']) :: bracketed (after.drop 1)
  | _ :: rest => bracketed rest
termination_by text.length
decreasing_by
  · simp
  · have h : after.length ≤ rest.length := List.Sublist.length_le (List.dropWhile_sublist _)
    change (after.drop 1).length < (_ :: rest).length
    simp only [List.length_drop, List.length_cons]
    omega
  · simp

def recordsOfLines (lines : List (List Char)) : List (List Char) := bracketed (joinLines lines)

def recordsOfText (text : List Char) : List (List Char) := recordsOfLines (Text.lines text)

end Sheetwright.Validation
