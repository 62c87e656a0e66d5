import Sheetwright.Text.Blank
import Sheetwright.Text.Line
import Std.Data.ExtTreeSet
/-!
# Reference lists

The list of valid code types: one type a line, blanks around it ignored. Only the set of types
matters, so two lists with the same types are the same reference.
-/

namespace Sheetwright

/-- The valid code types. -/
abbrev Reference := Std.ExtTreeSet String

namespace Reference

/-- The types on some lines; blank lines hold none. -/
def ofLines (lines : List (List Char)) : Reference :=
  Std.ExtTreeSet.ofList
    ((lines.filter fun line => !Text.allBlank line).map fun line => String.ofList (Text.trim line))

def ofText (text : List Char) : Reference := ofLines (Text.lines text)

def types (r : Reference) : List String := r.toList

end Reference

end Sheetwright
