import Sheetwright.Attribute
import Sheetwright.Datum
import Sheetwright.Entries
import Sheetwright.Text.Case
/-!
# Records

A record is one bracketed code: a base type, attributes in the order in which they were first
written, and the text it was read from. A record can be written out again in canonical form.
-/

namespace Sheetwright

def deleteMarker : String := "Delete"

/-- The attribute under which the deletion mark is kept. -/
def deleteKey : String := "delete"

/-- One code record. -/
structure Record where
  baseType : String
  attributes : Entries String Datum
  rawText : String

namespace Record

/-- The attribute of a name in any case, or a default. -/
def get (r : Record) (name : String) (default : Datum := .text "") : Datum :=
  (r.attributes.get? (String.ofList (Text.lower name.toList))).getD default

def isDeleted (r : Record) : Bool := ((r.attributes.get? deleteKey).getD (.bool false)).isGiven

def renderAttribute : String × Datum → Option String
  | (name, value) =>
    if name = deleteKey then if value.isGiven then some deleteMarker else none
    else some (name ++ "=\"" ++ value.plain ++ "\"")

def render (r : Record) : String :=
  "<" ++ "; ".intercalate (r.baseType :: r.attributes.filterMap renderAttribute) ++ ">"

end Record

end Sheetwright
