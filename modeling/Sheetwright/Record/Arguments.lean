import Sheetwright.Field
import Sheetwright.Record
/-!
# Records from arguments

A record built from arguments, each checked as a field. Attributes may have any names and values.
-/

namespace Sheetwright.Record

/-- The record of a base type, a raw text and attributes put in order. -/
def ofArguments (a : Entries String Datum) (attributes : List (String × Datum)) :
    Except (List Field.Error) Record :=
  Field.Check.result do
    let baseType ← Field.argument a "base_type" none Field.text
    let rawText ← Field.argument a "raw_text" (some "") Field.text
    return ⟨baseType, Entries.ofPairs attributes, rawText⟩

end Sheetwright.Record
