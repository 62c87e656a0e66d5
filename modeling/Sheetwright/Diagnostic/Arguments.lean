import Sheetwright.Diagnostic
import Sheetwright.Field
/-!
# Reports from arguments

Diagnostics and reports built from arguments, each checked as a field.
-/

namespace Sheetwright

def DiagnosticKind.read (d : Datum) : Except Field.Problem DiagnosticKind :=
  let named? := match d with
    | .text s => ofName? s
    | _ => none
  match named? with
  | some kind => .ok kind
  | none => .error (.notOneOf (all.map name))

def Diagnostic.ofArguments (kind message record : Datum) :
    Except (List Field.Error) Diagnostic :=
  Field.Check.result do
    let kind ← Field.note ["kind"] .noRecords (DiagnosticKind.read kind)
    let message ← Field.note ["message"] "" (Field.text message)
    let record? ← Field.note ["record"] none (match record with
      | .null => .ok none
      | datum => (Field.text datum).map some)
    return ⟨kind, message, record?⟩

/-- The empty report on a number of records. -/
def Report.ofArguments (a : Entries String Datum) : Except (List Field.Error) Report :=
  Field.Check.result do
    return ⟨[], ← Field.argument a "record_count" (some 0) Field.integer⟩

end Sheetwright
