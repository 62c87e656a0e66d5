import Sheetwright.Field
import Sheetwright.Run.Result
/-!
# Run results from arguments

Run errors and run results built from arguments, each checked as a field.
-/

namespace Sheetwright

def RunError.ofArguments (index codeType error kind : Datum) :
    Except (List Field.Error) RunError :=
  Field.Check.result do
    let index ← Field.note ["index"] 0 (Field.integerFrom 0 index)
    let codeType ← Field.note ["code_type"] "" (Field.text codeType)
    let error ← Field.note ["error"] "" (Field.text error)
    let kind ← Field.note ["kind"] "" (Field.text kind)
    return ⟨index.toNat, codeType, error, kind⟩

/-- Reads a list of texts; the place of an item is its index. -/
def RunResult.readTargets (name : String) : Datum → Field.Check (List String)
  | .list items => (items.zipIdx).mapM fun (item, index) =>
    Field.note [name, toString index] "" (Field.text item)
  | _ => Field.note [name] [] (.error .notList)

/-- The result without errors that some arguments give. -/
def RunResult.ofArguments (a : Entries String Datum) : Except (List Field.Error) RunResult :=
  Field.Check.result do
    let processedCount ← Field.argument a "processed_count" (some 0) Field.integer
    let createdTargets ← match a.get? "created_targets" with
      | some datum => readTargets "created_targets" datum
      | none => pure []
    return { processedCount, createdTargets }

end Sheetwright
