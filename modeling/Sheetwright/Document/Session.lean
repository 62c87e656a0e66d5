import Sheetwright.Document
import Sheetwright.Workbook.Block
/-!
# Sessions

A session is a workbook under way together with whatever it is committed to. With a way to commit it
is a document.
-/

namespace Sheetwright

/-- A workbook and the store it is committed to. -/
structure Session (ρ : Type) where
  workbook : Workbook
  store : ρ

namespace Session

variable {ρ : Type}

abbrev Action (ρ : Type) := EStateM Document.Fault (Session ρ)

def onWorkbook {α : Type} (action : Workbook.Action α) : Action ρ α := fun s =>
  match action.run s.workbook with
  | .ok a workbook => .ok a { s with workbook }
  | .error fault workbook => .error fault { s with workbook }

/-- Runs an operation on a sheet of the workbook. -/
def onSheet {α : Type} (place : Nat) (action : Grid.Sheet.Action α) : Action ρ α :=
  onWorkbook (Workbook.onSheet place action)

def document (commit : Action ρ Unit) : Document (Session ρ) Nat where
  find? title := do return (← get).workbook.find? title
  delete title := onWorkbook (Workbook.delete title)
  duplicate title := onWorkbook (Workbook.duplicate title)
  title place := do return ((← get).workbook.sheet place).title
  rename place title := onWorkbook (Workbook.rename place title)
  lastUsedRow place := onSheet place Grid.Sheet.lastUsedRow
  lastRow place := do return ((← get).workbook.sheet place).maxRow
  clearRows place first last := onSheet place (Grid.Sheet.clearRows first last)
  copyBlock source rows dest start lastColumn :=
    onWorkbook (Workbook.copyBlock source rows.1 rows.2 dest start lastColumn)
  write place row column datum := onSheet place (Grid.Sheet.write row column datum)
  writeColumn place row column data := onSheet place (Grid.Sheet.writeColumn row column data)
  findTagged place column tag := onSheet place (Grid.Sheet.findTagged column tag)
  commit := commit

end Session

end Sheetwright
