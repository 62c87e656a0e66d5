import Sheetwright.Document.Fault
import Sheetwright.Datum
/-!
# Documents

What a run needs of a document: sheets that can be found, copied, renamed and removed, rows that can
be searched, cleared and copied, cells that can be written, and a way to commit what was done. A
document is any state with these operations. An operation that stops with a fault may have changed
the state.
-/

namespace Sheetwright

/-- The operations of a document with states `σ` whose sheets are referred to by `κ`. Rows and
columns are counted from one. -/
structure Document (σ κ : Type) where
  /-- The sheet with a title. -/
  find? : String → EStateM Document.Fault σ (Option κ)
  /-- Removes the sheet with a title. -/
  delete : String → EStateM Document.Fault σ Unit
  /-- Copies the sheet with a title. -/
  duplicate : String → EStateM Document.Fault σ κ
  /-- The title of a sheet. -/
  title : κ → EStateM Document.Fault σ String
  /-- Gives a sheet another title. -/
  rename : κ → String → EStateM Document.Fault σ Unit
  /-- The last row that holds a value, or zero. -/
  lastUsedRow : κ → EStateM Document.Fault σ Nat
  /-- The last row of the allocated area. -/
  lastRow : κ → EStateM Document.Fault σ Nat
  /-- Clears the rows from a first to a last one. -/
  clearRows : κ → Nat → Nat → EStateM Document.Fault σ Unit
  /-- Copies rows of a sheet to a row of another one, up to a last column. -/
  copyBlock : κ → Nat × Nat → κ → Nat → Nat → EStateM Document.Fault σ Unit
  /-- Writes a datum into a cell. -/
  write : κ → Nat → Nat → Datum → EStateM Document.Fault σ Unit
  /-- Writes data down a column. -/
  writeColumn : κ → Nat → Nat → List Datum → EStateM Document.Fault σ Unit
  /-- The first and the last row that carry a tag in a column. -/
  findTagged : κ → Nat → String → EStateM Document.Fault σ (Option (Nat × Nat))
  /-- Commits what was done. -/
  commit : EStateM Document.Fault σ Unit

end Sheetwright
