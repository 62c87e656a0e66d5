import Sheetwright.Field
import Sheetwright.Grid.Column
import Sheetwright.Text.Letter
/-!
# Layouts

Where things stand on the template sheet: the row at which its blocks begin, the column that carries
the type of each block row, and the columns that receive driver and assumption values. All three
columns lie within the columns that are copied with a block.
-/

namespace Sheetwright

/-- The layout of a template. -/
structure Layout where
  templateSheet : String := "Codes"
  dataStartRow : Nat := 9
  tagColumn : Nat := 4
  lastColumn : Nat := 102
  driverColumn : Nat := 4
  assumptionsColumn : Nat := 5
  tabPrefix : String := "Tab_"
  templateSheet_ne : templateSheet ≠ "" := by decide
  dataStartRow_pos : 1 ≤ dataStartRow := by decide
  tagColumn_pos : 1 ≤ tagColumn := by decide
  driverColumn_pos : 1 ≤ driverColumn := by decide
  assumptionsColumn_pos : 1 ≤ assumptionsColumn := by decide
  tagColumn_le : tagColumn ≤ lastColumn := by decide
  driverColumn_le : driverColumn ≤ lastColumn := by decide
  assumptionsColumn_le : assumptionsColumn ≤ lastColumn := by decide
  deriving Repr

namespace Layout

instance : Inhabited Layout := ⟨{}⟩

/-- The values of a layout, by which two layouts are told apart. -/
def values (l : Layout) : List String × List Nat :=
  ([l.templateSheet, l.tabPrefix],
   [l.dataStartRow, l.tagColumn, l.lastColumn, l.driverColumn, l.assumptionsColumn])

/-- Layouts with the same values are equal. -/
theorem values_inj {a b : Layout} : a.values = b.values ↔ a = b := by
  cases a
  cases b
  simp only [values, Prod.mk.injEq, List.cons.injEq, and_true, mk.injEq]
  grind

instance : DecidableEq Layout := fun _ _ => decidable_of_iff _ values_inj

/-- Reads a column: letters name it, anything else is a number. -/
def readColumn (d : Datum) : Except Field.Problem Nat :=
  match d with
  | .text s =>
    let word := Text.trim s.toList
    if !word.isEmpty && word.all Text.isLetter then
      let letters := Text.upper word
      match Grid.columnOfName? letters with
      | some column => .ok column
      | none => .error (.refused
          s!"'{String.ofList letters}' is not a valid column name. Column names are from A to ZZZ")
    else (Field.integerFrom 1 d).map Int.toNat
  | _ => (Field.integerFrom 1 d).map Int.toNat

def readRow (d : Datum) : Except Field.Problem Nat := (Field.integerFrom 1 d).map Int.toNat

/-- The error that reports a column beyond the copied ones. -/
def beyond (name : String) (lastColumn : Nat) : List Field.Error :=
  [⟨[], .refused (name ++ " lies beyond last_column=" ++ toString lastColumn)⟩]

/-- A layout whose columns are put together after each was read on its own. -/
def assemble (templateSheet : String) (dataStartRow tagColumn lastColumn driverColumn
    assumptionsColumn : Nat) (tabPrefix : String) : Except (List Field.Error) Layout :=
  if hsheet : templateSheet ≠ "" then
    if hpos : 1 ≤ dataStartRow ∧ 1 ≤ tagColumn ∧ 1 ≤ driverColumn ∧ 1 ≤ assumptionsColumn then
      if htag : tagColumn ≤ lastColumn then
        if hdriver : driverColumn ≤ lastColumn then
          if hassumptions : assumptionsColumn ≤ lastColumn then
            .ok { templateSheet, dataStartRow, tagColumn, lastColumn, driverColumn,
                  assumptionsColumn, tabPrefix
                  templateSheet_ne := hsheet
                  dataStartRow_pos := hpos.1
                  tagColumn_pos := hpos.2.1
                  driverColumn_pos := hpos.2.2.1
                  assumptionsColumn_pos := hpos.2.2.2
                  tagColumn_le := htag
                  driverColumn_le := hdriver
                  assumptionsColumn_le := hassumptions }
          else .error (beyond "assumptions_column" lastColumn)
        else .error (beyond "driver_column" lastColumn)
      else .error (beyond "tag_column" lastColumn)
    else .error [⟨["data_start_row"], .below 1⟩]
  else .error [⟨["template_sheet"], .emptyText⟩]

/-- The layout made of named arguments; unknown ones are ignored. -/
def ofArguments (a : Entries String Datum) : Except (List Field.Error) Layout := do
  let read : Field.Check (Except (List Field.Error) Layout) := do
    let templateSheet ← Field.argument a "template_sheet" (some "Codes") Field.filledText
    let dataStartRow ← Field.argument a "data_start_row" (some 9) readRow
    let tagColumn ← Field.argument a "tag_column" (some 4) readColumn
    let lastColumn ← Field.argument a "last_column" (some 102) readColumn
    let driverColumn ← Field.argument a "driver_column" (some 4) readColumn
    let assumptionsColumn ← Field.argument a "assumptions_column" (some 5) readColumn
    let tabPrefix ← Field.argument a "fallback_tab_prefix" (some "Tab_") Field.text
    return assemble templateSheet dataStartRow tagColumn lastColumn driverColumn assumptionsColumn
      tabPrefix
  match read.run [] with
  | (layout, []) => layout
  | (_, errors) => .error errors

end Layout

end Sheetwright
