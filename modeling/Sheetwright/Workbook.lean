import Sheetwright.Document.Fault
import Sheetwright.Grid.Sheet.Rows
/-!
# Workbooks

A workbook is a list of titled sheets. A sheet is referred to by its place in the list. New sheets
and copies go last.
-/

namespace Sheetwright

open Grid

/-- Sheets in order. -/
structure Workbook where
  sheets : List Sheet

namespace Workbook

instance : Inhabited Workbook := ⟨⟨[]⟩⟩

abbrev Action := EStateM Document.Fault Workbook

/-! ## Reading -/

def titles (b : Workbook) : List String := b.sheets.map (·.title)

/-- The place of the first sheet with a title. -/
def find? (b : Workbook) (title : String) : Option Nat := b.sheets.findIdx? (·.title = title)

def sheet (b : Workbook) (place : Nat) : Sheet := b.sheets.getD place default

/-- The place of the first sheet with a title, which must be there. -/
def require (title : String) : Action Nat := do
  match (← get).find? title with
  | some place => return place
  | none => throw (.noSheet title)

/-! ## Changing a sheet -/

def putSheet (b : Workbook) (place : Nat) (s : Sheet) : Workbook := ⟨b.sheets.set place s⟩

def onSheet {α : Type} (place : Nat) (action : Sheet.Action α) : Action α := fun b =>
  match action.run (b.sheet place) with
  | .ok a s => .ok a (b.putSheet place s)
  | .error fault s => .error (.sheet fault) (b.putSheet place s)

/-! ## Adding, copying, renaming and removing sheets -/

def newTitle (b : Workbook) (wanted : String) : Except Title.Fault String :=
  let wanted := if wanted.isEmpty then "Sheet" else wanted
  match Title.fault? wanted with
  | some fault => .error fault
  | none => Title.unused b.titles wanted

/-- Adds a sheet at the end, with a title made from the wanted one, and tells its place. -/
def add (wanted : String) (content : Sheet) : Action Nat := do
  let b ← get
  match b.newTitle wanted with
  | .error fault => throw (.creationRefused fault)
  | .ok title =>
    set (⟨b.sheets ++ [{ content with title }]⟩ : Workbook)
    return b.sheets.length

/-- Adds an empty sheet. -/
def create (wanted : String) : Action Nat := add wanted default

/-- The content a copy of a sheet begins with. Covered cells become ordinary ones. -/
def copyOf (s : Sheet) : Sheet := { s with cells := s.cells.map fun _ c => c.uncovered }

/-- Copies a sheet to the end and tells the place of the copy. The anchors of the merged ranges are
opened in the sheet that is copied. -/
def duplicate (title : String) : Action Nat := do
  let place ← require title
  let s := (← get).sheet place
  let copy ← add (s.title ++ " Copy") (copyOf s)
  modify fun b => b.putSheet place (s.merged.foldl Sheet.frameAnchor s)
  return copy

/-- Removes the first sheet with a title. -/
def delete (title : String) : Action Unit := do
  let place ← require title
  modify fun b => ⟨b.sheets.eraseIdx place⟩

/-- The title that a sheet gets in place of its own. The one that it has is given again as it is. -/
def retitle (b : Workbook) (own wanted : String) : Except Title.Fault String :=
  match Title.fault? wanted with
  | some fault => .error fault
  | none => if wanted = own then .ok wanted else Title.unused b.titles wanted

/-- Gives a sheet another title. A title that differs from one of another sheet in case only gets a
number. -/
def rename (place : Nat) (title : String) : Action Unit := do
  let b ← get
  let s := b.sheet place
  if title ≠ s.title && b.titles.contains title then throw (.titleTaken title)
  match b.retitle s.title title with
  | .error fault => throw (.titleRefused title (.unfit fault))
  | .ok title => set (b.putSheet place { s with title })

end Workbook

end Sheetwright
