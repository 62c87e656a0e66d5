import Sheetwright.Grid.Sheet
/-!
# Merged ranges

Merging a range leaves its anchor and covers its other cells, whose values are lost. The lines
around the anchor become the lines around the whole range, and every cell of the range takes the
protection of the anchor. Taking a range apart removes the cells it covered.
-/

namespace Sheetwright.Grid.Sheet

/-- Makes sure the anchor of a range is allocated and takes the lines at its right and at its bottom
from the last cell, where it has none of its own. -/
def frameAnchor (s : Sheet) (r : Range) : Sheet :=
  let s := s.allocate r.anchor
  match s.cells.get? r.corner with
  | some corner =>
    let border := corner.style.border
    let lines : Border := { right := border.right, bottom := border.bottom }
    s.restyle r.anchor fun style => { style with border := style.border.orElse lines }
  | none => s

/-- Covers the cells of a range but the anchor. -/
def coverRest (s : Sheet) (r : Range) : Sheet :=
  r.rest.foldl (fun s p => s.putCell p { content := .covered }) s

/-- The lines that a cell of a range takes from the lines around the anchor. -/
def edgeLines (r : Range) (lines : Border) (p : Position) : Border where
  left := if p.column = r.minColumn then lines.left else none
  right := if p.column = r.maxColumn then lines.right else none
  top := if p.row = r.minRow then lines.top else none
  bottom := if p.row = r.maxRow then lines.bottom else none

/-- Gives the cells of a range the lines and the protection of the anchor. -/
def frameCells (s : Sheet) (r : Range) : Sheet :=
  let anchor := (s.cell r.anchor).style
  r.positions.foldl (fun s p => s.restyle p fun style =>
    { style with border := style.border.orElse (edgeLines r anchor.border p)
                 locked := anchor.locked }) s

def cover (s : Sheet) (r : Range) : Sheet := ((s.frameAnchor r).coverRest r).frameCells r

/-- Merges a range. A range inside an already merged one is not noted again. -/
def merge (s : Sheet) (r : Range) : Sheet :=
  let s := s.cover r
  if s.merged.any (·.covers r) then s else { s with merged := s.merged ++ [r] }

/-- Merges the range between four bounds. -/
def mergeBounds (minRow minColumn maxRow maxColumn : Int) : Action Unit := do
  match Range.ofBounds minRow minColumn maxRow maxColumn with
  | .ok r => modify (·.merge r)
  | .error fault => throw fault

/-- Removes cells that must be there. -/
def removeCells : List Position → Action Unit
  | [] => pure ()
  | p :: rest => do
    if (← get).cells.contains p then
      modify fun s => { s with cells := s.cells.erase p }
      removeCells rest
    else throw (.noCell p.row p.column)

def unmerge (r : Range) : Action Unit := do
  modify fun s => { s with merged := s.merged.erase r }
  removeCells r.rest

end Sheetwright.Grid.Sheet
