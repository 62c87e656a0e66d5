import Sheetwright.Proofs.Grid.Above
import Sheetwright.Proofs.Workbook.Sheets
import Sheetwright.Workbook.Block
/-!
# What copying a block leaves alone

An operation on one sheet leaves every other sheet as it is. Copying a block opens cells of the
source and fills the destination from the first row of the copy on: all other sheets stay, the
source shows what it showed before, and the destination stays as it is above that row, wherever the
copying stops (`after_copyBlock`).
-/

namespace Sheetwright.Workbook

open Grid Operation

variable {b b' b'' : Workbook} {title : String} {place source dest : Nat} {s t : Sheet}

/-! ## One sheet at a time -/

/-- Only the sheet in one place has changed, and it is related to what it was. -/
structure OnlySheet (place : Nat) (R : Sheet → Sheet → Prop) (b b' : Workbook) : Prop where
  length_eq : b'.sheets.length = b.sheets.length
  other : ∀ i, i ≠ place → b'.sheets[i]? = b.sheets[i]?
  changed : R (b.sheet place) (b'.sheet place)

instance {R : Sheet → Sheet → Prop} [IsPreorder Sheet R] :
    IsPreorder Workbook (OnlySheet place R) where
  refl _ := ⟨rfl, fun _ _ => rfl, refl_of R _⟩
  trans _ _ _ h h' :=
    { length_eq := h'.length_eq.trans h.length_eq
      other := fun i hi => (h'.other i hi).trans (h.other i hi)
      changed := trans_of R h.changed h'.changed }

theorem sheet_putSheet_self (h : place < b.sheets.length) : (b.putSheet place s).sheet place = s :=
  sheet_of_getElem? (putSheet_getElem?_self h)

theorem after_onSheet {α : Type} (place : Nat) (action : Sheet.Action α) (b : Workbook) :
    after (onSheet place action) b = b.putSheet place (after action (b.sheet place)) := by
  rw [after, after, EStateM.run, onSheet]
  cases action.run (b.sheet place) <;> rfl

theorem keeps_onSheet {α : Type} {R : Sheet → Sheet → Prop} [IsPreorder Sheet R] {place : Nat}
    {action : Sheet.Action α} (h : Keeps R action) :
    Keeps (OnlySheet place R) (onSheet place action) := by
  intro b
  rw [after_onSheet]
  refine ⟨?_, fun i hi => putSheet_getElem?_of_ne hi.symm, ?_⟩
  · rw [sheets_putSheet, List.length_set]
  -- where there is no sheet in the place nothing is put anywhere
  · rcases Nat.lt_or_ge place b.sheets.length with hlt | hge
    · rw [sheet_putSheet_self hlt]
      exact h _
    · rw [putSheet_of_le hge]
      exact refl_of R _

/-! ## Titles -/

/-- The two workbooks have the same titles. -/
def SameTitles (b b' : Workbook) : Prop := b'.titles = b.titles

instance : IsPreorder Workbook SameTitles where
  refl _ := rfl
  trans _ _ _ h h' := h'.trans h

theorem keeps_titles_onSheet {α : Type} {action : Sheet.Action α}
    (h : Keeps Sheet.SameTitle action) : Keeps SameTitles (onSheet place action) := by
  intro b
  rw [after_onSheet]
  exact titles_putSheet (h _)

/-! ## Blocks -/

/-- Cells of the source were opened in an area and the destination was written to; otherwise the
workbooks are the same. -/
structure Pasted (source dest : Nat) (area : Position → Prop) (b b' : Workbook) : Prop where
  length_eq : b'.sheets.length = b.sheets.length
  other : ∀ i, i ≠ source → i ≠ dest → b'.sheets[i]? = b.sheets[i]?
  opened : source ≠ dest → Sheet.Widened area (b.sheet source) (b'.sheet source)
  written : source ≠ dest → Sheet.SameTitle (b.sheet dest) (b'.sheet dest)

variable {area : Position → Prop}

instance : IsPreorder Workbook (Pasted source dest area) where
  refl _ := ⟨rfl, fun _ _ _ => rfl, fun _ => .refl area _, fun _ => rfl⟩
  trans _ _ _ h h' :=
    { length_eq := h'.length_eq.trans h.length_eq
      other := fun i hs hd => (h'.other i hs hd).trans (h.other i hs hd)
      opened := fun hne => (h.opened hne).trans (h'.opened hne)
      written := fun hne => (h'.written hne).trans (h.written hne) }

theorem OnlySheet.sheet_eq {R : Sheet → Sheet → Prop} (h : OnlySheet place R b b')
    (hne : source ≠ place) : b'.sheet source = b.sheet source := by
  rw [sheet, sheet, List.getD_eq_getElem?_getD, List.getD_eq_getElem?_getD, h.other source hne]

theorem OnlySheet.pasted_source (h : OnlySheet source (Sheet.Widened area) b b') :
    Pasted source dest area b b' where
  length_eq := h.length_eq
  other i hs _ := h.other i hs
  opened _ := h.changed
  written hne := by
    rw [Sheet.SameTitle, h.sheet_eq hne.symm]

theorem OnlySheet.pasted_dest (h : OnlySheet dest Sheet.SameTitle b b') :
    Pasted source dest area b b' where
  length_eq := h.length_eq
  other i _ hd := h.other i hd
  opened hne := by
    rw [h.sheet_eq hne]
    exact .refl area _
  written _ := h.changed

theorem keeps_onDest {α : Type} {action : Sheet.Action α} (h : Keeps Sheet.SameTitle action) :
    Keeps (Pasted source dest area) (onSheet dest action) :=
  (keeps_onSheet h).mono fun _ _ h => h.pasted_dest

theorem mem_integers {first last n : Int} : n ∈ integers first last ↔ first ≤ n ∧ n ≤ last := by
  rw [integers, List.mem_map]
  constructor
  · rintro ⟨i, hi, rfl⟩
    rw [List.mem_range] at hi
    omega
  · rintro ⟨hfirst, hlast⟩
    refine ⟨(n - first).toNat, ?_, ?_⟩
    · rw [List.mem_range]
      omega
    · omega

theorem returns_onSheet {α : Type} {V : α → Prop} {action : Sheet.Action α}
    (h : Returns V action) : Returns V (onSheet place action) := by
  intro b a ha
  refine h (b.sheet place) a ?_
  rw [outcome, EStateM.run, onSheet] at ha
  rw [outcome]
  cases hrun : action.run (b.sheet place) with
  | ok a' s =>
    rw [hrun] at ha
    cases ha
    rfl
  | error fault s =>
    rw [hrun] at ha
    cases ha

section

variable {R : Workbook → Workbook → Prop} [IsPreorder Workbook R] {start : Int}
  (hdest : ∀ {α : Type} {action : Sheet.Action α}, Keeps (Sheet.SameAbove start) action →
    Keeps R (onSheet dest action))

include hdest

theorem keeps_copyCell {offset : Int} {origin : Position}
    (h : start ≤ (origin.row : Int) + offset) :
    Keeps R (copyCell source dest offset origin) := by
  refine Keeps.bind Keeps.read ?_
  intro b
  dsimp only
  -- an empty cell is passed over
  split
  · exact Keeps.done ()
  · refine Keeps.bind_returning (hdest (Sheet.keeps_sameAbove_openCell _ _))
      (returns_onSheet (Sheet.returns_openCell _ _)) ?_
    rintro target ⟨hrow, -⟩
    rw [← hrow] at h
    split
    · exact Keeps.stop _
    · refine Keeps.bind (hdest (Sheet.keeps_sameAbove_onCell h _)) ?_
      intro _
      split
      · exact hdest (Keeps.modify fun s => s.sameAbove_putCell _ h)
      · exact Keeps.done ()

theorem keeps_copyRow {offset row : Int} (h : start ≤ row + offset) {columns : List Int}
    (hsource : ∀ column ∈ columns, Keeps R (onSheet source (Sheet.openCell row column))) :
    Keeps R (copyRow source dest offset columns row) := by
  have hopened (column : Int) : Returns (fun p => (p.row : Int) = row ∧ (p.column : Int) = column)
      (onSheet source (Sheet.openCell row column)) :=
    returns_onSheet (Sheet.returns_openCell row column)
  have hrow : Returns (fun ps => ∀ p ∈ ps, (p.row : Int) = row)
      (columns.mapM fun column => onSheet source (Sheet.openCell row column)) :=
    Returns.mapM fun column _ b p hp => (hopened column b p hp).1
  refine Keeps.bind_returning (Keeps.mapM hsource) hrow ?_
  intro origins horigins
  refine Keeps.forM fun origin horigin => keeps_copyCell hdest ?_
  rwa [horigins origin horigin]

theorem keeps_copyHeight {offset row : Int} (h : start ≤ row + offset) :
    Keeps R (copyHeight source dest offset row) := by
  refine Keeps.bind Keeps.read ?_
  intro b
  split
  · exact hdest (Keeps.modify fun s => s.sameAbove_setHeight _ (by omega))
  · exact Keeps.done ()

/-- Copying a block opens cells of the source inside the block and otherwise fills the destination
from the first row of the copy on. -/
theorem after_copyBlock {first last lastColumn : Int}
    (hsource : ∀ row ∈ integers (boundOr 1 first) (boundOr (b.sheet source).maxRow last),
      ∀ column ∈ integers 1 (boundOr (b.sheet source).maxColumn
        (min lastColumn (b.sheet source).maxColumn)),
      Keeps R (onSheet source (Sheet.openCell row column))) :
    R b (after (copyBlock source first last dest start lastColumn) b) := by
  -- the rows and columns are those of the first state, so the reading of it is not hidden
  have hread {x : Workbook → Action Unit} : after (get >>= x) b = after (x b) b := by
    rw [after_bind]
    rfl
  rw [copyBlock, hread]
  refine Keeps.bind (Keeps.forM ?_) (fun _ => Keeps.bind (Keeps.forM ?_) fun _ =>
    Keeps.bind Keeps.read fun b' => Keeps.forM ?_) b
  · intro row hrow
    refine keeps_copyRow hdest ?_ (hsource row hrow)
    -- a bound that is left open begins with the first row
    rw [mem_integers, boundOr] at hrow
    split at hrow <;> omega
  · intro row hrow
    have hfirst := (mem_integers.mp hrow).1
    exact keeps_copyHeight hdest (by omega)
  · intro r hr
    rw [List.mem_filter, Bool.and_eq_true, Bool.and_eq_true, decide_eq_true_eq] at hr
    exact hdest (Sheet.keeps_sameAbove_mergeBounds (by omega) _ _ _)

end

/-- Copying a block opens cells of the source inside its allocated area only. -/
theorem pasted_copyBlock {first last start lastColumn : Int} (hfirst : 1 ≤ first)
    (hlast : last ≤ (b.sheet source).maxRow) :
    Pasted source dest
      (fun p => p.row ≤ (b.sheet source).maxRow ∧ p.column ≤ (b.sheet source).maxColumn) b
      (after (copyBlock source first last dest start lastColumn) b) := by
  refine after_copyBlock (fun {_ _} h => keeps_onDest (h.mono fun _ _ h => h.title_eq)) ?_
  intro row hrow column hcolumn
  refine (keeps_onSheet (R := Sheet.Widened _) ?_).mono fun _ _ h => h.pasted_source
  refine (Sheet.keeps_openCell row column).mono ?_
  intro s t h
  refine h.mono ?_
  rintro p ⟨rfl, rfl⟩
  -- both bounds come from the sheet, so each opened cell lies within its extent
  rw [mem_integers] at hrow hcolumn
  simp only [boundOr] at hrow hcolumn
  split at hrow <;> split at hcolumn <;> omega

end Sheetwright.Workbook
