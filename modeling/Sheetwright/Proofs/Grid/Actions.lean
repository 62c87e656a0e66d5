import Sheetwright.Proofs.Grid.Alike
import Sheetwright.Proofs.Operation
/-!
# What operations on a sheet leave alone

No operation on a sheet gives it another title, and the operations that only look something up
allocate empty cells at most: opening a cell allocates that cell, searching for a tag and for the
last used row allocate cells of the searched rows and columns.
-/

namespace Sheetwright.Grid.Sheet

open Operation

/-! ## Titles -/

/-- The two sheets have the same title. -/
def SameTitle (s t : Sheet) : Prop := t.title = s.title

instance : IsPreorder Sheet SameTitle where
  refl _ := rfl
  trans _ _ _ hst htu := htu.trans hst

theorem title_allocateBlock (s : Sheet) (rows columns : List Nat) :
    (s.allocateBlock rows columns).title = s.title :=
  (s.widened_allocateBlock rows columns).title_eq

theorem title_foldl_putCell {α : Type} (s : Sheet) (l : List α) (f : Sheet → α → Position)
    (g : Sheet → α → Cell) :
    (l.foldl (fun s a => s.putCell (f s a) (g s a)) s).title = s.title := by
  refine foldl_induction (P := fun t => t.title = s.title) rfl ?_
  intro t a _ ht
  exact ht

theorem title_cover (s : Sheet) (r : Range) : (s.cover r).title = s.title := by
  rw [cover]
  -- covering goes through three passes over cells, and none of them sees the title
  calc
    (((s.frameAnchor r).coverRest r).frameCells r).title
        = ((s.frameAnchor r).coverRest r).title := title_foldl_putCell _ _ _ _
    _ = (s.frameAnchor r).title := title_foldl_putCell _ _ _ _
    _ = s.title := (s.sameButCells_frameAnchor r).title_eq

theorem title_merge (s : Sheet) (r : Range) : (s.merge r).title = s.title := by
  rw [merge]
  split
  · exact s.title_cover r
  · exact s.title_cover r

theorem keeps_title_openCell (row column : Int) : Keeps SameTitle (openCell row column) := by
  rw [openCell]
  split
  · exact Keeps.bind (Keeps.modify fun _ => rfl) fun _ => Keeps.done _
  · exact Keeps.stop _

theorem keeps_title_onCell (p : Position) (action : EStateM Fault Cell Unit) :
    Keeps SameTitle (onCell p action) := by
  intro s
  rw [after, EStateM.run, onCell]
  -- a fault leaves the cell as it is by then, and the sheet around it untouched
  cases action.run (s.cell p) with
  | ok _ c => rfl
  | error fault c => rfl

theorem keeps_title_write (row column : Int) (d : Datum) :
    Keeps SameTitle (write row column d) := by
  refine Keeps.bind (keeps_title_openCell row column) ?_
  intro p
  split
  · exact Keeps.done ()
  · exact keeps_title_onCell p _

theorem keeps_title_writeColumn (row column : Int) (data : List Datum) :
    Keeps SameTitle (writeColumn row column data) := by
  induction data generalizing row with
  | nil => exact Keeps.done ()
  | cons d rest ih =>
    exact Keeps.bind (keeps_title_write row column d) fun _ => ih (row + 1)

theorem keeps_title_mergeBounds (minRow minColumn maxRow maxColumn : Int) :
    Keeps SameTitle (mergeBounds minRow minColumn maxRow maxColumn) := by
  rw [mergeBounds]
  split
  · exact Keeps.modify fun s => s.title_merge _
  · exact Keeps.stop _

theorem keeps_title_removeCells (ps : List Position) : Keeps SameTitle (removeCells ps) := by
  induction ps with
  | nil => exact Keeps.done ()
  | cons p rest ih =>
    refine Keeps.bind Keeps.read ?_
    intro s
    split
    · exact Keeps.bind (Keeps.modify fun _ => rfl) fun _ => ih
    · exact Keeps.stop _

theorem keeps_title_unmergeAll (ranges : List Range) : Keeps SameTitle (unmergeAll ranges) := by
  induction ranges with
  | nil => exact Keeps.done ()
  | cons r rest ih =>
    refine Keeps.bind ?_ fun _ => ih
    exact Keeps.bind (Keeps.modify fun _ => rfl) fun _ => keeps_title_removeCells _

theorem keeps_title_deleteRows (first last : Int) : Keeps SameTitle (deleteRows first last) := by
  rw [deleteRows]
  split
  · exact Keeps.bind (Keeps.stop _) fun _ => Keeps.modify fun s => s.title_allocateBlock _ _
  · exact Keeps.modify fun s => s.title_allocateBlock _ _

theorem keeps_title_clearRows (first last : Int) : Keeps SameTitle (clearRows first last) := by
  rw [clearRows]
  split
  · exact Keeps.done ()
  · refine Keeps.bind Keeps.read fun s => Keeps.bind (keeps_title_unmergeAll _) fun _ => ?_
    exact Keeps.bind (keeps_title_deleteRows first last) fun _ => Keeps.modify fun _ => rfl

/-! ## Looking things up -/

/-- The area in which a search in some column may allocate cells. -/
def searchArea (s : Sheet) (column : Nat) (p : Position) : Prop :=
  p.row ≤ s.maxRow ∧ (p.column ≤ s.maxColumn ∨ p.column = column)

theorem mem_span {first last n : Nat} : n ∈ Range.span first last ↔ first ≤ n ∧ n ≤ last := by
  rw [Range.span, List.mem_range'_1]
  omega

/-- The rows found are among those that were searched. -/
theorem mem_rows_of_ends? {l : List Nat} {f : Nat → Bool} {found : Nat × Nat}
    (h : ends? (l.filter f) = some found) : found.1 ∈ l ∧ found.2 ∈ l := by
  cases hl : l.filter f with
  | nil =>
    rw [hl] at h
    cases h
  | cons first rest =>
    rw [hl, ends?, Option.some.injEq] at h
    subst h
    -- the last row is one of the same list, since the list is not empty
    have hmem (row : Nat) (hrow : row ∈ first :: rest) : row ∈ l := by
      rw [← hl] at hrow
      exact (List.mem_filter.mp hrow).1
    exact ⟨hmem first List.mem_cons_self, hmem _ (List.getLast_mem _)⟩

theorem eq_of_locate {row column : Int} {p : Position} (h : locate row column = .ok p) :
    (p.row : Int) = row ∧ (p.column : Int) = column := by
  rw [locate] at h
  split at h
  · cases h
  · split at h
    · cases h
    · cases h
      simp only [Bool.or_eq_true, decide_eq_true_eq] at *
      omega

theorem keeps_openCell (row column : Int) :
    Keeps (Widened fun p => (p.row : Int) = row ∧ (p.column : Int) = column)
      (openCell row column) := by
  rw [openCell]
  split
  next p hp =>
    have harea := eq_of_locate hp
    exact Keeps.bind (Keeps.modify fun s => s.widened_allocate harea) fun _ => Keeps.done _
  · exact Keeps.stop _

theorem keeps_lastUsedRow : Keeps (fun s => Widened (s.searchArea 1) s) lastUsedRow := by
  intro s
  refine (s.widened_allocateBlock s.rows s.columns).mono ?_
  rintro p ⟨hrow, hcolumn⟩
  exact ⟨(mem_span.mp hrow).2, Or.inl (mem_span.mp hcolumn).2⟩

theorem keeps_title_lastUsedRow : Keeps SameTitle lastUsedRow :=
  keeps_lastUsedRow.mono fun _ _ h => h.title_eq

theorem run_findTagged {column : Nat} (hcolumn : 1 ≤ column) (tag : String) (s : Sheet) :
    (findTagged column tag).run s =
      .ok (ends? ((s.allocateBlock s.rows [column]).rows.filter fun row =>
        (s.allocateBlock s.rows [column]).isTagged ⟨row, column⟩ tag))
        (s.allocateBlock s.rows [column]) := by
  -- a column from one on is searched as it is given
  have h₁ : ¬(column : Int) < 0 := by omega
  have h₂ : ¬(column : Int) = 0 := by omega
  have h₃ : max 1 (column : Int).toNat = column := by omega
  rw [findTagged]
  simp only [EStateM.run_bind, EStateM.run_get, h₁, h₂, h₃, decide_false, Bool.false_and,
    Bool.false_eq_true, if_false]
  rfl

theorem keeps_findTagged {column : Nat} (hcolumn : 1 ≤ column) (tag : String) :
    Keeps (fun s => Widened (s.searchArea column) s) (findTagged column tag) := by
  intro s
  rw [after_of_ok (run_findTagged hcolumn tag s)]
  refine (s.widened_allocateBlock s.rows [column]).mono ?_
  rintro p ⟨hrow, hp⟩
  exact ⟨(mem_span.mp hrow).2, Or.inr (List.mem_singleton.mp hp)⟩

theorem keeps_title_findTagged {column : Nat} (hcolumn : 1 ≤ column) (tag : String) :
    Keeps SameTitle (findTagged column tag) :=
  (keeps_findTagged hcolumn tag).mono fun _ _ h => h.title_eq

end Sheetwright.Grid.Sheet
