import Mathlib.Tactic.ByContra
import Sheetwright.Grid.Sheet.Rows
/-!
# The cells of a sheet

What the operations on a sheet do to its cells: which cell a position shows afterwards, which
positions are allocated, and how far the allocated area and the used rows reach. A position that is
not allocated shows the empty cell, so allocating a cell changes nothing that is shown.
-/

namespace Sheetwright.Grid

theorem Position.compare_eq_iff {p q : Position} : compare p q = .eq ↔ p = q :=
  Std.LawfulEqCmp.compare_eq_iff_eq

namespace Sheet

variable {s t : Sheet} {p q : Position} {c : Cell}

/-! ## What a position shows -/

theorem value_of_content_eq (h : (t.cell p).content = (s.cell p).content) :
    t.value p = s.value p := by
  rw [value, value, Cell.value, Cell.value, h]

theorem value_of_covered (h : (s.cell p).content = .covered) : s.value p = .blank := by
  rw [value, Cell.value, h]

@[simp]
theorem cell_allocate (s : Sheet) (p q : Position) : (s.allocate p).cell q = s.cell q := by
  simp only [cell, allocate, Std.ExtTreeMap.getD_insertIfNew, Position.compare_eq_iff]
  -- a cell that is opened for the first time is empty, as it seemed before
  by_cases h : p = q ∧ ¬p ∈ s.cells
  · rcases h with ⟨rfl, hp⟩
    rw [if_pos ⟨rfl, hp⟩, Std.ExtTreeMap.getD_eq_fallback hp]
  · rw [if_neg h]

theorem cell_putCell (s : Sheet) (p q : Position) (c : Cell) :
    (s.putCell p c).cell q = if p = q then c else s.cell q := by
  simp only [cell, putCell, Std.ExtTreeMap.getD_insert, Position.compare_eq_iff]

@[simp]
theorem cell_restyle (s : Sheet) (p q : Position) (change : Style → Style) :
    (s.restyle p change).cell q =
      if p = q then { s.cell p with style := change (s.cell p).style } else s.cell q := by
  rw [restyle, cell_putCell]

theorem foldl_induction {α : Type} {P : Sheet → Prop} {f : Sheet → α → Sheet} {l : List α}
    (hs : P s) (h : ∀ t, ∀ a ∈ l, P t → P (f t a)) : P (l.foldl f s) := by
  induction l generalizing s with
  | nil => exact hs
  | cons a l ih =>
    refine ih (h s a List.mem_cons_self hs) ?_
    intro t b hb ht
    exact h t b (List.mem_cons_of_mem a hb) ht

/-- Whatever allocating single cells keeps, allocating a block keeps. -/
theorem allocateBlock_induction {P : Sheet → Prop} {rows columns : List Nat} (hs : P s)
    (h : ∀ t, ∀ row ∈ rows, ∀ column ∈ columns, P t → P (t.allocate ⟨row, column⟩)) :
    P (s.allocateBlock rows columns) := by
  refine foldl_induction hs ?_
  intro t row hrow ht
  refine foldl_induction ht ?_
  intro u column hcolumn hu
  exact h u row hrow column hcolumn hu

/-- A position that shows something is allocated. -/
theorem mem_of_cell_ne (h : s.cell p ≠ {}) : p ∈ s.cells := by
  by_contra hp
  exact h (Std.ExtTreeMap.getD_eq_fallback hp)

/-! ## Allocated positions -/

theorem mem_allocate : q ∈ (s.allocate p).cells ↔ p = q ∨ q ∈ s.cells := by
  simp only [allocate, Std.ExtTreeMap.mem_insertIfNew, Position.compare_eq_iff]

theorem mem_putCell : q ∈ (s.putCell p c).cells ↔ p = q ∨ q ∈ s.cells := by
  simp only [putCell, Std.ExtTreeMap.mem_insert, Position.compare_eq_iff]

theorem mem_restyle {change : Style → Style} :
    q ∈ (s.restyle p change).cells ↔ p = q ∨ q ∈ s.cells := mem_putCell

theorem mem_allocateBlock_of_mem {rows columns : List Nat} (h : q ∈ s.cells) :
    q ∈ (s.allocateBlock rows columns).cells := by
  refine allocateBlock_induction (P := fun t => q ∈ t.cells) h ?_
  intro t row _ column _ ht
  exact mem_allocate.mpr (Or.inr ht)

theorem mem_allocateBlock_self {rows columns : List Nat} (hrow : p.row ∈ rows)
    (hcolumn : p.column ∈ columns) : p ∈ (s.allocateBlock rows columns).cells := by
  have hkeep (t : Sheet) (ht : p ∈ t.cells) (rows : List Nat) :
      p ∈ (rows.foldl (fun s row =>
        columns.foldl (fun s column => s.allocate ⟨row, column⟩) s) t).cells :=
    mem_allocateBlock_of_mem ht
  -- the row of the position is opened at some point and its cells stay allocated from there on
  rcases List.append_of_mem hrow with ⟨before, behind, rfl⟩
  rw [allocateBlock, List.foldl_append, List.foldl_cons]
  refine hkeep _ ?_ behind
  rcases List.append_of_mem hcolumn with ⟨left, right, rfl⟩
  rw [List.foldl_append, List.foldl_cons]
  refine foldl_induction (P := fun t => p ∈ t.cells) (mem_allocate.mpr (Or.inl rfl)) ?_
  intro t column _ ht
  exact mem_allocate.mpr (Or.inr ht)

/-! ## Extent -/

theorem foldl_max_le_iff {α : Type} {f : α → Nat} {l : List α} {n m : Nat} :
    l.foldl (fun last a => max last (f a)) n ≤ m ↔ n ≤ m ∧ ∀ a ∈ l, f a ≤ m := by
  induction l generalizing n with
  | nil => simp
  | cons a l ih =>
    rw [List.foldl_cons, ih, Nat.max_le, List.forall_mem_cons, and_assoc]

theorem forall_mem_toList {P : Position → Cell → Prop} :
    (∀ e ∈ s.cells.toList, P e.1 e.2) ↔ ∀ p ∈ s.cells, P p (s.cell p) := by
  constructor
  · intro h p hp
    refine h (p, s.cell p) ?_
    rw [Std.ExtTreeMap.mem_toList_iff_getElem?_eq_some]
    exact Std.ExtTreeMap.getElem?_eq_some_getD hp
  -- an entry of the list is a position with the very cell that it shows
  · rintro h ⟨p, c⟩ hpc
    rw [Std.ExtTreeMap.mem_toList_iff_getElem?_eq_some] at hpc
    have hp : p ∈ s.cells := by
      rw [Std.ExtTreeMap.mem_iff_isSome_getElem?, hpc]
      rfl
    have hc : s.cell p = c := by
      rw [cell, Std.ExtTreeMap.getD_eq_getD_getElem?, hpc]
      rfl
    rw [← hc]
    exact h p hp

theorem maxRow_le_iff {n : Nat} : s.maxRow ≤ n ↔ 1 ≤ n ∧ ∀ p ∈ s.cells, p.row ≤ n := by
  rw [maxRow, Std.ExtTreeMap.foldl_eq_foldl_toList,
    foldl_max_le_iff (f := fun e : Position × Cell => e.1.row),
    forall_mem_toList (P := fun p _ => p.row ≤ n)]

theorem maxColumn_le_iff {n : Nat} : s.maxColumn ≤ n ↔ 1 ≤ n ∧ ∀ p ∈ s.cells, p.column ≤ n := by
  rw [maxColumn, Std.ExtTreeMap.foldl_eq_foldl_toList,
    foldl_max_le_iff (f := fun e : Position × Cell => e.1.column),
    forall_mem_toList (P := fun p _ => p.column ≤ n)]

theorem one_le_maxRow (s : Sheet) : 1 ≤ s.maxRow := (maxRow_le_iff.mp (Nat.le_refl _)).1

theorem one_le_maxColumn (s : Sheet) : 1 ≤ s.maxColumn := (maxColumn_le_iff.mp (Nat.le_refl _)).1

theorem row_le_maxRow (h : p ∈ s.cells) : p.row ≤ s.maxRow :=
  (maxRow_le_iff.mp (Nat.le_refl _)).2 p h

theorem column_le_maxColumn (h : p ∈ s.cells) : p.column ≤ s.maxColumn :=
  (maxColumn_le_iff.mp (Nat.le_refl _)).2 p h

theorem maxRow_mono (h : ∀ p ∈ s.cells, p ∈ t.cells) : s.maxRow ≤ t.maxRow :=
  maxRow_le_iff.mpr ⟨t.one_le_maxRow, fun p hp => row_le_maxRow (h p hp)⟩

theorem maxColumn_mono (h : ∀ p ∈ s.cells, p ∈ t.cells) : s.maxColumn ≤ t.maxColumn :=
  maxColumn_le_iff.mpr ⟨t.one_le_maxColumn, fun p hp => column_le_maxColumn (h p hp)⟩

/-- The last used row is the greatest row that shows a value. -/
theorem lastUsed_le_iff {n : Nat} :
    s.lastUsed ≤ n ↔ ∀ p, (s.value p).isUsed = true → p.row ≤ n := by
  -- a row that shows no value counts as row zero, so that the fold is a maximum
  have hfold : s.lastUsed = s.cells.toList.foldl
      (fun last e => max last (if e.2.value.isUsed then e.1.row else 0)) 0 := by
    rw [lastUsed, Std.ExtTreeMap.foldl_eq_foldl_toList]
    congr 1
    funext last e
    by_cases h : e.2.value.isUsed = true
    · rw [if_pos h, if_pos h]
    · rw [if_neg h, if_neg h, Nat.max_zero]
  rw [hfold, foldl_max_le_iff
      (f := fun e : Position × Cell => if e.2.value.isUsed then e.1.row else 0),
    forall_mem_toList (P := fun p c => (if c.value.isUsed then p.row else 0) ≤ n)]
  constructor
  · rintro ⟨-, h⟩ p hp
    -- only an allocated cell shows a value
    have hmem : p ∈ s.cells := by
      refine mem_of_cell_ne ?_
      intro hc
      rw [value, hc] at hp
      cases hp
    have hrow := h p hmem
    rw [value] at hp
    rwa [if_pos hp] at hrow
  · intro h
    refine ⟨Nat.zero_le n, ?_⟩
    intro p _
    by_cases hp : (s.cell p).value.isUsed = true
    · rw [if_pos hp]
      exact h p hp
    · rw [if_neg hp]
      exact Nat.zero_le n

theorem isUsed_of_lastUsed_lt (h : s.lastUsed < p.row) : (s.value p).isUsed = false := by
  rw [← Bool.not_eq_true]
  intro hused
  have hrow := lastUsed_le_iff.mp (Nat.le_refl s.lastUsed) p hused
  omega

/-- A sheet reaches a row if something is in use in it or further down. -/
theorem le_lastUsed_iff {n : Nat} (hn : 1 ≤ n) :
    n ≤ s.lastUsed ↔ ∃ p, (s.value p).isUsed = true ∧ n ≤ p.row := by
  constructor
  · intro hle
    by_contra hnone
    have habove : s.lastUsed ≤ n - 1 := lastUsed_le_iff.mpr fun p hp => by
      have hrow : ¬n ≤ p.row := fun hrow => hnone ⟨p, hp, hrow⟩
      omega
    omega
  · rintro ⟨p, hp, hrow⟩
    exact Nat.le_trans hrow (lastUsed_le_iff.mp (Nat.le_refl _) p hp)

end Sheet

end Sheetwright.Grid
