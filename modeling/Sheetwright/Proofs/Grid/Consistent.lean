import Sheetwright.Proofs.Grid.Merged
import Sheetwright.Workbook.Stored
/-!
# Sheets with consistent merged ranges

A sheet is consistent if no two of its merged ranges share a cell and no value sits on a cell that a
range covers. Only then does nothing get lost when it is stored, since the covered cells of a stored
sheet come back blank (`Consistent.value_stored`). If all cells of the ranges are allocated besides,
the sheet is as merging leaves it, and what clearing its rows leaves is told exactly: its head and
nothing else (`WellMerged.heads_of_clearFrom`).
-/

namespace Sheetwright.Grid.Sheet

open Operation

variable {s t u : Sheet} {r : Range} {p : Position} {first : Nat}

/-! ## Consistency -/

/-- No two merged ranges share a cell, and no value sits on a cell that a range covers. -/
structure Consistent (s : Sheet) : Prop where
  disjoint : s.merged.Pairwise Range.Disjoint
  blank : ∀ r ∈ s.merged, ∀ p ∈ r.rest, s.value p = .blank

instance (s : Sheet) : Decidable s.Consistent :=
  decidable_of_iff (s.merged.Pairwise Range.Disjoint ∧
      ∀ r ∈ s.merged, ∀ p ∈ r.rest, s.value p = .blank)
    ⟨fun h => ⟨h.1, h.2⟩, fun h => ⟨h.disjoint, h.blank⟩⟩

theorem Consistent.of_value_eq (h : s.Consistent) (hvalue : ∀ p, t.value p = s.value p)
    (hmerged : t.merged = s.merged) : t.Consistent where
  disjoint := by
    rw [hmerged]
    exact h.disjoint
  blank r hr p hp := by
    rw [hmerged] at hr
    rw [hvalue, h.blank r hr p hp]

/-- Which rows are in use depends on the values only. -/
theorem lastUsed_eq_of_value_eq (h : ∀ p, t.value p = s.value p) : t.lastUsed = s.lastUsed := by
  have hiff (n : Nat) : t.lastUsed ≤ n ↔ s.lastUsed ≤ n := by
    simp only [lastUsed_le_iff, h]
  exact Nat.le_antisymm ((hiff _).mpr (Nat.le_refl _)) ((hiff _).mp (Nat.le_refl _))

/-- Merging a range that shares no cell with the others keeps a sheet consistent. -/
theorem Consistent.merge (h : s.Consistent) (hr : ∀ r' ∈ s.merged, r'.Disjoint r) :
    (s.merge r).Consistent := by
  -- covering blanks the new range behind its anchor and leaves every other value
  have hvalue (r' : Range) (hr' : r' ∈ s.merged ∨ r' = r) (p : Position) (hp : p ∈ r'.rest) :
      (s.merge r).value p = .blank := by
    have hcontent := s.content_merge r p
    by_cases hrest : p ∈ r.rest
    · rw [if_pos hrest] at hcontent
      exact value_of_covered hcontent
    · rw [if_neg hrest] at hcontent
      rw [value_of_content_eq hcontent]
      rcases hr' with hmem | rfl
      · exact h.blank r' hmem p hp
      · exact absurd hp hrest
  have hmerged := s.merged_merge r
  rw [noted] at hmerged
  split at hmerged
  · rw [← hmerged] at hvalue
    exact ⟨hmerged ▸ h.disjoint, fun r' hr' => hvalue r' (Or.inl hr')⟩
  · constructor
    · rw [hmerged, List.pairwise_append]
      exact ⟨h.disjoint, List.pairwise_singleton _ _, fun r' hr' r'' hr'' =>
        List.mem_singleton.mp hr'' ▸ hr r' hr'⟩
    · intro r' hr'
      rw [hmerged, List.mem_append, List.mem_singleton] at hr'
      exact hvalue r' hr'

/-! ## Storing -/

/-- What a stored cell comes back as. -/
theorem value_stored? (c : Cell) : (c.stored?.getD {}).value = c.value.stored := by
  rcases c with ⟨⟨kind, value⟩ | _, style⟩
  · rw [Cell.stored?]
    dsimp only
    split
    next hblank =>
      rw [Bool.and_eq_true, decide_eq_true_eq] at hblank
      rw [Cell.value, hblank.1]
      rfl
    next => rfl
  · rw [Cell.stored?]
    dsimp only
    split <;> rfl

/-- A consistent sheet that is stored keeps all its values, as far as they can be stored. -/
theorem Consistent.value_stored (h : s.Consistent) (p : Position) :
    s.stored.value p = (s.value p).stored := by
  have hkept : ({ s with cells := s.cells.filterMap fun _ c => c.stored? } : Sheet).value p =
      (s.value p).stored := by
    rw [value, value, ← value_stored?]
    simp only [cell, Std.ExtTreeMap.getD_eq_getD_getElem?, Std.ExtTreeMap.getElem?_filterMap]
    cases s.cells[p]? with
    | some c => rfl
    | none => rfl
  have hcontent := content_foldl content_cover
    { s with cells := s.cells.filterMap fun _ c => c.stored? } s.merged p
  rw [← hkept, stored]
  -- a covered cell is blank already, so nothing is lost where it is stored as covered
  by_cases hrest : ∃ r ∈ s.merged, p ∈ r.rest
  · rw [if_pos hrest] at hcontent
    rcases hrest with ⟨r, hr, hp⟩
    rw [value_of_covered hcontent, hkept, h.blank r hr p hp]
    rfl
  · rw [if_neg hrest] at hcontent
    exact value_of_content_eq hcontent

/-! ## Clearing -/

/-- The merged ranges are as merging leaves them: consistent, with all their cells allocated. -/
structure WellMerged (s : Sheet) : Prop extends Consistent s where
  present : ∀ r ∈ s.merged, ∀ p ∈ r.positions, p ∈ s.cells

instance (s : Sheet) : Decidable s.WellMerged :=
  decidable_of_iff (s.Consistent ∧ ∀ r ∈ s.merged, ∀ p ∈ r.positions, p ∈ s.cells)
    ⟨fun h => ⟨h.1, h.2⟩, fun h => ⟨h.toConsistent, h.present⟩⟩

theorem WellMerged.merge (h : s.WellMerged) (hr : ∀ r' ∈ s.merged, r'.Disjoint r) :
    (s.merge r).WellMerged where
  toConsistent := h.toConsistent.merge hr
  present r' hr' p hp := by
    rw [merged_merge, noted] at hr'
    rw [mem_merge]
    split at hr'
    · exact Or.inr (h.present r' hr' p hp)
    · rcases List.mem_append.mp hr' with hmem | hmem
      · exact Or.inr (h.present r' hmem p hp)
      · exact Or.inl (List.mem_singleton.mp hmem ▸ hp)

theorem WellMerged.separable (h : s.WellMerged) : s.Separable where
  present r hr p hp := h.present r hr p (Range.mem_positions_of_rest hp)
  apart := h.disjoint.imp fun hdisjoint p hp hp' =>
    hdisjoint p (Range.mem_positions_of_rest hp) (Range.mem_positions_of_rest hp')

theorem WellMerged.of_mem (h : s.WellMerged) (hvalue : ∀ p, t.value p = s.value p)
    (hmerged : t.merged = s.merged) (hmem : ∀ p ∈ s.cells, p ∈ t.cells) : t.WellMerged where
  toConsistent := h.toConsistent.of_value_eq hvalue hmerged
  present r hr p hp := hmem p (h.present r (hmerged ▸ hr) p hp)

theorem WellMerged.maxRow_le (h : s.WellMerged) (hr : r ∈ s.merged) : r.maxRow ≤ s.maxRow :=
  row_le_maxRow (h.present r hr _ r.corner_mem)

/-- The head of a sheet: the rows above a first one, with the merged ranges inside them. -/
def head (s : Sheet) (first : Nat) : Sheet :=
  { s with
    cells := s.cells.filter fun p _ => p.row < first
    merged := s.merged.filter (·.maxRow < first) }

theorem cell_head (s : Sheet) (first : Nat) (p : Position) :
    (s.head first).cell p = if p.row < first then s.cell p else {} := by
  simp only [cell, head, Std.ExtTreeMap.getD_eq_getD_getElem?, Std.ExtTreeMap.getElem?_filter']
  cases s.cells[p]? with
  | some c => by_cases h : p.row < first <;> simp [Option.filter, h]
  | none => split <;> rfl

/-- The second sheet holds what the head of the first one holds, and nothing else. -/
structure Heads (first : Nat) (s u : Sheet) : Prop where
  value_eq : ∀ p, p.row < first → u.value p = s.value p
  blank : ∀ p, first ≤ p.row → u.cell p = {}
  merged_eq : u.merged = s.merged.filter (·.maxRow < first)

theorem Heads.value_head (h : Heads first s u) (p : Position) :
    u.value p = (s.head first).value p := by
  rw [value, value, cell_head]
  split
  next hp => exact h.value_eq p hp
  next hp => rw [h.blank p (by omega)]

/-- The last used row is that of the head. -/
theorem Heads.lastUsed_eq (h : Heads first s u) : u.lastUsed = (s.head first).lastUsed :=
  lastUsed_eq_of_value_eq h.value_head

theorem WellMerged.nodup_merged (h : s.WellMerged) : s.merged.Nodup :=
  h.disjoint.imp fun hdisjoint => hdisjoint.ne

/-- Clearing a sheet from a row on leaves its head. A range that reaches over the row is taken
apart; the cells above the row that it covered were blank anyway. -/
theorem WellMerged.heads_of_clearFrom (h : s.WellMerged)
    (hrun : (clearFrom first).run s = .ok () u) : Heads first s u := by
  rw [clearFrom, EStateM.run_bind, EStateM.run_get] at hrun
  dsimp only at hrun
  split at hrun
  next hlow =>
    rcases clearRows_ok hlow hrun with ⟨hcells, hmerged⟩
    refine ⟨fun p hp => ?_, fun p hp => hcells.blank p (Or.inr hp), ?_⟩
    · by_cases hrest : ∃ r ∈ s.touched first s.maxRow, p ∈ r.rest
      · rcases hrest with ⟨r, hr, hpr⟩
        rw [h.blank r (List.mem_of_mem_filter hr) p hpr, value,
          hcells.blank p (Or.inl ⟨r, hr, hpr⟩)]
        rfl
      · rw [value, hcells.kept p (not_or.mpr ⟨hrest, by omega⟩), value]
    · rw [hmerged, ← List.diff_eq_foldl, h.nodup_merged.sdiff_eq_filter]
      refine List.filter_congr fun r hr => ?_
      -- every range begins within the allocated rows, so it is touched if it reaches far enough
      have hmax := h.maxRow_le hr
      have hrow := r.row_le
      simp only [touched, List.mem_filter, hr, true_and, Bool.and_eq_true, decide_eq_true_eq,
        decide_eq_decide]
      omega
  next hlow =>
    cases hrun
    refine ⟨fun _ _ => rfl, fun p hp => ?_, ?_⟩
    · by_contra hne
      have hrow := row_le_maxRow (mem_of_cell_ne hne)
      omega
    · refine (List.filter_eq_self.mpr fun r hr => ?_).symm
      have hmax := h.maxRow_le hr
      simp only [decide_eq_true_eq]
      omega

end Sheetwright.Grid.Sheet
