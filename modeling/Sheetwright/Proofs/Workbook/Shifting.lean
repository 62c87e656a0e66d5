import Sheetwright.Proofs.Grid.Merged
import Sheetwright.Proofs.Workbook.Copying
/-!
# Places in a copy

A block is copied to rows of its own: a cell of the block has its place there for itself, and so has
a merged range inside the block. What ranges have to do with cells and with one another is the same
at the new place.
-/

namespace Sheetwright

open Grid

namespace Grid

/-- The place of a range in a copy of rows from a first one on. -/
def Range.shifted (first start : Nat) (r : Range) : Range where
  minRow := start + (r.minRow - first)
  minColumn := r.minColumn
  maxRow := start + (r.maxRow - first)
  maxColumn := r.maxColumn
  row_le := by
    have hrow := r.row_le
    omega
  column_le := r.column_le

theorem Range.eq_shifted {first start : Nat} {r r' : Range} (hfirst : first ≤ r.minRow)
    (h : ofBounds (r.minRow + ((start : Int) - first)) r.minColumn
      (r.maxRow + ((start : Int) - first)) r.maxColumn = .ok r') :
    r' = r.shifted first start := by
  have hrow := r.row_le
  rcases exists_of_bind_eq_ok h with ⟨left, hleft, h⟩
  rcases exists_of_bind_eq_ok h with ⟨top, htop, h⟩
  rcases exists_of_bind_eq_ok h with ⟨right, hright, h⟩
  rcases exists_of_bind_eq_ok h with ⟨bottom, hbottom, h⟩
  have htop := eq_of_bound htop
  have hbottom := eq_of_bound hbottom
  obtain rfl : left = r.minColumn := Int.ofNat_inj.mp (eq_of_bound hleft)
  obtain rfl : right = r.maxColumn := Int.ofNat_inj.mp (eq_of_bound hright)
  obtain rfl : top = start + (r.minRow - first) := by omega
  obtain rfl : bottom = start + (r.maxRow - first) := by omega
  -- of the ways to put the four bounds together only one makes a range
  split at h
  · split at h
    · cases h
      rfl
    · cases h
  · cases h

end Grid

namespace Workbook

variable {first last start lastColumn : Nat} {p q : Position} {r r' : Range} {t : Sheet}

theorem shifted_inj (hp : first ≤ p.row) (hq : first ≤ q.row)
    (h : shifted first start p = shifted first start q) : p = q := by
  cases p
  cases q
  simp only [shifted, Position.mk.injEq] at h hp hq ⊢
  omega

theorem mem_positions_shifted (hr : first ≤ r.minRow) (hp : first ≤ p.row) :
    shifted first start p ∈ (r.shifted first start).positions ↔ p ∈ r.positions := by
  have hrow := r.row_le
  simp only [Range.mem_positions, shifted, Range.shifted]
  omega

theorem mem_rest_shifted (hr : first ≤ r.minRow) (hp : first ≤ p.row) :
    shifted first start p ∈ (r.shifted first start).rest ↔ p ∈ r.rest := by
  have hanchor : shifted first start p = (r.shifted first start).anchor ↔ p = r.anchor :=
    ⟨fun h => shifted_inj hp hr h, fun h => h ▸ rfl⟩
  rw [Range.mem_rest, Range.mem_rest, mem_positions_shifted hr hp, ne_eq, hanchor]

theorem covers_shifted (hr : first ≤ r.minRow) (hr' : first ≤ r'.minRow) :
    (r.shifted first start).covers (r'.shifted first start) = r.covers r' := by
  have hrow := r.row_le
  have hrow' := r'.row_le
  rw [Bool.eq_iff_iff]
  simp only [Range.covers, Bool.and_eq_true, decide_eq_true_eq]
  simp only [Range.shifted]
  omega

theorem disjoint_shifted (hr : first ≤ r.minRow) (hr' : first ≤ r'.minRow)
    (h : r.Disjoint r') : (r.shifted first start).Disjoint (r'.shifted first start) := by
  intro q hq hq'
  -- a common cell is the place of a common cell
  have hrow := r.row_le
  obtain ⟨hrows, hcolumns⟩ := Range.mem_positions.mp hq
  simp only [Range.shifted] at hrows hcolumns
  have hplace : shifted first start ⟨first + (q.row - start), q.column⟩ = q := by
    cases q
    simp only [shifted, Position.mk.injEq, and_true] at hrows ⊢
    omega
  rw [← hplace] at hq hq'
  refine h _ ((mem_positions_shifted hr ?_).mp hq) ((mem_positions_shifted hr' ?_).mp hq')
  · exact Nat.le_add_right _ _
  · exact Nat.le_add_right _ _

/-! ## Blocks -/

/-- The cells of some rows up to a last column. -/
def block (first last width : Nat) (p : Position) : Prop :=
  (first ≤ p.row ∧ p.row ≤ last) ∧ 1 ≤ p.column ∧ p.column ≤ width

instance (first last width : Nat) (p : Position) : Decidable (block first last width p) :=
  inferInstanceAs (Decidable (_ ∧ _))

/-- The range lies inside a block. -/
def Inside (first last lastColumn : Nat) (r : Range) : Prop :=
  (first ≤ r.minRow ∧ r.maxRow ≤ last) ∧ r.maxColumn ≤ lastColumn

instance (first last lastColumn : Nat) (r : Range) : Decidable (Inside first last lastColumn r) :=
  inferInstanceAs (Decidable (_ ∧ _))

/-- Copying a block goes over its cells, then over the heights of its rows, then over the ranges
inside it. -/
theorem copyBlock_eq {source dest : Nat} (hfirst : 1 ≤ first) (hrows : first ≤ last)
    (hcolumns : 1 ≤ lastColumn) :
    copyBlock source first last dest start lastColumn = (do
      let width := min lastColumn ((← get).sheet source).maxColumn
      (integers first last).forM
        (copyRow source dest ((start : Int) - first) (integers 1 (width : Nat)))
      (integers first last).forM (copyHeight source dest ((start : Int) - first))
      let ranges := ((← get).sheet source).merged.filter fun r => Inside first last lastColumn r
      ranges.forM (copyMerge dest ((start : Int) - first))) := by
  have hwidth (s : Sheet) : boundOr s.maxColumn (min (lastColumn : Int) s.maxColumn) =
      (min lastColumn s.maxColumn : Nat) := by
    have hmax := s.one_le_maxColumn
    rw [boundOr, if_neg (by omega)]
    omega
  have hlow (n : Int) : boundOr n first = first := if_neg (by omega)
  have hhigh (n : Int) : boundOr n last = last := if_neg (by omega)
  have hinside (ranges : List Range) : (ranges.filter fun r => (first : Int) ≤ r.minRow &&
      ((r.maxRow : Int) ≤ last) && ((r.maxColumn : Int) ≤ lastColumn)) =
        ranges.filter fun r => Inside first last lastColumn r := by
    refine List.filter_congr fun r _ => ?_
    rw [Bool.eq_iff_iff]
    simp only [Bool.and_eq_true, decide_eq_true_eq, Int.ofNat_le, Inside]
    exact decide_eq_true_iff.symm
  simp only [copyBlock, hwidth, hlow, hhigh, hinside]

/-- The merged ranges inside a block of a sheet, at the place of its copy. -/
def copiedRanges (first last lastColumn start : Nat) (t : Sheet) : List Range :=
  (t.merged.filter fun r => Inside first last lastColumn r).map (·.shifted first start)

theorem mem_copiedRanges :
    r' ∈ copiedRanges first last lastColumn start t ↔
      ∃ r ∈ t.merged, Inside first last lastColumn r ∧ r.shifted first start = r' := by
  simp only [copiedRanges, List.mem_map, List.mem_filter, decide_eq_true_eq, and_assoc]

/-- The ranges of a copy lie in the rows of the copy. -/
theorem rows_of_mem_copiedRanges (h : r ∈ copiedRanges first last lastColumn start t) :
    start ≤ r.minRow ∧ r.maxRow ≤ start + (last - first) := by
  rcases mem_copiedRanges.mp h with ⟨r', -, hinside, rfl⟩
  have hrow := r'.row_le
  obtain ⟨⟨hmin, hmax⟩, -⟩ := hinside
  simp only [Range.shifted]
  omega

/-- What holds between ranges wherever they are holds between those of a copy. -/
theorem pairwise_copiedRanges {R : Range → Range → Prop}
    (hR : ∀ r r', first ≤ r.minRow → first ≤ r'.minRow → R r r' →
      R (r.shifted first start) (r'.shifted first start))
    (h : t.merged.Pairwise R) : (copiedRanges first last lastColumn start t).Pairwise R := by
  rw [copiedRanges, List.pairwise_map]
  refine (h.filter _).imp_of_mem fun hr hr' hrelated => ?_
  have hinside := of_decide_eq_true (List.mem_filter.mp hr).2
  have hinside' := of_decide_eq_true (List.mem_filter.mp hr').2
  exact hR _ _ hinside.1.1 hinside'.1.1 hrelated

theorem pairwise_disjoint_copiedRanges (h : t.merged.Pairwise Range.Disjoint) :
    (copiedRanges first last lastColumn start t).Pairwise Range.Disjoint :=
  pairwise_copiedRanges (fun _ _ => disjoint_shifted) h

theorem copiedRanges_eq {t' : Sheet} (ht : t.Alike t') :
    copiedRanges first last lastColumn start t' = copiedRanges first last lastColumn start t := by
  rw [copiedRanges, copiedRanges, ht.merged_eq]

end Workbook

end Sheetwright
