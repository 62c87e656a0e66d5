import Mathlib.Data.List.Pairwise
import Sheetwright.Proofs.Grid.Content
import Sheetwright.Proofs.Grid.Separable
/-!
# What merging does to a sheet

Merging a range covers all its cells but the anchor, and draws lines: the anchor takes over the
right and the bottom line of the last cell. Nothing else is touched, so several ranges may be merged
in any order as long as they share no cell: `content_foldl_merge` says what the cells hold then,
whether they share cells or not, and `cell_foldl_merge_anchor` how an anchor looks.
-/

namespace Sheetwright.Grid

namespace Range

variable {r r' : Range} {p : Position}

/-! ## Cells of a range -/

theorem mem_positions :
    p ∈ r.positions ↔
      (r.minRow ≤ p.row ∧ p.row ≤ r.maxRow) ∧ r.minColumn ≤ p.column ∧ p.column ≤ r.maxColumn := by
  rw [positions, List.mem_flatMap]
  constructor
  · rintro ⟨row, hrow, hp⟩
    rcases List.mem_map.mp hp with ⟨column, hcolumn, rfl⟩
    exact ⟨Sheet.mem_span.mp hrow, Sheet.mem_span.mp hcolumn⟩
  · rintro ⟨hrow, hcolumn⟩
    exact ⟨p.row, Sheet.mem_span.mpr hrow, List.mem_map.mpr ⟨p.column, Sheet.mem_span.mpr hcolumn,
      rfl⟩⟩

/-- The range that reaches some rows down and some columns to the right from a cell. -/
def reaching (row column down right : Nat) : Range :=
  ⟨row, column, row + down, column + right, Nat.le_add_right _ _, Nat.le_add_right _ _⟩

theorem anchor_mem (r : Range) : r.anchor ∈ r.positions :=
  mem_positions.mpr ⟨⟨Nat.le_refl _, r.row_le⟩, Nat.le_refl _, r.column_le⟩

theorem corner_mem (r : Range) : r.corner ∈ r.positions :=
  mem_positions.mpr ⟨⟨r.row_le, Nat.le_refl _⟩, r.column_le, Nat.le_refl _⟩

theorem positions_eq (r : Range) : r.positions = r.anchor :: r.rest := by
  have hspan {first last : Nat} (h : first ≤ last) :
      span first last = first :: span (first + 1) last := by
    have hlength : last + 1 - first = last - first + 1 := by omega
    have hrest : last + 1 - (first + 1) = last - first := by omega
    rw [span, span, hlength, hrest, List.range'_succ]
  have hcons : ∃ more, r.positions = r.anchor :: more := by
    rw [positions, rows, hspan r.row_le, List.flatMap_cons, columns, hspan r.column_le,
      List.map_cons, List.cons_append]
    exact ⟨_, rfl⟩
  rcases hcons with ⟨more, hmore⟩
  rw [rest, hmore]
  rfl

/-- All cells of a range but the first are covered by it. -/
theorem mem_rest : p ∈ r.rest ↔ p ∈ r.positions ∧ p ≠ r.anchor := by
  have hnodup := r.nodup_positions
  rw [positions_eq, List.nodup_cons] at hnodup
  rw [positions_eq, List.mem_cons]
  constructor
  · intro hp
    exact ⟨Or.inr hp, fun heq => hnodup.1 (heq ▸ hp)⟩
  · rintro ⟨hp, hne⟩
    exact hp.resolve_left hne

theorem mem_positions_of_rest (h : p ∈ r.rest) : p ∈ r.positions := (mem_rest.mp h).1

/-- The ranges have no cell in common. -/
def Disjoint (r r' : Range) : Prop := ∀ p ∈ r.positions, p ∉ r'.positions

instance (r r' : Range) : Decidable (r.Disjoint r') :=
  inferInstanceAs (Decidable (∀ p ∈ r.positions, p ∉ r'.positions))

theorem Disjoint.symm (h : r.Disjoint r') : r'.Disjoint r := fun p hp hp' => h p hp' hp

instance : Std.Symm Disjoint := ⟨fun _ _ h => h.symm⟩

theorem Disjoint.ne (h : r.Disjoint r') : r ≠ r' := by
  rintro rfl
  exact h _ r.anchor_mem r.anchor_mem

theorem disjoint_of_maxRow_lt (h : r.maxRow < r'.minRow) : r.Disjoint r' := by
  intro p hp hp'
  rw [mem_positions] at hp hp'
  omega

theorem anchor_mem_of_covers (h : r.covers r' = true) : r'.anchor ∈ r.positions := by
  simp only [covers, Bool.and_eq_true, decide_eq_true_eq] at h
  have hrows := r'.row_le
  have hcolumns := r'.column_le
  rw [mem_positions]
  exact ⟨⟨h.1.1.1, Nat.le_trans hrows h.1.1.2⟩, h.1.2, Nat.le_trans hcolumns h.2⟩

theorem covers_refl (r : Range) : r.covers r = true := by
  simp [covers]

end Range

namespace Sheet

variable {s t : Sheet} {r : Range} {ranges : List Range} {p : Position}

/-! ## One range -/

theorem mem_foldl_putCell {α : Type} {l : List α} {f : α → Position} {g : Sheet → α → Cell} :
    p ∈ (l.foldl (fun s a => s.putCell (f a) (g s a)) s).cells ↔
      (∃ a ∈ l, f a = p) ∨ p ∈ s.cells := by
  induction l generalizing s with
  | nil => simp
  | cons a l ih =>
    rw [List.foldl_cons, ih, mem_putCell]
    simp only [List.exists_mem_cons_iff, or_assoc, or_left_comm]

theorem cell_coverRest (s : Sheet) (r : Range) (p : Position) :
    (s.coverRest r).cell p = if p ∈ r.rest then { content := .covered } else s.cell p := by
  rw [coverRest]
  generalize r.rest = positions
  induction positions generalizing s with
  | nil => simp
  | cons q positions ih =>
    rw [List.foldl_cons, ih, cell_putCell]
    by_cases hp : p ∈ positions
    · simp [hp]
    · simp [hp, eq_comm]

/-- Drawing lines around cells touches the look of these cells, each by itself. -/
theorem cell_foldl_restyle {positions : List Position} (hnodup : positions.Nodup)
    (change : Position → Style → Style) (s : Sheet) (p : Position) :
    (positions.foldl (fun s p => s.restyle p (change p)) s).cell p =
      if p ∈ positions then { s.cell p with style := change p (s.cell p).style } else s.cell p := by
  induction positions generalizing s with
  | nil => simp
  | cons q positions ih =>
    rw [List.nodup_cons] at hnodup
    rw [List.foldl_cons, ih hnodup.2, cell_restyle]
    by_cases hq : q = p
    · subst hq
      simp [hnodup.1]
    · simp [hq, Ne.symm hq]

/-- The look of a cell of a range once the lines around its anchor are drawn. -/
def edged (r : Range) (anchor : Style) (p : Position) (style : Style) : Style :=
  { style with
    border := style.border.orElse (edgeLines r anchor.border p)
    locked := anchor.locked }

theorem cell_frameCells (s : Sheet) (r : Range) (p : Position) :
    (s.frameCells r).cell p =
      if p ∈ r.positions then
        { s.cell p with style := edged r (s.cell r.anchor).style p (s.cell p).style }
      else s.cell p :=
  cell_foldl_restyle r.nodup_positions (fun p style => edged r (s.cell r.anchor).style p style) s p

/-- The lines of an anchor are the lines around it already. -/
theorem edged_anchor (r : Range) (style : Style) : edged r style r.anchor style = style := by
  have hlines : style.border.orElse (edgeLines r style.border r.anchor) = style.border := by
    have hside (side : Option String) (b : Bool) :
        (side <|> if b = true then side else none) = side := by
      cases side <;> cases b <;> rfl
    have hleft := hside style.border.left (decide (r.anchor.column = r.minColumn))
    have hright := hside style.border.right (decide (r.anchor.column = r.maxColumn))
    have htop := hside style.border.top (decide (r.anchor.row = r.minRow))
    have hbottom := hside style.border.bottom (decide (r.anchor.row = r.maxRow))
    simp only [decide_eq_true_eq] at hleft hright htop hbottom
    rw [Border.orElse, edgeLines, hleft, hright, htop, hbottom]
  rw [edged, hlines]

/-- What a range covers holds nothing; its anchor and all other cells hold what they held. -/
theorem content_cover (s : Sheet) (r : Range) (p : Position) :
    ((s.cover r).cell p).content = if p ∈ r.rest then .covered else (s.cell p).content := by
  have hframe : ((s.frameAnchor r).cell p).content = (s.cell p).content := by
    rw [cell_frameAnchor]
    split
    next hp => rw [← hp]; rfl
    next => rfl
  have hcontent : ((s.cover r).cell p).content =
      (((s.frameAnchor r).coverRest r).cell p).content := by
    rw [cover, cell_frameCells]
    split <;> rfl
  rw [hcontent, cell_coverRest]
  split
  · rfl
  · exact hframe

theorem content_merge (s : Sheet) (r : Range) (p : Position) :
    ((s.merge r).cell p).content = if p ∈ r.rest then .covered else (s.cell p).content := by
  rw [merge]
  split
  · exact s.content_cover r p
  · exact s.content_cover r p

/-- A range has no influence on cells outside of it. -/
theorem cell_merge_of_not_mem (h : p ∉ r.positions) : (s.merge r).cell p = s.cell p := by
  have hcover : (s.cover r).cell p = s.cell p := by
    have hrest : p ∉ r.rest := fun hp => h (Range.mem_positions_of_rest hp)
    have hanchor : r.anchor ≠ p := fun heq => h (heq ▸ r.anchor_mem)
    rw [cover, cell_frameCells, if_neg h, cell_coverRest, if_neg hrest, cell_frameAnchor,
      if_neg hanchor]
  rw [merge]
  split
  · exact hcover
  · exact hcover

/-- The anchor takes over lines of the last cell. -/
theorem cell_merge_anchor (s : Sheet) (r : Range) :
    (s.merge r).cell r.anchor = withBorder (s.cell r.anchor) (s.anchorBorder r) := by
  have hrest : r.anchor ∉ r.rest := fun h => (Range.mem_rest.mp h).2 rfl
  have hframed : ((s.frameAnchor r).coverRest r).cell r.anchor =
      withBorder (s.cell r.anchor) (s.anchorBorder r) := by
    rw [cell_coverRest, if_neg hrest, cell_frameAnchor, if_pos rfl]
  have hcover : (s.cover r).cell r.anchor = withBorder (s.cell r.anchor) (s.anchorBorder r) := by
    rw [cover, cell_frameCells, if_pos r.anchor_mem, edged_anchor, hframed]
  rw [merge]
  split
  · exact hcover
  · exact hcover

theorem merged_cover (s : Sheet) (r : Range) : (s.cover r).merged = s.merged := by
  have hframe : (s.frameAnchor r).merged = s.merged := (s.sameButCells_frameAnchor r).merged_eq
  have hrest : ((s.frameAnchor r).coverRest r).merged = (s.frameAnchor r).merged :=
    foldl_induction (P := fun t => t.merged = (s.frameAnchor r).merged) rfl fun _ _ _ h => h
  exact foldl_induction (P := fun t => t.merged = s.merged) (hrest.trans hframe)
    fun _ _ _ h => h

theorem heights_cover (s : Sheet) (r : Range) : (s.cover r).heights = s.heights := by
  have hframe : (s.frameAnchor r).heights = s.heights := (s.sameButCells_frameAnchor r).heights_eq
  have hrest : ((s.frameAnchor r).coverRest r).heights = (s.frameAnchor r).heights :=
    foldl_induction (P := fun t => t.heights = (s.frameAnchor r).heights) rfl fun _ _ _ h => h
  exact foldl_induction (P := fun t => t.heights = s.heights) (hrest.trans hframe)
    fun _ _ _ h => h

/-- The list of merged ranges with one more, unless that lies inside one of them. -/
def noted (ranges : List Range) (r : Range) : List Range :=
  if ranges.any (·.covers r) then ranges else ranges ++ [r]

theorem merged_merge (s : Sheet) (r : Range) : (s.merge r).merged = noted s.merged r := by
  rw [merge, noted]
  simp only [merged_cover]
  split
  · exact s.merged_cover r
  · rfl

theorem heights_merge (s : Sheet) (r : Range) : (s.merge r).heights = s.heights := by
  rw [merge]
  split
  · exact s.heights_cover r
  · exact s.heights_cover r

theorem mem_merge : p ∈ (s.merge r).cells ↔ p ∈ r.positions ∨ p ∈ s.cells := by
  have hframed : p ∈ (s.frameAnchor r).cells → p ∈ r.positions ∨ p ∈ s.cells := by
    rw [mem_frameAnchor]
    rintro (rfl | hp)
    · exact Or.inl r.anchor_mem
    · exact Or.inr hp
  -- framing and covering only touch cells that the range already allocates
  have hcover : p ∈ (s.cover r).cells ↔ p ∈ r.positions ∨ p ∈ s.cells := by
    rw [cover, frameCells, coverRest]
    simp only [restyle]
    rw [mem_foldl_putCell, mem_foldl_putCell]
    simp only [exists_eq_right]
    constructor
    · rintro (hp | hp | hp)
      · exact Or.inl hp
      · exact Or.inl (Range.mem_positions_of_rest hp)
      · exact hframed hp
    · rintro (hp | hp)
      · exact Or.inl hp
      · exact Or.inr (Or.inr (mem_frameAnchor.mpr (Or.inr hp)))
  rw [merge]
  split
  · exact hcover
  · exact hcover

/-! ## Several ranges -/

/-- What any of the ranges covers holds nothing, and all other cells hold what they held, whether
the ranges are noted or not. -/
theorem content_foldl {f : Sheet → Range → Sheet}
    (hf : ∀ s r p, ((f s r).cell p).content = if p ∈ r.rest then .covered else (s.cell p).content)
    (s : Sheet) (ranges : List Range) (p : Position) :
    ((ranges.foldl f s).cell p).content =
      if ∃ r ∈ ranges, p ∈ r.rest then .covered else (s.cell p).content := by
  induction ranges generalizing s with
  | nil => simp
  | cons r ranges ih =>
    rw [List.foldl_cons, ih, hf]
    by_cases hrest : ∃ r ∈ ranges, p ∈ r.rest
    · rw [if_pos hrest, if_pos]
      rcases hrest with ⟨r', hr', hp⟩
      exact ⟨r', List.mem_cons_of_mem r hr', hp⟩
    · rw [if_neg hrest]
      simp only [List.exists_mem_cons_iff, hrest, or_false]

theorem content_foldl_merge (s : Sheet) (ranges : List Range) (p : Position) :
    ((ranges.foldl merge s).cell p).content =
      if ∃ r ∈ ranges, p ∈ r.rest then .covered else (s.cell p).content :=
  content_foldl content_merge s ranges p

/-- Cells outside of the ranges stay as they are. -/
theorem cell_foldl_merge_of_not_mem (h : ∀ r ∈ ranges, p ∉ r.positions) :
    (ranges.foldl merge s).cell p = s.cell p := by
  induction ranges generalizing s with
  | nil => rfl
  | cons r ranges ih =>
    rw [List.forall_mem_cons] at h
    rw [List.foldl_cons, ih h.2, cell_merge_of_not_mem h.1]

/-- If no two of the ranges share a cell, each anchor takes over lines of the last cell of its own
range as it was before. -/
theorem cell_foldl_merge_anchor (hdisjoint : ranges.Pairwise Range.Disjoint) (hr : r ∈ ranges) :
    (ranges.foldl merge s).cell r.anchor = withBorder (s.cell r.anchor) (s.anchorBorder r) := by
  induction ranges generalizing s with
  | nil => cases hr
  | cons r' ranges ih =>
    rw [List.pairwise_cons] at hdisjoint
    rw [List.foldl_cons]
    rcases List.mem_cons.mp hr with rfl | hmem
    · rw [cell_foldl_merge_of_not_mem fun r' hr' => hdisjoint.1 r' hr' _ r.anchor_mem,
        cell_merge_anchor]
    -- the cells of the range are as they were when its turn comes
    · have hcell {p : Position} (hp : p ∈ r.positions) : (s.merge r').cell p = s.cell p :=
        cell_merge_of_not_mem ((hdisjoint.1 r hmem).symm p hp)
      rw [ih hdisjoint.2 hmem, anchorBorder, anchorBorder, hcell r.anchor_mem, hcell r.corner_mem]

theorem merged_foldl_merge (s : Sheet) (ranges : List Range) :
    (ranges.foldl merge s).merged = ranges.foldl noted s.merged := by
  induction ranges generalizing s with
  | nil => rfl
  | cons r ranges ih => rw [List.foldl_cons, List.foldl_cons, ih, merged_merge]

/-- Of several ranges those are noted that do not lie inside one that is noted already. -/
theorem exists_foldl_noted (before ranges : List Range) :
    ∃ more, more.Sublist ranges ∧ ranges.foldl noted before = before ++ more ∧
      ∀ r ∈ ranges, ∃ r' ∈ before ++ more, r'.covers r = true := by
  induction ranges generalizing before with
  | nil => exact ⟨[], .slnil, (List.append_nil before).symm, nofun⟩
  | cons r ranges ih =>
    rw [List.foldl_cons, noted]
    split
    next hany =>
      rcases ih before with ⟨more, hsub, heq, hcovers⟩
      refine ⟨more, hsub.cons r, heq, List.forall_mem_cons.mpr ⟨?_, hcovers⟩⟩
      rcases List.any_eq_true.mp hany with ⟨r', hr', hcover⟩
      exact ⟨r', List.mem_append_left _ hr', hcover⟩
    next =>
      rcases ih (before ++ [r]) with ⟨more, hsub, heq, hcovers⟩
      rw [List.append_assoc, List.singleton_append] at heq hcovers
      refine ⟨r :: more, hsub.cons_cons r, heq, List.forall_mem_cons.mpr ⟨?_, hcovers⟩⟩
      exact ⟨r, List.mem_append_cons_self, r.covers_refl⟩

/-- If none lies inside another one that comes before, all of them are noted. -/
theorem foldl_noted_of_apart {before ranges : List Range}
    (hbefore : ∀ r ∈ ranges, ∀ r' ∈ before, r'.covers r = false)
    (h : ranges.Pairwise fun r r' => r.covers r' = false) :
    ranges.foldl noted before = before ++ ranges := by
  induction ranges generalizing before with
  | nil => exact (List.append_nil before).symm
  | cons r ranges ih =>
    rw [List.forall_mem_cons] at hbefore
    rw [List.pairwise_cons] at h
    have hany : before.any (·.covers r) = false :=
      List.any_eq_false.mpr fun r' hr' => Bool.eq_false_iff.mp (hbefore.1 r' hr')
    rw [List.foldl_cons, noted, hany, if_neg Bool.false_ne_true, ih _ h.2, List.append_assoc,
      List.singleton_append]
    intro r' hr' r'' hr''
    rcases List.mem_append.mp hr'' with hmem | hmem
    · exact hbefore.2 r' hr' r'' hmem
    · exact List.mem_singleton.mp hmem ▸ h.1 r' hr'

theorem heights_foldl_merge (s : Sheet) (ranges : List Range) :
    (ranges.foldl merge s).heights = s.heights :=
  foldl_induction (P := fun t => t.heights = s.heights) rfl fun t r _ ht => by
    rw [heights_merge, ht]

end Sheet

end Sheetwright.Grid
