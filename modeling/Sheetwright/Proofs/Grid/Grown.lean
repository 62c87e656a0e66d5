import Sheetwright.Proofs.Grid.Content
/-!
# A sheet that grows

Searching a sheet allocates cells of the searched column and copying it allocates the anchors of its
merged ranges, so its extent may grow while its content stays the same. `Grown` bounds how far: rows
grow within the head of the sheet only, columns up to the searched one and up to the anchors. Once
it was copied and searched it is `Settled` and has its full width.
-/

namespace Sheetwright.Grid.Sheet

open Operation

variable {s t u : Sheet} {p : Position} {head column : Nat} {area : Position → Prop}

/-! ## Extent -/

/-- The merged ranges begin in the allocated rows, or at least in the head of the sheet. -/
def Anchored (head : Nat) (s : Sheet) : Prop :=
  ∀ r ∈ s.merged, r.minRow ≤ s.maxRow ∨ r.minRow < head

instance (head : Nat) (s : Sheet) : Decidable (s.Anchored head) :=
  inferInstanceAs (Decidable (∀ r ∈ s.merged, r.minRow ≤ s.maxRow ∨ r.minRow < head))

/-- The last column of a sheet once a column was searched and the anchors were opened. -/
def reach (s : Sheet) (column : Nat) : Nat :=
  s.merged.foldl (fun last r => max last r.minColumn) (max s.maxColumn column)

theorem reach_le_iff {n : Nat} :
    s.reach column ≤ n ↔ max s.maxColumn column ≤ n ∧ ∀ r ∈ s.merged, r.minColumn ≤ n :=
  foldl_max_le_iff (f := fun r : Range => r.minColumn)

theorem maxColumn_le_reach (s : Sheet) (column : Nat) : s.maxColumn ≤ s.reach column :=
  Nat.le_trans (Nat.le_max_left _ _) (reach_le_iff.mp (Nat.le_refl _)).1

theorem column_le_reach (s : Sheet) (column : Nat) : column ≤ s.reach column :=
  Nat.le_trans (Nat.le_max_right _ _) (reach_le_iff.mp (Nat.le_refl _)).1

theorem anchor_le_reach {r : Range} (column : Nat) (hr : r ∈ s.merged) :
    r.minColumn ≤ s.reach column :=
  (reach_le_iff.mp (Nat.le_refl _)).2 r hr

/-- The cell may be allocated in a sheet grown from the first one. -/
structure InReach (head column : Nat) (s : Sheet) (p : Position) : Prop where
  row : p.row ≤ s.maxRow ∨ p.row < head
  column : p.column ≤ s.reach column

/-- The second sheet has the content of the first one and is at least as large; beyond that only
cells within reach are allocated. -/
structure Grown (head column : Nat) (s t : Sheet) : Prop where
  content : s.SameContent t
  le_maxRow : s.maxRow ≤ t.maxRow
  le_maxColumn : s.maxColumn ≤ t.maxColumn
  inReach : ∀ p ∈ t.cells, InReach head column s p

/-- A sheet of the same content and extent. -/
theorem Grown.of_sameContent (h : s.SameContent t) (hrow : t.maxRow = s.maxRow)
    (hcolumn : t.maxColumn = s.maxColumn) : Grown head column s t where
  content := h
  le_maxRow := Nat.le_of_eq hrow.symm
  le_maxColumn := Nat.le_of_eq hcolumn.symm
  inReach p hp :=
    { row := Or.inl (hrow ▸ row_le_maxRow hp)
      column := by
        have hle := column_le_maxColumn hp
        rw [hcolumn] at hle
        exact Nat.le_trans hle (s.maxColumn_le_reach column) }

theorem Grown.refl (head column : Nat) (s : Sheet) : Grown head column s s :=
  .of_sameContent (.refl s) rfl rfl

/-- The last row is still the same, unless both lie in the head. -/
theorem Grown.maxRow_eq_or (h : Grown head column s t) :
    t.maxRow = s.maxRow ∨ s.maxRow < head ∧ t.maxRow < head := by
  -- if the sheet does not end in its head, no cell below its last row is within reach
  rcases Nat.lt_or_ge s.maxRow head with hlow | hhigh
  · right
    refine ⟨hlow, ?_⟩
    have hle : t.maxRow ≤ head - 1 := by
      refine maxRow_le_iff.mpr ⟨by have := s.one_le_maxRow; omega, fun p hp => ?_⟩
      rcases (h.inReach p hp).row with hrow | hrow
      · omega
      · omega
    omega
  · left
    refine Nat.le_antisymm (maxRow_le_iff.mpr ⟨s.one_le_maxRow, fun p hp => ?_⟩) h.le_maxRow
    rcases (h.inReach p hp).row with hrow | hrow
    · exact hrow
    · omega

theorem Grown.maxColumn_le (h : Grown head column s t) : t.maxColumn ≤ s.reach column :=
  maxColumn_le_iff.mpr ⟨Nat.le_trans s.one_le_maxColumn (s.maxColumn_le_reach column),
    fun p hp => (h.inReach p hp).column⟩

/-- More empty cells within reach may be allocated. -/
theorem Grown.widened (h : Grown head column s t) (hw : Widened area t u)
    (harea : ∀ p, area p → InReach head column s p) : Grown head column s u where
  content := h.content.trans hw.toAlike.sameContent
  le_maxRow := Nat.le_trans h.le_maxRow (maxRow_mono hw.mem)
  le_maxColumn := Nat.le_trans h.le_maxColumn (maxColumn_mono hw.mem)
  inReach p hp := by
    rcases hw.within p hp with hp | hp
    · exact h.inReach p hp
    · exact harea p hp

/-- The cells that a search may allocate are within reach. -/
theorem Grown.inReach_of_searchArea (h : Grown head column s t) (hp : t.searchArea column p) :
    InReach head column s p where
  row := by
    rcases h.maxRow_eq_or with heq | hlow
    · exact Or.inl (heq ▸ hp.1)
    · exact Or.inr (Nat.lt_of_le_of_lt hp.1 hlow.2)
  column := by
    rcases hp.2 with hcolumn | rfl
    · exact Nat.le_trans hcolumn h.maxColumn_le
    · exact s.column_le_reach p.column

theorem Grown.frame (h : Grown head column s t) (hanchored : s.Anchored head) :
    Grown head column s t.frame where
  content := h.content.trans t.reframed_frame.sameContent
  le_maxRow :=
    Nat.le_trans h.le_maxRow (maxRow_mono fun p hp => mem_frame.mpr (Or.inr hp))
  le_maxColumn :=
    Nat.le_trans h.le_maxColumn (maxColumn_mono fun p hp => mem_frame.mpr (Or.inr hp))
  inReach p hp := by
    rcases mem_frame.mp hp with ⟨r, hr, rfl⟩ | hp
    · rw [h.content.merged_eq] at hr
      exact ⟨hanchored r hr, anchor_le_reach column hr⟩
    · exact h.inReach p hp

/-! ## Searching and copying -/

/-- The anchors of the merged ranges are allocated. -/
def Seated (s : Sheet) : Prop := ∀ r ∈ s.merged, r.anchor ∈ s.cells

theorem seated_frame (s : Sheet) : s.frame.Seated := by
  intro r hr
  rw [s.reframed_frame.merged_eq] at hr
  exact mem_frame.mpr (Or.inl ⟨r, hr, rfl⟩)

theorem Seated.widened (h : s.Seated) (hw : Widened area s t) : t.Seated := by
  intro r hr
  rw [hw.merged_eq] at hr
  exact hw.mem _ (h r hr)

/-- The second sheet is the first one as it is after it was copied and searched. -/
structure Settled (head column : Nat) (s t : Sheet) : Prop extends Grown head column s t where
  seated : t.Seated
  searched : column ≤ t.maxColumn

theorem Settled.maxColumn_eq (h : Settled head column s t) : t.maxColumn = s.reach column := by
  refine Nat.le_antisymm h.maxColumn_le (reach_le_iff.mpr ⟨?_, fun r hr => ?_⟩)
  · exact Nat.max_le.mpr ⟨h.le_maxColumn, h.searched⟩
  · rw [← h.content.merged_eq] at hr
    exact column_le_maxColumn (h.seated r hr)

theorem Settled.widened (h : Settled head column s t) (hw : Widened area t u)
    (harea : ∀ p, area p → InReach head column s p) : Settled head column s u where
  toGrown := h.toGrown.widened hw harea
  seated := h.seated.widened hw
  searched := Nat.le_trans h.searched (maxColumn_mono hw.mem)

/-- The first and the last row that carry a tag. -/
def tagged? (s : Sheet) (column : Nat) (tag : String) : Option (Nat × Nat) :=
  ends? (s.rows.filter fun row => s.isTagged ⟨row, column⟩ tag)

theorem SameContent.isTagged_eq (h : s.SameContent t) (p : Position) (tag : String) :
    t.isTagged p tag = s.isTagged p tag := by
  rw [isTagged, isTagged, h.value_eq]

theorem le_maxRow_of_isTagged {tag : String} (h : s.isTagged p tag = true) : p.row ≤ s.maxRow := by
  refine row_le_maxRow (mem_of_cell_ne fun hempty => ?_)
  rw [isTagged, value, hempty] at h
  cases h

/-- A sheet that has grown carries its tags in the same rows. -/
theorem Grown.tagged?_eq (h : Grown head column s t) (tag : String) :
    t.tagged? column tag = s.tagged? column tag := by
  have hsplit : t.rows = s.rows ++ List.range' (s.maxRow + 1) (t.maxRow - s.maxRow) := by
    have hle := h.le_maxRow
    have hcount : t.maxRow = s.maxRow + (t.maxRow - s.maxRow) := by
      omega
    rw [rows, rows, Range.span, Range.span, Nat.add_sub_cancel, Nat.add_sub_cancel]
    conv_lhs => rw [hcount]
    rw [← List.range'_append_1, Nat.add_comm 1]
  -- the rows that have come in addition are blank
  have hmore : (List.range' (s.maxRow + 1) (t.maxRow - s.maxRow)).filter
      (fun row => s.isTagged ⟨row, column⟩ tag) = [] := by
    rw [List.filter_eq_nil_iff]
    intro row hrow htag
    have hle : row ≤ s.maxRow := le_maxRow_of_isTagged htag
    rw [List.mem_range'_1] at hrow
    omega
  rw [tagged?, tagged?, hsplit]
  simp only [h.content.isTagged_eq]
  rw [List.filter_append, hmore, List.append_nil]

theorem Grown.run_findTagged (h : Grown head column s t) (hseated : t.Seated)
    (hcolumn : 1 ≤ column) (tag : String) :
    ∃ u, (findTagged column tag).run t = .ok (s.tagged? column tag) u ∧
      Settled head column s u ∧ SameTitle t u := by
  have hw := keeps_findTagged hcolumn tag t
  have hrun := Sheet.run_findTagged hcolumn tag t
  rw [after_of_ok hrun] at hw
  have hgrown := h.widened hw fun p hp => h.inReach_of_searchArea hp
  have hfound := hgrown.tagged?_eq tag
  rw [tagged?] at hfound
  rw [hfound] at hrun
  refine ⟨_, hrun, ⟨hgrown, hseated.widened hw, ?_⟩, hw.title_eq⟩
  -- the search opens the searched column at least in the first row
  have hmem : (⟨1, column⟩ : Position) ∈ (t.allocateBlock t.rows [column]).cells := by
    refine mem_allocateBlock_self ?_ (List.mem_singleton_self column)
    exact mem_span.mpr ⟨Nat.le_refl 1, t.one_le_maxRow⟩
  exact column_le_maxColumn hmem

end Sheetwright.Grid.Sheet
