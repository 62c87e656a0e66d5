import Sheetwright.Proofs.Grid.Merged
/-!
# Clearing rows above others

Clearing rows is to leave everything outside of them as it is. The cells of the rows are removed and
those below close up (`ClosesUp`), while heights and merged ranges stay where they are. So all is as
it was exactly if nothing stood below the rows, and nothing above them on a cell that a range
reaching into the rows had covered: `clearRows_clears_iff`.
-/

namespace Sheetwright.Grid

theorem Cell.isVacant_iff {c : Cell} : c.isVacant = true ↔ c.value = .blank ∧ c.style = {} := by
  simp [isVacant, Style.isSet]

namespace Sheet

open Operation

variable {s t u : Sheet} {first last : Int} {p q : Position} {r : Range}

/-! ## What clearing rows is meant to do -/

/-- The rows are as if nothing had been entered in them. Outside of them every cell has the value
and the look, every row the height it had, and the same ranges are merged. -/
structure Clears (first last : Int) (s t : Sheet) : Prop where
  vacant : ∀ p : Position, 0 < p.row → first ≤ p.row → (p.row : Int) ≤ last →
    (t.cell p).isVacant = true
  kept : ∀ p : Position, 0 < p.row → (p.row : Int) < first ∨ last < p.row →
    t.value p = s.value p ∧ (t.cell p).style = (s.cell p).style
  height_eq : ∀ row : Nat, (row : Int) < first ∨ last < row → t.heights[row]? = s.heights[row]?
  merged_iff : ∀ r : Range, (r.maxRow : Int) < first ∨ last < r.minRow →
    (r ∈ t.merged ↔ r ∈ s.merged)

/-! ## What it does -/

/-- The cell at a position once the ranges that reach into some rows are taken apart. -/
def bared (s : Sheet) (first last : Int) (p : Position) : Cell :=
  if ∃ r ∈ s.touched first last, p ∈ r.rest then {} else s.cell p

/-- The rows are gone and the cells below have moved up, while heights and the merged ranges that do
not reach into the rows are where they were. -/
structure ClosesUp (first last : Int) (s t : Sheet) : Prop where
  cell_eq : ∀ p : Position, 0 < p.row → t.cell p = s.bared first last (sourceIn first last p)
  height_eq : ∀ row : Nat,
    t.heights[row]? = if first ≤ row ∧ (row : Int) ≤ last then none else s.heights[row]?
  merged_eq : t.merged = s.merged.filter (· ∉ s.touched first last)
  widths_eq : t.widths = s.widths
  title_eq : t.title = s.title

/-! ## Taking ranges apart -/

/-- The sheets differ in their cells and their merged ranges only. -/
structure SameMeasures (s t : Sheet) : Prop where
  title_eq : t.title = s.title
  height_eq : t.heights = s.heights
  widths_eq : t.widths = s.widths

instance : IsPreorder Sheet SameMeasures where
  refl _ := ⟨rfl, rfl, rfl⟩
  trans _ _ _ h h' :=
    ⟨h'.title_eq.trans h.title_eq, h'.height_eq.trans h.height_eq, h'.widths_eq.trans h.widths_eq⟩

theorem keeps_measures_removeCells (positions : List Position) :
    Keeps SameMeasures (removeCells positions) := by
  induction positions with
  | nil => exact Keeps.done ()
  | cons p rest ih =>
    refine Keeps.bind Keeps.read fun s => ?_
    split
    · exact Keeps.bind (Keeps.modify fun _ => ⟨rfl, rfl, rfl⟩) fun _ => ih
    · exact Keeps.stop _

theorem keeps_measures_unmergeAll (ranges : List Range) :
    Keeps SameMeasures (unmergeAll ranges) := by
  induction ranges with
  | nil => exact Keeps.done ()
  | cons r rest ih =>
    refine Keeps.bind ?_ fun _ => ih
    exact Keeps.bind (Keeps.modify fun _ => ⟨rfl, rfl, rfl⟩) fun _ => keeps_measures_removeCells _

/-- Ranges that share no cell and whose covered cells are there are taken apart one and all. -/
theorem exists_unmerged (hdisjoint : s.merged.Pairwise Range.Disjoint)
    (hpresent : ∀ r ∈ s.merged, ∀ p ∈ r.rest, p ∈ s.cells) (first last : Int) :
    ∃ u, (unmergeAll (s.touched first last)).run s = .ok () u ∧
      (∀ p, u.cell p = s.bared first last p) ∧
      u.merged = s.merged.filter (· ∉ s.touched first last) ∧ s.SameMeasures u := by
  have hseparable : s.Separable := by
    refine ⟨hpresent, hdisjoint.imp fun h p hp hp' => h p ?_ ?_⟩
    · exact Range.mem_positions_of_rest hp
    · exact Range.mem_positions_of_rest hp'
  have htouched : s.Detachable (s.touched first last) := hseparable.sublist List.filter_sublist
  obtain ⟨u, hrun⟩ := htouched.exists_unmergeAll
  obtain ⟨hcells, hmerged⟩ := unmergeAll_ok hrun
  refine ⟨u, hrun, fun p => ?_, ?_, (keeps_measures_unmergeAll _).of_ok hrun⟩
  · rw [bared]
    split
    next hp => exact hcells.blank p hp
    next hp => exact hcells.kept p hp
  · have hnodup : s.merged.Nodup := hdisjoint.imp fun h => h.ne
    rw [hmerged, ← List.diff_eq_foldl, hnodup.sdiff_eq_filter]

/-! ## Clearing -/

theorem clearRows_of_lt (hle : first ≤ last) (hlast : last < -1) :
    (clearRows first last).run s = .error .beforeFirst s := by
  have htouched : s.touched first last = [] :=
    List.eq_nil_iff_forall_not_mem.mpr fun r hr => by
      have hrow := (mem_touched.mp hr).2.1
      omega
  rw [run_clearRows hle, htouched, unmergeAll, EStateM.run_bind, EStateM.run_pure]
  dsimp only
  rw [deleteRows, if_pos hlast]
  rfl

theorem exists_clearRows (hle : first ≤ last) (hlast : -1 ≤ last)
    (hdisjoint : s.merged.Pairwise Range.Disjoint)
    (hpresent : ∀ r ∈ s.merged, ∀ p ∈ r.rest, p ∈ s.cells) :
    ∃ t, (clearRows first last).run s = .ok () t ∧ ClosesUp first last s t := by
  obtain ⟨u, hunmerge, hcell, hmerged, hmeasures⟩ := exists_unmerged hdisjoint hpresent first last
  obtain ⟨cells, hdelete, hcells⟩ := u.exists_deleteRows hlast hle
  have hopened : u.Alike (u.opened last) := (u.widened_allocateBlock _ _).toAlike
  rw [run_clearRows hle, EStateM.run_bind, hunmerge]
  dsimp only
  rw [EStateM.run_bind, hdelete]
  refine ⟨_, rfl, fun p hp => ?_, fun row => ?_, ?_, ?_, ?_⟩
  · rw [← hcell, ← hopened.cell_eq, cell, cell, Std.ExtTreeMap.getD_eq_getD_getElem?,
      Std.ExtTreeMap.getD_eq_getD_getElem?, hcells p (Or.inl hp)]
  · dsimp only
    rw [Std.ExtTreeMap.getElem?_filter', hopened.heights_eq, hmeasures.height_eq]
    rw [← Bool.decide_and]
    by_cases h : first ≤ (row : Int) ∧ (row : Int) ≤ last
    · rw [if_pos h]
      cases s.heights[row]? <;> simp [h]
    · rw [if_neg h]
      cases s.heights[row]? <;> simp [h]
  · exact hopened.merged_eq.trans hmerged
  · exact hopened.widths_eq.trans hmeasures.widths_eq
  · exact hopened.title_eq.trans hmeasures.title_eq

/-! ## What is left where it was -/

/-- Nothing stands below the rows. -/
def VacantBelow (s : Sheet) (last : Int) : Prop :=
  ∀ p : Position, 0 < p.row → last < p.row → (s.cell p).isVacant = true

/-- Nothing stands above the rows on a cell that is covered by a range reaching into them. -/
def VacantAcross (s : Sheet) (first last : Int) : Prop :=
  ∀ r ∈ s.touched first last, ∀ p ∈ r.rest, 0 < p.row → (p.row : Int) < first →
    (s.cell p).isVacant = true

theorem isVacant_bared (h : (s.cell p).isVacant = true) :
    (s.bared first last p).isVacant = true := by
  rw [bared]
  split
  · rfl
  · exact h

theorem bared_of_not_covered (h : ¬∃ r ∈ s.touched first last, p ∈ r.rest) :
    s.bared first last p = s.cell p :=
  if_neg h

theorem isVacant_congr {c d : Cell} (hvalue : c.value = d.value) (hstyle : c.style = d.style) :
    c.isVacant = d.isVacant := by
  rw [Cell.isVacant, Cell.isVacant, hvalue, hstyle]

theorem sourceIn_of_le (h : first ≤ p.row) :
    sourceIn first last p = ⟨(p.row + (last - first + 1)).toNat, p.column⟩ := by
  rw [sourceIn, if_neg (by omega)]

theorem sourceIn_of_lt (h : (p.row : Int) < first) : sourceIn first last p = p := by
  rw [sourceIn, if_pos h]

/-- If every cell below the rows stayed as it was, there was nothing in any of them: each of them
holds what stood some rows further down, and so on until below the last row. -/
theorem vacantBelow_of_clears (hle : first ≤ last) (hcloses : ClosesUp first last s t)
    (h : Clears first last s t) : s.VacantBelow last := by
  have hfar : ∀ steps (p : Position), 0 < p.row → last < p.row → s.maxRow < p.row + steps →
      (s.cell p).isVacant = true := by
    intro steps
    -- the last rows first: the induction is on how far a row is from the end of the sheet
    induction steps with
    | zero =>
      intro p _ _ hend
      have hcell : s.cell p = {} := by
        by_contra hne
        have hrow := row_le_maxRow (mem_of_cell_ne hne)
        omega
      rw [hcell]
      rfl
    | succ steps ih =>
      intro p hp hlast hend
      obtain ⟨hvalue, hstyle⟩ := h.kept p hp (Or.inr hlast)
      rw [← isVacant_congr hvalue hstyle, hcloses.cell_eq p hp, sourceIn_of_le (by omega)]
      exact isVacant_bared (ih _ (by dsimp only; omega) (by dsimp only; omega)
        (by dsimp only; omega))
  intro p hp hlast
  exact hfar (s.maxRow + 1) p hp hlast (by omega)

theorem vacantAcross_of_clears (hcloses : ClosesUp first last s t)
    (h : Clears first last s t) : s.VacantAcross first last := by
  intro r hr p hp hpos hrow
  obtain ⟨hvalue, hstyle⟩ := h.kept p hpos (Or.inl hrow)
  rw [← isVacant_congr hvalue hstyle, hcloses.cell_eq p hpos, sourceIn_of_lt hrow, bared,
    if_pos ⟨r, hr, hp⟩]
  rfl

theorem ClosesUp.clears (hle : first ≤ last) (hcloses : ClosesUp first last s t)
    (hbelow : s.VacantBelow last) (hacross : s.VacantAcross first last) :
    Clears first last s t := by
  -- what comes up from below the rows is vacant
  have hvacant (p : Position) (hp : 0 < p.row) (hfirst : first ≤ p.row) :
      (t.cell p).isVacant = true := by
    rw [hcloses.cell_eq p hp, sourceIn_of_le hfirst]
    exact isVacant_bared (hbelow _ (by dsimp only; omega) (by dsimp only; omega))
  refine ⟨fun p hp hfirst _ => hvacant p hp hfirst, fun p hp hout => ?_, fun row hout => ?_,
    fun r hout => ?_⟩
  · rcases hout with hrow | hrow
    · have hcell : t.cell p = s.bared first last p := by
        rw [hcloses.cell_eq p hp, sourceIn_of_lt hrow]
      by_cases hcovered : ∃ r ∈ s.touched first last, p ∈ r.rest
      · obtain ⟨r, hr, hpr⟩ := hcovered
        obtain ⟨hvalue, hstyle⟩ := Cell.isVacant_iff.mp (hacross r hr p hpr hp hrow)
        rw [value, value, hcell, bared, if_pos ⟨r, hr, hpr⟩, hvalue, hstyle]
        exact ⟨rfl, rfl⟩
      · rw [value, value, hcell, bared_of_not_covered hcovered]
        exact ⟨rfl, rfl⟩
    · obtain ⟨hvalue, hstyle⟩ := Cell.isVacant_iff.mp (hvacant p hp (by omega))
      obtain ⟨hvalue', hstyle'⟩ := Cell.isVacant_iff.mp (hbelow p hp hrow)
      rw [value, value, hvalue, hvalue', hstyle, hstyle']
      exact ⟨rfl, rfl⟩
  · rw [hcloses.height_eq, if_neg (by omega)]
  · rw [hcloses.merged_eq, List.mem_filter, decide_eq_true_eq, mem_touched]
    exact ⟨fun h => h.1, fun h => ⟨h, fun h' => by omega⟩⟩

/-- Clearing rows of a sheet whose merged ranges share no cell and are allocated takes the rows out,
unless they all lie too far in front of the first one, which is refused. It does what it is meant to
exactly if nothing stood below the rows, nor above them on a cell that a range reaching into them
covered. -/
theorem clearRows_clears_iff (hle : first ≤ last)
    (hdisjoint : s.merged.Pairwise Range.Disjoint)
    (hpresent : ∀ r ∈ s.merged, ∀ p ∈ r.rest, p ∈ s.cells) :
    (last < -1 → (clearRows first last).run s = .error .beforeFirst s) ∧
    (-1 ≤ last → ∃ t, (clearRows first last).run s = .ok () t ∧ ClosesUp first last s t ∧
      (Clears first last s t ↔ s.VacantBelow last ∧ s.VacantAcross first last)) := by
  refine ⟨fun hlast => clearRows_of_lt hle hlast, fun hlast => ?_⟩
  obtain ⟨t, hrun, hcloses⟩ := exists_clearRows hle hlast hdisjoint hpresent
  refine ⟨t, hrun, hcloses, fun h => ?_, fun h => hcloses.clears hle h.1 h.2⟩
  exact ⟨vacantBelow_of_clears hle hcloses h, vacantAcross_of_clears hcloses h⟩

/-- Entries in rows 3, 4 and 8, of which the second one stands in a range down to row 5. -/
def layered : Sheet :=
  let text (word : String) : Cell := ⟨.entry .text (.text word), {}⟩
  let s : Sheet := { title := "Codes" }
  let s := ((s.putCell ⟨3, 1⟩ (text "top")).putCell ⟨4, 1⟩ (text "middle")).putCell ⟨8, 1⟩
    (text "bottom")
  s.merge (.reaching 4 1 1 0)

theorem disjoint_layered : layered.merged.Pairwise Range.Disjoint := by
  decide +kernel

theorem present_layered : ∀ r ∈ layered.merged, ∀ p ∈ r.rest, p ∈ layered.cells := by
  decide +kernel

theorem not_vacantBelow_layered : ¬layered.VacantBelow 6 := by
  intro h
  have hvacant := h ⟨8, 1⟩ (by decide) (by decide)
  revert hvacant
  decide +kernel

/-- Rows 5 and 6 are closed up by the last entry; rows 5 to 8 can be cleared. -/
theorem clearRows_clears_iff_layered :
    (∃ t, (clearRows 5 6).run layered = .ok () t ∧ t.value ⟨6, 1⟩ = .text "bottom" ∧
      ¬Clears 5 6 layered t) ∧
    ∃ t, (clearRows 5 8).run layered = .ok () t ∧ Clears 5 8 layered t := by
  constructor
  · have hle : (5 : Int) ≤ 6 := by decide
    obtain ⟨-, hruns⟩ := clearRows_clears_iff hle disjoint_layered present_layered
    obtain ⟨t, hrun, hcloses, hiff⟩ := hruns (by decide)
    refine ⟨t, hrun, ?_, fun h => not_vacantBelow_layered (hiff.mp h).1⟩
    rw [value, hcloses.cell_eq ⟨6, 1⟩ (by decide)]
    decide +kernel
  · have hle : (5 : Int) ≤ 8 := by decide
    obtain ⟨-, hruns⟩ := clearRows_clears_iff hle disjoint_layered present_layered
    obtain ⟨t, hrun, -, hiff⟩ := hruns (by decide)
    have hacross : layered.VacantAcross 5 8 := by
      rw [VacantAcross]
      decide +kernel
    refine ⟨t, hrun, hiff.mpr ⟨fun p _ hrow => ?_, hacross⟩⟩
    have hrows : layered.maxRow = 8 := by
      decide +kernel
    have hcell : layered.cell p = {} := by
      by_contra hne
      have hmax := row_le_maxRow (mem_of_cell_ne hne)
      omega
    rw [hcell]
    rfl

/-- Clearing rows may move what stands below them. -/
theorem not_all_cleared :
    ¬∀ (s : Sheet) (first last : Int), first ≤ last → s.merged.Pairwise Range.Disjoint →
      (∀ r ∈ s.merged, ∀ p ∈ r.rest, p ∈ s.cells) → -1 ≤ last →
        ∃ t, (clearRows first last).run s = .ok () t ∧ Clears first last s t := by
  intro hall
  have hle : (5 : Int) ≤ 6 := by decide
  obtain ⟨t, hrun, hclears⟩ := hall layered 5 6 hle disjoint_layered present_layered (by decide)
  obtain ⟨t', hrun', hcloses⟩ := exists_clearRows hle (by decide) disjoint_layered present_layered
  rw [hrun] at hrun'
  cases hrun'
  exact not_vacantBelow_layered (vacantBelow_of_clears hle hcloses hclears)

end Sheet

end Sheetwright.Grid
