import Sheetwright.Proofs.Workbook.Filling
import Sheetwright.Proofs.Workbook.Shifting
/-!
# What copying a block leaves

Copying a block goes over its cells, then over its rows, then over its merged ranges. `Imprinted`
says what the first two passes have done to the destination after some cells and rows: a cell that
was copied holds what was carried to it, as far as a cell holds it, and looks like its origin if the
origin has a look of its own. The third pass merges the ranges inside the block at their new place.
`meets_copyBlock_imprint` says so of the whole, and also what is left where the copying stops.
-/

namespace Sheetwright

open Grid Operation

namespace Workbook

variable {b : Workbook} {source dest first last start lastColumn : Nat} {t u v w : Sheet}
  {p q origin : Position} {area : Position → Prop} {rows : Nat → Prop}

/-! ## Cells and rows that were copied -/

/-- The look of a cell once another one was copied to it. -/
def worn (c : Cell) (old : Style) : Style := if c.style.isSet then c.style else old

/-- Some cells of a sheet were copied to another one. -/
structure Stamped (first start : Nat) (area : Position → Prop) (t u v : Sheet) : Prop where
  first_le : ∀ p, area p → first ≤ p.row
  content : ∀ p, area p → (t.cell p).isCovered = false →
    ∃ d, carried p (shifted first start p) (t.value p) = .ok d ∧
      (v.cell (shifted first start p)).content = (Value.ofDatum d).entered
  style : ∀ p, area p → (t.cell p).isCovered = false →
    (v.cell (shifted first start p)).style =
      worn (t.cell p) (u.cell (shifted first start p)).style
  skipped : ∀ p, area p → (t.cell p).isCovered = true →
    v.cell (shifted first start p) = u.cell (shifted first start p)
  other : ∀ q, (∀ p, area p → shifted first start p ≠ q) → v.cell q = u.cell q

namespace Stamped

theorem refl (first start : Nat) (t u : Sheet) : Stamped first start (fun _ => False) t u u where
  first_le _ h := h.elim
  content _ h := h.elim
  style _ h := h.elim
  skipped _ h := h.elim
  other _ _ := rfl

/-- Only what the cells show matters. -/
theorem congr (h : Stamped first start area t u v) (hcell : ∀ q, w.cell q = v.cell q) :
    Stamped first start area t u w where
  first_le := h.first_le
  content p hp hc := by
    rw [hcell]
    exact h.content p hp hc
  style p hp hc := by
    rw [hcell]
    exact h.style p hp hc
  skipped p hp hc := by
    rw [hcell]
    exact h.skipped p hp hc
  other q hq := by
    rw [hcell]
    exact h.other q hq

/-- A cell that is not among those copied has its place for itself. -/
theorem cell_eq (h : Stamped first start area t u v) (hp : first ≤ p.row) (harea : ¬area p) :
    v.cell (shifted first start p) = u.cell (shifted first start p) :=
  h.other _ fun q hq heq => harea (shifted_inj (h.first_le q hq) hp heq ▸ hq)

/-- At the place of a cell there is the old look, or already that of the cell. -/
theorem worn_eq (h : Stamped first start area t u v) (hp : first ≤ p.row)
    (hc : (t.cell p).isCovered = false) :
    worn (t.cell p) (v.cell (shifted first start p)).style =
      worn (t.cell p) (u.cell (shifted first start p)).style := by
  by_cases harea : area p
  · rw [h.style p harea hc, worn, worn]
    split <;> rfl
  · rw [h.cell_eq hp harea]

/-- A covered cell is passed over. -/
theorem skip (h : Stamped first start area t u v) (hp : first ≤ p.row)
    (hc : (t.cell p).isCovered = true) :
    Stamped first start (fun q => area q ∨ q = p) t u v where
  first_le := by
    rintro q (hq | rfl)
    · exact h.first_le q hq
    · exact hp
  content := by
    rintro q (hq | rfl) hfree
    · exact h.content q hq hfree
    · rw [hc] at hfree
      cases hfree
  style := by
    rintro q (hq | rfl) hfree
    · exact h.style q hq hfree
    · rw [hc] at hfree
      cases hfree
  skipped := by
    rintro q (hq | rfl) hcovered
    · exact h.skipped q hq hcovered
    · by_cases harea : area q
      · exact h.skipped q harea hcovered
      · exact h.cell_eq hp harea
  other q hq := h.other q fun q' hq' => hq q' (Or.inl hq')

/-- A cell is put in the place of another one. -/
theorem put (h : Stamped first start area t u v) (hp : first ≤ p.row)
    (hc : (t.cell p).isCovered = false) {d : Datum} {c : Cell}
    (hd : carried p (shifted first start p) (t.value p) = .ok d)
    (hcontent : c.content = (Value.ofDatum d).entered)
    (hstyle : c.style = worn (t.cell p) (v.cell (shifted first start p)).style) :
    Stamped first start (fun q => area q ∨ q = p) t u
      (v.putCell (shifted first start p) c) := by
  have hself : (v.putCell (shifted first start p) c).cell (shifted first start p) = c := by
    rw [Sheet.cell_putCell, if_pos rfl]
  -- the places of all other cells are other places
  have hother {q : Position} (hq : area q) (hne : q ≠ p) :
      (v.putCell (shifted first start p) c).cell (shifted first start q) =
        v.cell (shifted first start q) := by
    rw [Sheet.cell_putCell, if_neg]
    exact fun heq => hne (shifted_inj hp (h.first_le q hq) heq).symm
  refine ⟨?_, fun q hq hfree => ?_, fun q hq hfree => ?_, fun q hq hcovered => ?_, fun q hq => ?_⟩
  · rintro q (hq | rfl)
    · exact h.first_le q hq
    · exact hp
  · by_cases heq : q = p
    · subst heq
      exact ⟨d, hd, by rw [hself, hcontent]⟩
    · rw [hother (hq.resolve_right heq) heq]
      exact h.content q (hq.resolve_right heq) hfree
  · by_cases heq : q = p
    · subst heq
      rw [hself, hstyle, h.worn_eq hp hc]
    · rw [hother (hq.resolve_right heq) heq]
      exact h.style q (hq.resolve_right heq) hfree
  · have heq : q ≠ p := by
      rintro rfl
      rw [hc] at hcovered
      cases hcovered
    rw [hother (hq.resolve_right heq) heq]
    exact h.skipped q (hq.resolve_right heq) hcovered
  · rw [Sheet.cell_putCell, if_neg (hq p (Or.inr rfl))]
    exact h.other q fun q' hq' => hq q' (Or.inl hq')

/-- A datum is entered at the place of a cell, and the look of the cell taken over. -/
theorem enter_restyle (h : Stamped first start area t u v) (hp : first ≤ p.row)
    (hc : (t.cell p).isCovered = false) {d : Datum}
    (hd : carried p (shifted first start p) (t.value p) = .ok d)
    (hset : (t.cell p).style.isSet = true) :
    Stamped first start (fun q => area q ∨ q = p) t u
      ((v.putCell (shifted first start p)
        { v.cell (shifted first start p) with content := (Value.ofDatum d).entered }).restyle
          (shifted first start p) fun _ => (t.cell p).style) := by
  have hput := h.put hp hc (c := ⟨(Value.ofDatum d).entered, (t.cell p).style⟩) hd rfl
    (if_pos hset).symm
  refine hput.congr fun q => ?_
  simp only [Sheet.cell_restyle, Sheet.cell_putCell]
  split <;> simp

/-- It does not matter how the two sheets are allocated. -/
theorem of_alike {t' u' : Sheet} (h : Stamped first start area t' u' v) (ht : t.Alike t')
    (hu : u.Alike u') : Stamped first start area t u v where
  first_le := h.first_le
  content p hp hc := by
    rw [← ht.cell_eq] at hc
    rw [Sheet.value, ← ht.cell_eq]
    exact h.content p hp hc
  style p hp hc := by
    rw [← ht.cell_eq] at hc
    rw [← ht.cell_eq, ← hu.cell_eq]
    exact h.style p hp hc
  skipped p hp hc := by
    rw [← ht.cell_eq] at hc
    rw [← hu.cell_eq]
    exact h.skipped p hp hc
  other q hq := by
    rw [← hu.cell_eq]
    exact h.other q hq

end Stamped

/-- Some cells and the heights of some rows of a sheet were copied to another one. -/
structure Imprinted (first start : Nat) (area : Position → Prop) (rows : Nat → Prop)
    (t u v : Sheet) : Prop extends Stamped first start area t u v where
  title_eq : v.title = u.title
  widths_eq : v.widths = u.widths
  merged_eq : v.merged = u.merged
  first_le_row : ∀ row, rows row → first ≤ row
  height : ∀ row, rows row →
    v.heights[start + (row - first)]? = t.heights[row]?.or u.heights[start + (row - first)]?
  height_other : ∀ n, (∀ row, rows row → start + (row - first) ≠ n) →
    v.heights[n]? = u.heights[n]?

namespace Imprinted

theorem refl (first start : Nat) (t u : Sheet) :
    Imprinted first start (fun _ => False) (fun _ => False) t u u where
  toStamped := .refl first start t u
  title_eq := rfl
  widths_eq := rfl
  merged_eq := rfl
  first_le_row _ h := h.elim
  height _ h := h.elim
  height_other _ _ := rfl

theorem congr {area' : Position → Prop} {rows' : Nat → Prop}
    (h : Imprinted first start area rows t u v) (harea : ∀ p, area p ↔ area' p)
    (hrows : ∀ row, rows row ↔ rows' row) : Imprinted first start area' rows' t u v := by
  obtain rfl : area = area' := funext fun p => propext (harea p)
  obtain rfl : rows = rows' := funext fun row => propext (hrows row)
  exact h

/-- Other cells do not concern the rows. -/
theorem of_stamped {area' : Position → Prop} (h : Imprinted first start area rows t u v)
    (hsame : v.SameButCells w) (hw : Stamped first start area' t u w) :
    Imprinted first start area' rows t u w where
  toStamped := hw
  title_eq := hsame.title_eq.trans h.title_eq
  widths_eq := hsame.widths_eq.trans h.widths_eq
  merged_eq := hsame.merged_eq.trans h.merged_eq
  first_le_row := h.first_le_row
  height row hrow := by
    rw [hsame.heights_eq]
    exact h.height row hrow
  height_other n hn := by
    rw [hsame.heights_eq]
    exact h.height_other n hn

theorem alike (h : Imprinted first start area rows t u v) (hw : v.Alike w) :
    Imprinted first start area rows t u w :=
  h.of_stamped hw.toSameButCells (h.toStamped.congr hw.cell_eq)

theorem of_alike {t' u' : Sheet} (h : Imprinted first start area rows t' u' v) (ht : t.Alike t')
    (hu : u.Alike u') : Imprinted first start area rows t u v where
  toStamped := h.toStamped.of_alike ht hu
  title_eq := h.title_eq.trans hu.title_eq
  widths_eq := h.widths_eq.trans hu.widths_eq
  merged_eq := h.merged_eq.trans hu.merged_eq
  first_le_row := h.first_le_row
  height row hrow := by
    rw [← ht.heights_eq, ← hu.heights_eq]
    exact h.height row hrow
  height_other n hn := by
    rw [← hu.heights_eq]
    exact h.height_other n hn

/-- Above the copy nothing has changed. -/
theorem sameAbove (h : Imprinted first start area rows t u v) : u.SameAbove start v where
  title_eq := h.title_eq
  widths_eq := h.widths_eq
  cell_eq q hq := h.other q fun p _ heq => by
    have hrow : q.row = start + (p.row - first) := heq ▸ rfl
    omega
  height_eq n hn := h.height_other n fun row _ heq => by
    omega
  merged := ⟨[], by rw [h.merged_eq, List.append_nil], nofun⟩

/-- The height of a row is taken over, if it has one. -/
theorem raise (h : Imprinted first start area rows t u v) {row : Nat} (hrow : first ≤ row) :
    Imprinted first start area (fun n => rows n ∨ n = row) t u
      (match t.heights[row]? with
        | some height => v.setHeight (start + (row - first)) (some height)
        | none => v) := by
  -- a row without a height of its own leaves the one that its place has
  have hsheet : ∃ heights, (match t.heights[row]? with
        | some height => v.setHeight (start + (row - first)) (some height)
        | none => v) = { v with heights } ∧
      ∀ n : Nat, heights[n]? =
        if n = start + (row - first) then t.heights[row]?.or v.heights[n]? else v.heights[n]? := by
    cases t.heights[row]? with
    | some height =>
      refine ⟨_, rfl, fun n => ?_⟩
      simp only [Std.ExtTreeMap.getElem?_insert, Nat.compare_eq_eq, eq_comm (a := n),
        Option.some_or]
    | none => exact ⟨v.heights, rfl, fun n => by simp⟩
  obtain ⟨heights, hsheet, hheights⟩ := hsheet
  rw [hsheet]
  refine ⟨h.toStamped.congr fun _ => rfl, h.title_eq, h.widths_eq, h.merged_eq, ?_,
    fun n hn => ?_, fun n hn => ?_⟩
  · rintro n (hn | rfl)
    · exact h.first_le_row n hn
    · exact hrow
  · have hfirst : first ≤ n := hn.elim (h.first_le_row n) fun heq => heq ▸ hrow
    rw [hheights]
    by_cases hold : rows n
    · rw [h.height n hold]
      split
      next heq =>
        obtain rfl : n = row := by omega
        cases t.heights[n]? <;> rfl
      next => rfl
    · obtain rfl : n = row := hn.resolve_left hold
      rw [if_pos rfl, h.height_other _ fun m hm heq => hold ?_]
      have hm' := h.first_le_row m hm
      obtain rfl : m = n := by omega
      exact hm
  · rw [hheights, if_neg (Ne.symm (hn row (Or.inr rfl)))]
    exact h.height_other n fun m hm => hn m (Or.inl hm)

end Imprinted

/-! ## Going over the cells of a block -/

section

variable {A : (Position → Prop) → Workbook → Prop} {E : Document.Fault → Workbook → Prop}
  {offset : Int}
  (hopen : ∀ area row column, Meets (A area) (onSheet source (Sheet.openCell row column))
    (fun p b => p = ⟨row.toNat, column.toNat⟩ ∧ A area b) E)
  (hcell : ∀ area origin, first ≤ origin.row → origin.row ≤ last →
    Meets (A area) (copyCell source dest offset origin)
      (fun _ => A fun q => area q ∨ q = origin) E)

include hopen hcell

theorem meets_copyRow_of {row : Int} (hfirst : (first : Int) ≤ row) (hlast : row ≤ last)
    (columns : List Int) :
    Meets (A area) (copyRow source dest offset columns row)
      (fun _ => A fun q => area q ∨ q ∈ rowPositions row columns) E := by
  -- the cells of the row are opened before any is copied
  have horigins : Meets (A area)
      (columns.mapM fun column => onSheet source (Sheet.openCell row column))
      (fun origins b => origins = rowPositions row columns ∧ A area b) E :=
    Meets.mapM fun column _ => hopen area row column
  refine Meets.bind_fact horigins fun origins horigins => ?_
  subst horigins
  have hcells := Meets.forM (f := copyCell source dest offset)
    (I := fun done => A fun q => area q ∨ q ∈ done) (E := E)
    (l := rowPositions row columns) fun before origin behind hsplit => ?_
  · refine hcells.conseq_pre fun b hb => ?_
    simpa only [List.not_mem_nil, or_false] using hb
  · have hmem : origin ∈ rowPositions row columns := hsplit ▸ List.mem_append_cons_self
    rcases List.mem_map.mp hmem with ⟨column, -, rfl⟩
    refine (hcell _ _ ?_ ?_).conseq_post fun _ b hb => ?_
    · dsimp only
      omega
    · dsimp only
      omega
    · simpa only [List.mem_append, List.mem_singleton, or_assoc] using hb

/-- What holds of a cell more each time a cell is copied holds of the whole block in the end. -/
theorem meets_copyRows_of (width : Nat) :
    Meets (A fun _ => False)
      ((integers first last).forM (copyRow source dest offset (integers 1 width)))
      (fun _ => A (block first last width)) E := by
  have hrows := Meets.forM (f := copyRow source dest offset (integers 1 width))
    (I := fun done => A fun q => ∃ row ∈ done, q ∈ rowPositions row (integers 1 width)) (E := E)
    (l := integers first last) fun before row behind hsplit => ?_
  · refine hrows.conseq (fun b hb => ?_) (fun _ b hb => ?_) fun _ _ hs => hs
    · simpa using hb
    · have hblock : (fun q => ∃ row ∈ integers first last,
          q ∈ rowPositions row (integers 1 width)) = block first last width := by
        funext q
        simp only [mem_rowPositions, mem_integers, block, eq_iff_iff]
        constructor
        · rintro ⟨row, hrow, hq, hcolumn⟩
          exact ⟨by omega, hcolumn⟩
        · rintro ⟨hrow, hcolumn⟩
          exact ⟨q.row, by omega, by omega, hcolumn⟩
      rwa [← hblock]
  · have hmem : row ∈ integers first last := hsplit ▸ List.mem_append_cons_self
    rw [mem_integers] at hmem
    refine (meets_copyRow_of hopen hcell hmem.1 hmem.2 _).conseq_post fun _ b hb => ?_
    simpa only [List.mem_append, List.mem_singleton, or_and_right, exists_or, exists_eq_left]
      using hb

end

/-! ## The cells -/

/-- The copy under way: the source shows what it showed, and some cells and rows were copied. -/
abbrev Imprinting (source dest first start : Nat) (t u : Sheet) (area : Position → Prop)
    (rows : Nat → Prop) : Workbook → Prop :=
  Between source dest t.Alike (Imprinted first start area rows t u)

/-- Nothing has changed above a row, and no range was merged yet. -/
structure Begun (start : Nat) (u v : Sheet) : Prop extends Sheet.SameAbove start u v where
  merged_eq : v.merged = u.merged

/-- The copy broken off among the cells. -/
abbrev BrokenOff (source dest start : Nat) (t u : Sheet) : Workbook → Prop :=
  Between source dest t.Alike (Begun start u)

theorem Imprinted.begun (h : Imprinted first start area rows t u v) : Begun start u v :=
  ⟨h.sameAbove, h.merged_eq⟩

theorem meets_openCell {R : Sheet → Prop} {Q : Position → Sheet → Prop} {row column : Int}
    (h : ∀ p, Sheet.locate row column = .ok p → ∀ s, R s → Q p (s.allocate p)) :
    Meets R (Sheet.openCell row column) Q fun _ => R := by
  rw [Sheet.openCell]
  cases hlocate : Sheet.locate row column with
  | ok p => exact Meets.bind (Meets.modify (h p hlocate)) fun _ => Meets.done fun _ hs => hs
  | error fault => exact Meets.stop fun _ hs => hs

theorem eq_shifted_of_locate (hp : first ≤ p.row)
    (h : Sheet.locate (p.row + ((start : Int) - first)) p.column = .ok q) :
    q = shifted first start p := by
  obtain ⟨hrow, hcolumn⟩ := Sheet.eq_of_locate h
  obtain ⟨row, column⟩ := q
  obtain rfl : row = start + (p.row - first) := by
    dsimp only at hrow
    omega
  obtain rfl : column = p.column := Int.ofNat_inj.mp hcolumn
  rfl

/-- What is entered into a cell is in it afterwards. -/
theorem meets_onCell_enter {R E : Sheet → Prop} (d : Datum)
    (hstop : ∀ w c, R w → E (w.putCell q c)) :
    Meets R (Sheet.onCell q (Cell.enter d))
      (fun _ v => ∃ w, R w ∧
        v = w.putCell q { w.cell q with content := (Value.ofDatum d).entered })
      fun _ => E := by
  refine ⟨fun w hw => ?_⟩
  rw [EStateM.run, Sheet.onCell]
  cases henter : (Cell.enter d).run (w.cell q) with
  | ok _ c =>
    obtain ⟨-, rfl⟩ := Cell.enter_ok henter
    exact ⟨w, hw, rfl⟩
  | error fault c => exact hstop w c hw

theorem le_row_shifted : (start : Int) ≤ ((shifted first start p).row : Nat) := by
  rw [shifted]
  dsimp only
  omega

theorem meets_copyCell (hne : source ≠ dest) (hp : first ≤ origin.row) :
    Meets (Imprinting source dest first start t u area rows)
      (copyCell source dest ((start : Int) - first) origin)
      (fun _ => Imprinting source dest first start t u (fun q => area q ∨ q = origin) rows)
      fun _ => BrokenOff source dest start t u := by
  refine Meets.get_bind fun b hb => ?_
  have hcell : (b.sheet source).cell origin = t.cell origin := hb.source.cell_eq origin
  dsimp only
  rw [hcell]
  refine Meets.ite (fun hc => Meets.done fun _ hs => ?_) fun hc => ?_
  · exact hs.mono_dest fun _ hs => hs.of_stamped (.refl _) (hs.toStamped.skip hp hc)
  rw [Bool.not_eq_true] at hc
  have hopen : Meets (Imprinted first start area rows t u)
      (Sheet.openCell (origin.row + ((start : Int) - first)) origin.column)
      (fun q s => q = shifted first start origin ∧ Imprinted first start area rows t u s)
      fun _ => Imprinted first start area rows t u :=
    meets_openCell fun q hq s hs => ⟨eq_shifted_of_locate hp hq, hs.alike (s.alike_allocate q)⟩
  have hbroken (b : Workbook) (hs : Imprinting source dest first start t u area rows b) :
      BrokenOff source dest start t u b :=
    hs.mono_dest fun _ hs => hs.begun
  refine Meets.bind ((meets_dest hne hopen).conseq_stop fun _ => hbroken) fun target => ?_
  refine Meets.assuming (fun _ hs => hs.dest.1) fun htarget => ?_
  subst htarget
  refine Meets.conseq_pre ?_ fun _ hs => hs.mono_dest fun _ hs => hs.2
  -- the datum that the cell takes along is that of the value it shows
  cases hd : carried origin (shifted first start origin) (t.cell origin).value with
  | error fault => exact Meets.stop hbroken
  | ok d =>
    -- where the datum is refused, nothing but the cell at its place can have changed
    have henter := meets_onCell_enter (q := shifted first start origin) (E := Begun start u) d
      fun w c (hw : Imprinted first start area rows t u w) =>
        ⟨hw.sameAbove.trans (w.sameAbove_putCell c le_row_shifted), hw.merged_eq⟩
    refine Meets.bind (meets_dest hne henter) fun _ => ?_
    refine Meets.ite (fun hset => ?_) fun hset => Meets.done fun _ hs => hs.mono_dest ?_
    · refine meets_dest hne (Meets.modify ?_)
      rintro _ ⟨w, hw, rfl⟩
      exact hw.of_stamped ⟨rfl, rfl, rfl, rfl⟩ (hw.toStamped.enter_restyle hp hc hd hset)
    · rintro _ ⟨w, hw, rfl⟩
      exact hw.of_stamped ⟨rfl, rfl, rfl, rfl⟩
        (hw.toStamped.put hp hc hd rfl (if_neg hset).symm)

/-! ## Rows -/

/-- Opening a cell of the source shows nothing new. -/
theorem meets_openCell_source (hne : source ≠ dest) {R : Sheet → Prop} (row column : Int) :
    Meets (Between source dest t.Alike R) (onSheet source (Sheet.openCell row column))
      (fun p b => p = ⟨row.toNat, column.toNat⟩ ∧ Between source dest t.Alike R b)
      fun _ => Between source dest t.Alike R := by
  have hopen : Meets t.Alike (Sheet.openCell row column)
      (fun p s => p = ⟨row.toNat, column.toNat⟩ ∧ t.Alike s) fun _ => t.Alike := by
    refine meets_openCell fun p hp s hs => ⟨?_, hs.trans (s.alike_allocate p)⟩
    obtain ⟨rfl, rfl⟩ := Sheet.eq_of_locate hp
    rfl
  refine (meets_source hne hopen).conseq_post fun p b hb => ?_
  exact ⟨hb.source.1, hb.mono_source fun _ hs => hs.2⟩

theorem meets_copyRows (hne : source ≠ dest) (last width : Nat) :
    Meets (Imprinting source dest first start t u (fun _ => False) rows)
      ((integers first last).forM (copyRow source dest ((start : Int) - first) (integers 1 width)))
      (fun _ => Imprinting source dest first start t u (block first last width) rows)
      fun _ => BrokenOff source dest start t u := by
  refine meets_copyRows_of (A := fun area => Imprinting source dest first start t u area rows)
    (fun area row column => ?_) (fun area origin hp _ => meets_copyCell hne hp) width
  exact (meets_openCell_source hne row column).conseq_stop fun _ _ hs =>
    hs.mono_dest fun _ hs => hs.begun

/-! ## Heights -/

theorem meets_copyHeight (hne : source ≠ dest) {row : Int} (hrow : (first : Int) ≤ row)
    {E : Document.Fault → Workbook → Prop} :
    Meets (Imprinting source dest first start t u area rows)
      (copyHeight source dest ((start : Int) - first) row)
      (fun _ => Imprinting source dest first start t u area fun n => rows n ∨ n = row.toNat) E := by
  refine Meets.get_bind fun b hb => ?_
  have hplace : (row + ((start : Int) - first)).toNat = start + (row.toNat - first) := by
    omega
  have hheight : (b.sheet source).heights.get? row.toNat = t.heights[row.toNat]? := by
    rw [hb.source.heights_eq, Std.ExtTreeMap.get?_eq_getElem?]
  have hraise (v : Sheet) (hv : Imprinted first start area rows t u v) :=
    hv.raise (by omega : first ≤ row.toNat)
  rw [hheight, hplace]
  cases hheight : t.heights[row.toNat]? with
  | some height =>
    rw [hheight] at hraise
    exact (meets_dest (E := fun _ => False) hne (Meets.modify hraise)).conseq_stop
      fun _ _ hs => hs.dest.elim
  | none =>
    rw [hheight] at hraise
    exact Meets.done fun b hs => hs.mono_dest hraise

theorem meets_copyHeights (hne : source ≠ dest) (last : Nat)
    {E : Document.Fault → Workbook → Prop} :
    Meets (Imprinting source dest first start t u area fun _ => False)
      ((integers first last).forM (copyHeight source dest ((start : Int) - first)))
      (fun _ => Imprinting source dest first start t u area fun n => first ≤ n ∧ n ≤ last) E := by
  have hrows := Meets.forM (f := copyHeight source dest ((start : Int) - first)) (E := E)
    (I := fun done => Imprinting source dest first start t u area fun n => (n : Int) ∈ done)
    (l := integers first last) fun before row behind hsplit => ?_
  · refine hrows.conseq (fun b hb => ?_) (fun _ b hb => ?_) fun _ _ hs => hs
    · exact hb.mono_dest fun _ hs => hs.congr (fun _ => Iff.rfl) (by simp)
    · refine hb.mono_dest fun _ hs => hs.congr (fun _ => Iff.rfl) fun n => ?_
      rw [mem_integers]
      omega
  · have hrow : row ∈ integers first last := hsplit ▸ List.mem_append_cons_self
    rw [mem_integers] at hrow
    refine (meets_copyHeight hne hrow.1).conseq_post fun _ b hb => ?_
    refine hb.mono_dest fun _ hs => hs.congr (fun _ => Iff.rfl) fun n => ?_
    rw [List.mem_append, List.mem_singleton]
    exact or_congr Iff.rfl (by omega)

/-! ## Merged ranges -/

/-- The last pass has merged these ranges. -/
def Overlaid (first start : Nat) (area : Position → Prop) (rows : Nat → Prop) (t u : Sheet)
    (ranges : List Range) (v : Sheet) : Prop :=
  ∃ w, Imprinted first start area rows t u w ∧ v = ranges.foldl Sheet.merge w

theorem Overlaid.of_alike {t' u' : Sheet} {ranges : List Range}
    (h : Overlaid first start area rows t' u' ranges v) (ht : t.Alike t') (hu : u.Alike u') :
    Overlaid first start area rows t u ranges v := by
  rcases h with ⟨w, hw, rfl⟩
  exact ⟨w, hw.of_alike ht hu, rfl⟩

namespace Overlaid

variable {ranges : List Range}

/-- A cell holds what was carried to it, unless one of the ranges covers it. -/
theorem value_eq (h : Overlaid first start area rows t u ranges v) {p : Position} (hp : area p)
    (hc : (t.cell p).isCovered = false) (hfree : ∀ r ∈ ranges, shifted first start p ∉ r.rest) :
    ∃ d, carried p (shifted first start p) (t.value p) = .ok d ∧
      v.value (shifted first start p) = .ofDatum d := by
  rcases h with ⟨w, hw, rfl⟩
  rcases hw.content p hp hc with ⟨d, hd, hcontent⟩
  refine ⟨d, hd, Cell.value_of_content ?_⟩
  rw [Sheet.content_foldl_merge, if_neg fun ⟨r, hr, hmem⟩ => hfree r hr hmem, hcontent]

theorem cell_covered (h : Overlaid first start area rows t u ranges v) {r : Range}
    (hr : r ∈ ranges) {q : Position} (hq : q ∈ r.rest) : (v.cell q).content = .covered := by
  rcases h with ⟨w, -, rfl⟩
  rw [Sheet.content_foldl_merge, if_pos ⟨r, hr, hq⟩]

theorem cell_other (h : Overlaid first start area rows t u ranges v) {q : Position}
    (hcells : ∀ p, area p → shifted first start p ≠ q) (hranges : ∀ r ∈ ranges, q ∉ r.positions) :
    v.cell q = u.cell q := by
  rcases h with ⟨w, hw, rfl⟩
  rw [Sheet.cell_foldl_merge_of_not_mem hranges, hw.other q hcells]

theorem merged_eq (h : Overlaid first start area rows t u ranges v) :
    v.merged = ranges.foldl Sheet.noted u.merged := by
  rcases h with ⟨w, hw, rfl⟩
  rw [Sheet.merged_foldl_merge, hw.merged_eq]

theorem height_eq (h : Overlaid first start area rows t u ranges v) {row : Nat} (hrow : rows row) :
    v.heights[start + (row - first)]? = t.heights[row]?.or u.heights[start + (row - first)]? := by
  rcases h with ⟨w, hw, rfl⟩
  rw [Sheet.heights_foldl_merge, hw.height row hrow]

theorem height_other (h : Overlaid first start area rows t u ranges v) {n : Nat}
    (hrows : ∀ row, rows row → start + (row - first) ≠ n) : v.heights[n]? = u.heights[n]? := by
  rcases h with ⟨w, hw, rfl⟩
  rw [Sheet.heights_foldl_merge, hw.height_other n hrows]

end Overlaid

theorem meets_copyMerge (hne : source ≠ dest) {ranges : List Range} {r : Range}
    (hr : first ≤ r.minRow) :
    Meets (Between source dest t.Alike (Overlaid first start area rows t u ranges))
      (copyMerge dest ((start : Int) - first) r)
      (fun _ => Between source dest t.Alike
        (Overlaid first start area rows t u (ranges ++ [r.shifted first start])))
      fun _ => Between source dest t.Alike (Overlaid first start area rows t u ranges) := by
  refine meets_dest hne ?_
  rw [Sheet.mergeBounds]
  cases hbounds : Range.ofBounds (r.minRow + ((start : Int) - first)) r.minColumn
      (r.maxRow + ((start : Int) - first)) r.maxColumn with
  | error fault => exact Meets.stop fun _ hs => hs
  | ok r' =>
    obtain rfl := Range.eq_shifted hr hbounds
    refine Meets.modify ?_
    rintro _ ⟨w, hw, rfl⟩
    exact ⟨w, hw, by rw [List.foldl_append]; rfl⟩

/-- What holds of a range more each time a range is merged holds of all ranges inside the block in
the end. -/
theorem meets_copyMerges_of {A : List Range → Workbook → Prop}
    {E : Document.Fault → Workbook → Prop} (offset : Int)
    (hmerge : ∀ done r rest, first ≤ r.minRow →
      copiedRanges first last lastColumn start t = done ++ r.shifted first start :: rest →
      Meets (A done) (copyMerge dest offset r) (fun _ => A (done ++ [r.shifted first start])) E) :
    Meets (A [])
      ((t.merged.filter fun r => Inside first last lastColumn r).forM (copyMerge dest offset))
      (fun _ => A (copiedRanges first last lastColumn start t)) E := by
  refine Meets.forM (I := fun done : List Range => A (done.map (·.shifted first start)))
    fun before r behind hsplit => ?_
  have hmem : r ∈ t.merged.filter fun r => Inside first last lastColumn r :=
    hsplit ▸ List.mem_append_cons_self
  have hr : Inside first last lastColumn r := of_decide_eq_true (List.mem_filter.mp hmem).2
  have hrange := hmerge _ r _ hr.1.1 (by rw [copiedRanges, hsplit, List.map_append, List.map_cons])
  refine hrange.conseq_post fun _ _ hs => ?_
  rwa [List.map_append]

/-- What is left of a copy that stops: it was broken off among the cells, or all cells were copied
and some of the ranges merged. -/
inductive Stopped (first last width lastColumn start : Nat) (t u v : Sheet) : Prop
  | cells (h : Begun start u v)
  | ranges (done rest : List Range)
    (hsplit : copiedRanges first last lastColumn start t = done ++ rest)
    (h : Overlaid first start (block first last width) (fun n => first ≤ n ∧ n ≤ last) t u done v)

theorem Stopped.of_alike {width : Nat} {t' u' : Sheet}
    (h : Stopped first last width lastColumn start t' u' v) (ht : t.Alike t') (hu : u.Alike u') :
    Stopped first last width lastColumn start t u v := by
  cases h with
  | cells h =>
    exact .cells ⟨(hu.sameAbove start).trans h.toSameAbove, h.merged_eq.trans hu.merged_eq⟩
  | ranges done rest hsplit h =>
    exact .ranges done rest (by rw [← hsplit, copiedRanges_eq ht]) (h.of_alike ht hu)

/-- Copying a block to another sheet copies its cells, then the heights of its rows, then merges its
ranges; wherever it stops, the source shows what it showed. -/
theorem meets_copyBlock_imprint (hne : source ≠ dest) (hfirst : 1 ≤ first) (hrows : first ≤ last)
    (hcolumns : 1 ≤ lastColumn) (hsource : source < b.sheets.length)
    (hdest : dest < b.sheets.length) :
    let t := b.sheet source
    let u := b.sheet dest
    let width := min lastColumn t.maxColumn
    Meets (· = b) (copyBlock source first last dest start lastColumn)
      (fun _ => Between source dest t.Alike (Overlaid first start (block first last width)
        (fun n => first ≤ n ∧ n ≤ last) t u (copiedRanges first last lastColumn start t)))
      fun _ => Between source dest t.Alike (Stopped first last width lastColumn start t u) := by
  intro t u width
  rw [copyBlock_eq hfirst hrows hcolumns]
  refine Meets.get_bind fun found hfound => ?_
  subst hfound
  have hstart : Imprinting source dest first start t u (fun _ => False) (fun _ => False) found :=
    ⟨hsource, hdest, .refl _, .refl first start t u⟩
  refine Meets.bind ((meets_copyRows hne last width).conseq (fun _ hs => hs ▸ hstart)
    (fun _ _ hs => hs) fun _ _ hs => hs.mono_dest fun _ hs => .cells hs) fun _ => ?_
  refine Meets.bind (meets_copyHeights hne last) fun _ => Meets.get_bind fun b' hb' => ?_
  -- the ranges are those of the source as it was found
  rw [hb'.source.merged_eq]
  dsimp only
  refine Meets.conseq_pre (meets_copyMerges_of (A := fun done => Between source dest t.Alike
    (Overlaid first start (block first last width) (fun n => first ≤ n ∧ n ≤ last) t u done)) _
    fun done r rest hr hsplit => ?_) fun _ hs => hs.mono_dest fun v hv => ⟨v, hv, rfl⟩
  exact (meets_copyMerge hne hr).conseq_stop fun _ _ hs =>
    hs.mono_dest fun v hv => .ranges _ _ hsplit hv

end Workbook

end Sheetwright
