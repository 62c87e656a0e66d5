import Sheetwright.Proofs.Grid.Entering
import Sheetwright.Proofs.Workbook.Pasting
/-!
# Blocks that can be copied

Copying a block succeeds if every cell of it can be carried to its new place and no cell there is
covered. The cells at the new place then hold what was carried, and all other cells of the
destination stay as they are: `exists_copyBlock`.
-/

namespace Sheetwright

open Grid Operation

namespace Grid.Sheet

variable {s t u : Sheet} {p : Position} {area : Position → Prop} {values : Position → Value}

/-! ## Filling an area -/

/-- The cells of an area hold given values, and all other cells are as before. -/
structure Filled (area : Position → Prop) (values : Position → Value) (s t : Sheet) : Prop where
  inside : ∀ p, area p → (t.cell p).content = (values p).entered
  outside : ∀ p, ¬area p → t.cell p = s.cell p

theorem Filled.congr {area' : Position → Prop} (h : Filled area values s t)
    (hiff : ∀ p, area p ↔ area' p) : Filled area' values s t where
  inside p hp := h.inside p ((hiff p).mpr hp)
  outside p hp := h.outside p fun hin => hp ((hiff p).mp hin)

theorem Filled.refl (values : Position → Value) (s : Sheet) :
    Filled (fun _ => False) values s s where
  inside _ hp := hp.elim
  outside _ _ := rfl

theorem Filled.allocate (h : Filled area values s t) (p : Position) :
    Filled area values s (t.allocate p) where
  inside q hq := by
    rw [cell_allocate]
    exact h.inside q hq
  outside q hq := by
    rw [cell_allocate]
    exact h.outside q hq

/-- No cell of the area is covered, and the others are as they were. -/
theorem Filled.isCovered (h : Filled area values s t) (hp : (s.cell p).isCovered = false) :
    (t.cell p).isCovered = false := by
  by_cases hin : area p
  · exact Cell.isCovered_of_content (h.inside p hin)
  · rwa [h.outside p hin]

/-- One more cell is filled. -/
theorem Filled.putCell (h : Filled area values s t) {c : Cell}
    (hc : c.content = (values p).entered) :
    Filled (fun q => area q ∨ q = p) values s (t.putCell p c) where
  inside q hq := by
    rw [cell_putCell]
    split
    next heq => rw [← heq, hc]
    next hne => exact h.inside q (hq.resolve_right (Ne.symm hne))
  outside q hq := by
    rw [not_or] at hq
    rw [cell_putCell, if_neg (Ne.symm hq.2), h.outside q hq.1]

theorem Filled.restyle (h : Filled area values s t) (hp : area p) (change : Style → Style) :
    Filled area values s (t.restyle p change) where
  inside q hq := by
    rw [cell_restyle]
    split
    next heq =>
      subst heq
      exact h.inside p hp
    next => exact h.inside q hq
  outside q hq := by
    have hne : p ≠ q := by
      rintro rfl
      exact hq hp
    rw [cell_restyle, if_neg hne, h.outside q hq]

theorem Filled.setHeight (h : Filled area values s t) (row : Nat) (height : Option Float) :
    Filled area values s (t.setHeight row height) := by
  cases height <;> exact ⟨h.inside, h.outside⟩

theorem succeeds_openCell {P : Sheet → Prop} {row column : Int}
    (hp : locate row column = .ok p) (h : ∀ s, P s → P (s.allocate p)) :
    Succeeds P (openCell row column) fun found s => found = p ∧ P s := by
  refine ⟨fun s hs => ?_⟩
  rw [run_openCell hp]
  exact ⟨rfl, h s hs⟩

theorem succeeds_enter {d : Datum} (hfree : (s.cell p).isCovered = false)
    (henters : Cell.Enters d (values p)) :
    Succeeds (Filled area values s) (onCell p (Cell.enter d)) fun _ =>
      Filled (fun q => area q ∨ q = p) values s := by
  refine ⟨fun t ht => ?_⟩
  rw [EStateM.run, onCell, henters _ (ht.isCovered hfree)]
  exact ht.putCell rfl

end Grid.Sheet

namespace Workbook

variable {b : Workbook} {source dest : Nat} {s t u : Sheet} {origin target : Position}
  {offset : Int} {area : Position → Prop} {values : Position → Value}

/-! ## Two sheets -/

/-- The sheets in two places satisfy a condition each. -/
structure Between (source dest : Nat) (P R : Sheet → Prop) (b : Workbook) : Prop where
  source_lt : source < b.sheets.length
  dest_lt : dest < b.sheets.length
  source : P (b.sheet source)
  dest : R (b.sheet dest)

theorem Between.mono {P P' R R' : Sheet → Prop} (h : Between source dest P R b)
    (hP : ∀ s, P s → P' s) (hR : ∀ s, R s → R' s) : Between source dest P' R' b :=
  ⟨h.source_lt, h.dest_lt, hP _ h.source, hR _ h.dest⟩

theorem Between.mono_source {P P' R : Sheet → Prop} (h : Between source dest P R b)
    (hP : ∀ s, P s → P' s) : Between source dest P' R b :=
  h.mono hP fun _ hs => hs

theorem Between.mono_dest {P R R' : Sheet → Prop} (h : Between source dest P R b)
    (hR : ∀ s, R s → R' s) : Between source dest P R' b :=
  h.mono (fun _ hs => hs) hR

theorem Between.symm {P R : Sheet → Prop} (h : Between source dest P R b) :
    Between dest source R P b :=
  ⟨h.dest_lt, h.source_lt, h.dest, h.source⟩

theorem sheet_putSheet_of_ne {place place' : Nat} (h : place ≠ place') :
    (b.putSheet place s).sheet place' = b.sheet place' := by
  rw [sheet, sheet, List.getD_eq_getElem?_getD, List.getD_eq_getElem?_getD,
    putSheet_getElem?_of_ne h]

/-- Another sheet in the first place, which may be the second place as well. -/
theorem Between.putSheet_source {P P' R R' : Sheet → Prop} (h : Between source dest P R b)
    (hs : P' s) (hsame : source = dest → R' s) (hother : source ≠ dest → R' (b.sheet dest)) :
    Between source dest P' R' (b.putSheet source s) where
  source_lt := by
    rw [sheets_putSheet, List.length_set]
    exact h.source_lt
  dest_lt := by
    rw [sheets_putSheet, List.length_set]
    exact h.dest_lt
  source := by rwa [sheet_putSheet_self h.source_lt]
  dest := by
    by_cases heq : source = dest
    · rw [← heq, sheet_putSheet_self h.source_lt]
      exact hsame heq
    · rw [sheet_putSheet_of_ne heq]
      exact hother heq

theorem Between.putSheet_dest {P P' R R' : Sheet → Prop} (h : Between source dest P R b)
    (hs : R' s) (hsame : source = dest → P' s) (hother : source ≠ dest → P' (b.sheet source)) :
    Between source dest P' R' (b.putSheet dest s) :=
  (h.symm.putSheet_source hs (fun heq => hsame heq.symm) fun hne => hother hne.symm).symm

section

variable {α : Type} {P R : Sheet → Prop} {Q : α → Sheet → Prop} {E : Sheet → Prop}
  {action : Sheet.Action α} (hne : source ≠ dest)

include hne

theorem meets_source (h : Meets P action Q fun _ => E) :
    Meets (Between source dest P R) (onSheet source action)
      (fun a => Between source dest (Q a) R) fun _ => Between source dest E R := by
  refine ⟨fun b hb => ?_⟩
  have hrun := h.ends _ hb.source
  rw [EStateM.run, onSheet]
  -- whether it returns or stops, the sheet that is left behind is put in place of the first one
  cases hends : action.run (b.sheet source) with
  | ok a s =>
    rw [hends] at hrun
    exact hb.putSheet_source hrun (fun heq => absurd heq hne) fun _ => hb.dest
  | error fault s =>
    rw [hends] at hrun
    exact hb.putSheet_source hrun (fun heq => absurd heq hne) fun _ => hb.dest

theorem meets_dest (h : Meets R action Q fun _ => E) :
    Meets (Between source dest P R) (onSheet dest action)
      (fun a => Between source dest P (Q a)) fun _ => Between source dest P E :=
  (meets_source hne.symm h).conseq (fun _ hb => hb.symm) (fun _ _ hb => hb.symm)
    fun _ _ hb => hb.symm

theorem succeeds_source (h : Succeeds P action Q) :
    Succeeds (Between source dest P R) (onSheet source action) fun a =>
      Between source dest (Q a) R :=
  (meets_source hne h).conseq_stop fun _ _ hb => hb.source

theorem succeeds_dest (h : Succeeds R action Q) :
    Succeeds (Between source dest P R) (onSheet dest action) fun a =>
      Between source dest P (Q a) :=
  (meets_dest hne h).conseq_stop fun _ _ hb => hb.dest

end

/-! ## One cell -/

/-- A cell can be carried to another place. -/
structure Movable (t u : Sheet) (offset : Int) (values : Position → Value)
    (origin target : Position) : Prop where
  locate_eq : Sheet.locate (origin.row + offset) origin.column = .ok target
  uncovered : (t.cell origin).isCovered = false
  free : (u.cell target).isCovered = false
  enters : ∃ d, carried origin target (t.value origin) = .ok d ∧ Cell.Enters d (values target)

/-- The source shows what it showed, and an area of the destination is filled. -/
abbrev Underway (source dest : Nat) (t u : Sheet) (values : Position → Value)
    (area : Position → Prop) : Workbook → Prop :=
  Between source dest t.Alike (Sheet.Filled area values u)

theorem succeeds_copyCell (hne : source ≠ dest) (h : Movable t u offset values origin target) :
    Succeeds (Underway source dest t u values area) (copyCell source dest offset origin) fun _ =>
      Underway source dest t u values fun q => area q ∨ q = target := by
  refine Meets.get_bind fun b hb => ?_
  have hcell : (b.sheet source).cell origin = t.cell origin := hb.source.cell_eq origin
  dsimp only
  rw [hcell, if_neg (by rw [h.uncovered]; exact Bool.false_ne_true)]
  have hopen : Succeeds (Underway source dest t u values area)
      (onSheet dest (Sheet.openCell (origin.row + offset) origin.column)) fun found =>
        Between source dest t.Alike fun s => found = target ∧ Sheet.Filled area values u s :=
    succeeds_dest hne (Sheet.succeeds_openCell h.locate_eq fun _ hs => hs.allocate target)
  refine Meets.bind hopen fun found => ?_
  refine Meets.assuming (fun _ hs => hs.dest.1) fun hfound => ?_
  subst hfound
  rcases h.enters with ⟨d, hcarried, henters⟩
  have hvalue : (t.cell origin).value = t.value origin := rfl
  rw [hvalue, hcarried]
  dsimp only
  have henter : Succeeds (Underway source dest t u values area)
      (onSheet dest (Sheet.onCell found (Cell.enter d))) fun _ =>
        Underway source dest t u values fun q => area q ∨ q = found :=
    succeeds_dest hne (Sheet.succeeds_enter h.free henters)
  refine Meets.bind (henter.conseq_pre fun _ hs => hs.mono_dest fun _ hs => hs.2) fun _ =>
    Meets.ite (fun _ => ?_) fun _ => Meets.done fun _ hs => hs
  -- the cell that takes over the style has been filled already
  exact succeeds_dest hne (Meets.modify fun _ hs => hs.restyle (Or.inr rfl) _)

/-! ## A row -/

theorem locate_natCast {row column : Nat} (hrow : 1 ≤ row) (hlast : row ≤ lastRow)
    (hcolumn : 1 ≤ column) : Sheet.locate row column = .ok ⟨row, column⟩ := by
  have hlow : (decide ((row : Int) < 1) || decide ((column : Int) < 1)) = false := by
    rw [Bool.or_eq_false_iff, decide_eq_false_iff_not, decide_eq_false_iff_not]
    omega
  rw [Sheet.locate, hlow, if_neg Bool.false_ne_true, if_neg (by omega)]
  rfl

/-- The positions of a row in given columns. -/
def rowPositions (row : Int) (columns : List Int) : List Position :=
  columns.map fun column => ⟨row.toNat, column.toNat⟩

theorem mem_rowPositions {row : Int} {p : Position} {width : Nat} :
    p ∈ rowPositions row (integers 1 width) ↔
      p.row = row.toNat ∧ 1 ≤ p.column ∧ p.column ≤ width := by
  rw [rowPositions, List.mem_map]
  constructor
  · rintro ⟨column, hcolumn, rfl⟩
    rw [mem_integers] at hcolumn
    dsimp only
    omega
  · rintro ⟨hrow, hfirst, hlast⟩
    obtain ⟨row', column⟩ := p
    obtain rfl : row' = row.toNat := hrow
    exact ⟨column, mem_integers.mpr (by dsimp only at hfirst hlast; omega), rfl⟩

theorem succeeds_openCells (hne : source ≠ dest) {row : Int} {columns : List Int} (hrow : 1 ≤ row)
    (hlast : row ≤ lastRow) (hcolumns : ∀ column ∈ columns, 1 ≤ column) :
    Succeeds (Underway source dest t u values area)
      (columns.mapM fun column => onSheet source (Sheet.openCell row column)) fun origins b =>
        origins = rowPositions row columns ∧ Underway source dest t u values area b := by
  refine Meets.mapM fun column hcolumn => ?_
  have hpos := hcolumns column hcolumn
  have hlocate : Sheet.locate row column = .ok ⟨row.toNat, column.toNat⟩ := by
    have hrow' : ((row.toNat : Nat) : Int) = row := by omega
    have hcolumn' : ((column.toNat : Nat) : Int) = column := by omega
    rw [← hrow', ← hcolumn']
    exact locate_natCast (by omega) (by omega) (by omega)
  have hopen : Succeeds t.Alike (Sheet.openCell row column) _ :=
    Sheet.succeeds_openCell hlocate fun s hs => hs.trans (s.alike_allocate _)
  refine (succeeds_source hne hopen).conseq_post fun p b hb => ?_
  exact ⟨hb.source.1, hb.mono_source fun _ hs => hs.2⟩

theorem succeeds_copyRow (hne : source ≠ dest) {row : Int} {columns : List Int}
    (hrow : 1 ≤ row) (hlast : row ≤ lastRow) (hcolumns : ∀ column ∈ columns, 1 ≤ column)
    {place : Position → Position}
    (h : ∀ origin ∈ rowPositions row columns, Movable t u offset values origin (place origin)) :
    Succeeds (Underway source dest t u values area) (copyRow source dest offset columns row)
      fun _ => Underway source dest t u values fun q =>
        area q ∨ ∃ origin ∈ rowPositions row columns, q = place origin := by
  refine Meets.bind_fact (succeeds_openCells hne hrow hlast hcolumns) fun origins horigins => ?_
  subst horigins
  have hcells := Meets.forM (f := copyCell source dest offset) (E := fun _ _ => False)
    (I := fun done => Underway source dest t u values fun q =>
      area q ∨ ∃ origin ∈ done, q = place origin)
    (l := rowPositions row columns) fun before origin after hsplit => ?_
  · refine hcells.conseq_pre fun b hb => ?_
    exact hb.mono_dest fun _ hs => hs.congr fun q => by simp
  · have horigin : origin ∈ rowPositions row columns := hsplit ▸ List.mem_append_cons_self
    refine (succeeds_copyCell hne (h origin horigin)).conseq_post fun _ b hb => ?_
    refine hb.mono_dest fun _ hs => hs.congr fun q => ?_
    simp only [List.mem_append, List.mem_singleton, or_and_right, exists_or, exists_eq_left,
      or_assoc]

/-! ## A block -/

theorem succeeds_copyHeight (hne : source ≠ dest) (row : Int) :
    Succeeds (Underway source dest t u values area) (copyHeight source dest offset row) fun _ =>
      Underway source dest t u values area := by
  refine Meets.get_bind fun b _ => ?_
  split
  next height _ => exact succeeds_dest hne (Meets.modify fun _ hs => hs.setHeight _ _)
  next => exact Meets.done fun _ hs => hs

/-- The place of a cell of the block in the copy. -/
def shifted (first start : Nat) (p : Position) : Position := ⟨start + (p.row - first), p.column⟩

/-- The cells that the copies of some rows fill. -/
def rowsArea (first start width : Nat) (rows : List Int) (q : Position) : Prop :=
  ∃ row ∈ rows, ∃ origin ∈ rowPositions row (integers 1 width), q = shifted first start origin

/-- The cells that a copy of a block fills. -/
def pasteArea (first last start width : Nat) (q : Position) : Prop :=
  ∃ origin, first ≤ origin.row ∧ origin.row ≤ last ∧ 1 ≤ origin.column ∧ origin.column ≤ width ∧
    q = shifted first start origin

theorem rowsArea_integers {first last start width : Nat} {q : Position} :
    rowsArea first start width (integers first last) q ↔ pasteArea first last start width q := by
  simp only [rowsArea, pasteArea, mem_rowPositions, mem_integers]
  constructor
  · rintro ⟨row, hrow, origin, ⟨heq, hleft, hright⟩, rfl⟩
    exact ⟨origin, by omega, by omega, hleft, hright, rfl⟩
  · rintro ⟨origin, hlow, hhigh, hleft, hright, rfl⟩
    exact ⟨origin.row, by omega, origin, ⟨by omega, hleft, hright⟩, rfl⟩

/-- Row by row the copies of the rows are filled. -/
theorem succeeds_copyRows {first last start width : Nat} (hne : source ≠ dest) (hfirst : 1 ≤ first)
    (hlast : last ≤ lastRow)
    (h : ∀ origin, first ≤ origin.row → origin.row ≤ last → 1 ≤ origin.column →
      origin.column ≤ width → Movable t u offset values origin (shifted first start origin)) :
    Succeeds (Underway source dest t u values (rowsArea first start width []))
      ((integers first last).forM (copyRow source dest offset (integers 1 width))) fun _ =>
        Underway source dest t u values (rowsArea first start width (integers first last)) := by
  refine Meets.forM (I := fun done => Underway source dest t u values
    (rowsArea first start width done)) fun before row after hsplit => ?_
  have hrow : (first : Int) ≤ row ∧ row ≤ last :=
    mem_integers.mp (hsplit ▸ List.mem_append_cons_self)
  have hcolumns : ∀ column ∈ integers 1 width, 1 ≤ column :=
    fun column hcolumn => (mem_integers.mp hcolumn).1
  have hmovable : ∀ origin ∈ rowPositions row (integers 1 width),
      Movable t u offset values origin (shifted first start origin) := by
    intro origin horigin
    obtain ⟨heq, hleft, hright⟩ := mem_rowPositions.mp horigin
    exact h origin (by omega) (by omega) hleft hright
  refine (succeeds_copyRow hne (by omega) (by omega) hcolumns hmovable).conseq_post
    fun _ b hb => hb.mono_dest fun _ hs => hs.congr fun q => ?_
  simp only [rowsArea, List.mem_append, List.mem_singleton, or_and_right, exists_or,
    exists_eq_left]

/-- A block without merged ranges whose cells can be carried is copied, and the cells of the copy
hold what was carried. -/
theorem exists_copyBlock {first last start lastColumn width : Nat} (hne : source ≠ dest)
    (hsource : source < b.sheets.length) (hdest : dest < b.sheets.length) (hfirst : 1 ≤ first)
    (hrows : first ≤ last) (hlast : last ≤ lastRow) (hcolumns : 1 ≤ lastColumn)
    (hwidth : width = min lastColumn (b.sheet source).maxColumn)
    (hmerged : (b.sheet source).merged = [])
    (h : ∀ origin, first ≤ origin.row → origin.row ≤ last → 1 ≤ origin.column →
      origin.column ≤ width → Movable (b.sheet source) (b.sheet dest) (start - first) values origin
        (shifted first start origin)) :
    ∃ b', (copyBlock source first last dest start lastColumn).run b = .ok () b' ∧
      Underway source dest (b.sheet source) (b.sheet dest) values
        (pasteArea first last start width) b' := by
  have hbound : boundOr (b.sheet source).maxColumn
      (min (lastColumn : Int) (b.sheet source).maxColumn) = width := by
    have hmax := (b.sheet source).one_le_maxColumn
    rw [boundOr, if_neg (by omega), hwidth]
    omega
  have htop : boundOr 1 (first : Int) = first := if_neg (by omega)
  have hbottom : boundOr (b.sheet source).maxRow (last : Int) = last := if_neg (by omega)
  have hstart : Underway source dest (b.sheet source) (b.sheet dest) values
      (rowsArea first start width []) b := by
    refine ⟨hsource, hdest, .refl _, (Sheet.Filled.refl values _).congr fun q => ?_⟩
    simp [rowsArea]
  have hblock : Succeeds (· = b) (copyBlock source first last dest start lastColumn) fun _ =>
      Underway source dest (b.sheet source) (b.sheet dest) values
        (pasteArea first last start width) := by
    refine Meets.get_bind fun found hfound => ?_
    subst hfound
    dsimp only
    rw [hbound, htop, hbottom]
    have hcells := (succeeds_copyRows hne hfirst hlast h).conseq_pre fun b' (hb' : b' = found) =>
      hb' ▸ hstart
    refine Meets.bind hcells fun _ => ?_
    refine Meets.bind (Meets.forM (I := fun _ => _) fun _ row _ _ => succeeds_copyHeight hne row)
      fun _ => Meets.get_bind fun b' hb' => ?_
    -- there is no merged range that could be copied along
    rw [hb'.source.merged_eq, hmerged]
    exact Meets.done fun _ hs => hs.mono_dest fun _ hs => hs.congr fun q => rowsArea_integers
  rcases hblock.exists_run rfl with ⟨_, b', hrun, hb'⟩
  exact ⟨b', hrun, hb'⟩

/-- Looking the cells of a block up opens none beyond the extent of the source. -/
theorem widened_of_copyBlock {first last start lastColumn : Int} {b' : Workbook}
    (hne : source ≠ dest) (hfirst : 1 ≤ first) (hlast : last ≤ (b.sheet source).maxRow)
    (hrun : (copyBlock source first last dest start lastColumn).run b = .ok () b') :
    Sheet.Widened
      (fun p => p.row ≤ (b.sheet source).maxRow ∧ p.column ≤ (b.sheet source).maxColumn)
      (b.sheet source) (b'.sheet source) := by
  have hpasted : Pasted source dest _ b
      (after (copyBlock source first last dest start lastColumn) b) :=
    pasted_copyBlock hfirst hlast
  rw [after_of_ok hrun] at hpasted
  exact hpasted.opened hne

end Workbook

end Sheetwright
