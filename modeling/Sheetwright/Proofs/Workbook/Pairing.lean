import Sheetwright.Proofs.Grid.Grown
import Sheetwright.Proofs.Workbook.Pasting
/-!
# Two workbooks side by side

Two workbooks have a source and a destination each, perhaps in different places and among different
other sheets. If the sources are the same sheet as it was grown and the destinations have the same
content, then copying a block does the same in both: `agree_copyBlock`. The styles and the heights
that are copied along may differ, as nothing of the content depends on them.
-/

namespace Sheetwright.Workbook

open Grid Operation

variable {α : Type} {R S : Sheet → Sheet → Prop} {title other source dest : String}
  {p p' q q' : Nat} {head column : Nat} {t : Sheet}

/-! ## One sheet of each -/

/-- The first sheet with a title stands in its place in each of two workbooks, and the two sheets
are related. -/
def Both (R : Sheet → Sheet → Prop) (title : String) (p p' : Nat) (b b' : Workbook) : Prop :=
  ∃ s s', b.Stands title p s ∧ b'.Stands title p' s' ∧ R s s'

/-- What agrees on the sheets of one title leaves those of another title alone. -/
theorem agree_onSheet {x y : Sheet.Action α} (hne : title ≠ other) (h : Agree R (· = ·) x y)
    (hx : Keeps Sheet.SameTitle x) (hy : Keeps Sheet.SameTitle y) :
    Agree (fun b b' => Both R title p p' b b' ∧ Both S other q q' b b') (· = ·)
      (onSheet p x) (onSheet p' y) := by
  refine ⟨?_⟩
  rintro b b' ⟨⟨s, s', hs, hs', hR⟩, u, u', hu, hu', hS⟩
  -- the operations may end either way; in both cases they leave sheets of the same titles
  have hkeep {v v' : Sheet} (hv : Sheet.SameTitle s v) (hv' : Sheet.SameTitle s' v') (hR : R v v') :
      Both R title p p' (b.putSheet p v) (b'.putSheet p' v') ∧
        Both S other q q' (b.putSheet p v) (b'.putSheet p' v') := by
    refine ⟨⟨v, v', hs.putSheet_self ?_, hs'.putSheet_self ?_, hR⟩, u, u', ?_, ?_, hS⟩
    · exact hv.trans hs.title_eq
    · exact hv'.trans hs'.title_eq
    · exact hu.putSheet_other (hs.place_ne hu hne) (by rwa [hs.sheet])
    · exact hu'.putSheet_other (hs'.place_ne hu' hne) (by rwa [hs'.sheet])
  rw [EStateM.run, EStateM.run, onSheet, onSheet, hs.sheet, hs'.sheet]
  rcases h.cases hR with ⟨a, _, v, v', hrun, hrun', rfl, hR⟩ | ⟨fault, v, v', hrun, hrun', hR⟩
  · rw [hrun, hrun']
    exact ⟨rfl, hkeep (hx.of_ok hrun) (hy.of_ok hrun') hR⟩
  · rw [hrun, hrun']
    exact ⟨rfl, hkeep (hx.of_error hrun) (hy.of_error hrun') hR⟩

/-! ## A source and a destination of each -/

/-- Both sheets are a third one as it is after it was copied and searched. -/
def Twins (head column : Nat) (t s s' : Sheet) : Prop :=
  t.Settled head column s ∧ t.Settled head column s'

/-- The sources of two workbooks come from one sheet, and the destinations have the same content. -/
structure Abreast (head column : Nat) (t : Sheet) (source dest : String) (p p' q q' : Nat)
    (b b' : Workbook) : Prop where
  sources : Both (Twins head column t) source p p' b b'
  dests : Both Sheet.SameContent dest q q' b b'

theorem agree_onSource {x y : Sheet.Action α} (hne : source ≠ dest)
    (h : Agree (Twins head column t) (· = ·) x y) (hx : Keeps Sheet.SameTitle x)
    (hy : Keeps Sheet.SameTitle y) :
    Agree (Abreast head column t source dest p p' q q') (· = ·) (onSheet p x) (onSheet p' y) :=
  (agree_onSheet hne h hx hy).congr fun _ _ => ⟨fun h => ⟨h.1, h.2⟩, fun h => ⟨h.1, h.2⟩⟩

theorem agree_onDest {x y : Sheet.Action α} (hne : source ≠ dest)
    (h : Agree Sheet.SameContent (· = ·) x y) (hx : Keeps Sheet.SameTitle x)
    (hy : Keeps Sheet.SameTitle y) :
    Agree (Abreast head column t source dest p p' q q') (· = ·) (onSheet q x) (onSheet q' y) :=
  (agree_onSheet hne.symm h hx hy).congr fun _ _ => ⟨fun h => ⟨h.2, h.1⟩, fun h => ⟨h.2, h.1⟩⟩

theorem Abreast.cell_like {b b' : Workbook} (h : Abreast head column t source dest p p' q q' b b')
    (origin : Position) :
    ((b.sheet p).cell origin).Like ((b'.sheet p').cell origin) := by
  rcases h.sources with ⟨s, s', hs, hs', hsettled, hsettled'⟩
  rw [hs.sheet, hs'.sheet]
  exact (hsettled.content.symm.trans hsettled'.content).like origin

theorem Abreast.merged_eq {b b' : Workbook}
    (h : Abreast head column t source dest p p' q q' b b') :
    (b'.sheet p').merged = (b.sheet p).merged := by
  rcases h.sources with ⟨s, s', hs, hs', hsettled, hsettled'⟩
  rw [hs.sheet, hs'.sheet]
  exact (hsettled.content.symm.trans hsettled'.content).merged_eq

/-! ## Changes of the look -/

/-- The operation always returns and changes the look of one sheet at most. -/
def Settles (place : Nat) (x : Action Unit) : Prop :=
  ∀ b, ∃ s, x.run b = .ok () (b.putSheet place s) ∧ (b.sheet place).SameContent s ∧
    Sheet.SameTitle (b.sheet place) s

theorem putSheet_sheet (b : Workbook) (place : Nat) : b.putSheet place (b.sheet place) = b := by
  rcases Nat.lt_or_ge place b.sheets.length with hlt | hge
  · rw [putSheet, sheet, List.getD_eq_getElem?_getD, List.getElem?_eq_getElem hlt,
      Option.getD_some, List.set_getElem_self hlt]
  · exact putSheet_of_le hge

theorem settles_done (place : Nat) : Settles place (pure ()) := by
  intro b
  refine ⟨b.sheet place, ?_, .refl _, rfl⟩
  rw [putSheet_sheet]
  rfl

theorem settles_modify (place : Nat) {f : Sheet → Sheet} (hf : ∀ s, Sheet.SameContent s (f s))
    (htitle : ∀ s, Sheet.SameTitle s (f s)) :
    Settles place (onSheet place (modifyGet fun s => ((), f s))) :=
  fun b => ⟨f (b.sheet place), rfl, hf _, htitle _⟩

theorem settles_copyHeight (from_ place : Nat) (offset row : Int) :
    Settles place (copyHeight from_ place offset row) := by
  intro b
  rw [copyHeight, EStateM.run_bind, EStateM.run_get]
  dsimp only
  split
  · refine settles_modify place ?_ ?_ b
    · exact fun s => s.sameContent_setHeight _ _
    · exact fun _ => rfl
  · exact settles_done place b

/-- Two operations that change looks only. -/
theorem agree_of_settles {x y : Action Unit} (hne : source ≠ dest) (hx : Settles q x)
    (hy : Settles q' y) :
    Agree (Abreast head column t source dest p p' q q') (· = ·) x y := by
  refine Agree.of_ok fun b b' h => ?_
  rcases hx b with ⟨s, hrun, hcontent, htitle⟩
  rcases hy b' with ⟨s', hrun', hcontent', htitle'⟩
  refine ⟨_, _, _, _, hrun, hrun', rfl, ?_⟩
  rcases h.sources with ⟨v, v', hv, hv', hsettled⟩
  rcases h.dests with ⟨u, u', hu, hu', hsame⟩
  rw [hu.sheet] at hcontent htitle
  rw [hu'.sheet] at hcontent' htitle'
  refine ⟨⟨v, v', ?_, ?_, hsettled⟩, s, s', ?_, ?_, hsame.replace hcontent hcontent'⟩
  · exact hv.putSheet_other (hu.place_ne hv hne.symm) (by rwa [hu.sheet])
  · exact hv'.putSheet_other (hu'.place_ne hv' hne.symm) (by rwa [hu'.sheet])
  · exact hu.putSheet_self (htitle.trans hu.title_eq)
  · exact hu'.putSheet_self (htitle'.trans hu'.title_eq)

/-! ## Copying a block -/

theorem agree_copyCell (hne : source ≠ dest) (offset : Int) (origin : Position) :
    Agree (Abreast head column t source dest p p' q q') (· = ·) (copyCell p q offset origin)
      (copyCell p' q' offset origin) := by
  refine Agree.bind Agree.read fun b b' h => ?_
  have hlike := h.cell_like origin
  dsimp only
  -- the two cells are copied or passed over alike
  rw [hlike.covered_eq, hlike.value_eq]
  refine Agree.ite (Agree.done rfl) ?_
  have hopen := Sheet.keeps_title_openCell (origin.row + offset) origin.column
  refine Agree.bind (agree_onDest hne (Sheet.agree_openCell _ _) hopen hopen) ?_
  rintro target _ rfl
  -- what is written depends on the value, the origin and the target only
  cases carried origin target ((b.sheet p).cell origin).value with
  | error fault => exact Agree.stop _
  | ok datum =>
    have henter := Sheet.keeps_title_onCell target (Cell.enter datum)
    refine Agree.bind (agree_onDest hne (Sheet.agree_onCell target (Cell.agree_enter datum))
      henter henter) fun _ _ _ => ?_
    -- whether a style is copied may differ between the two
    have hstyle (place : Nat) (c : Cell) :
        Settles place (if c.style.isSet then
          onSheet place (modify fun s => s.restyle target fun _ => c.style) else pure ()) := by
      split
      · exact settles_modify place (fun s => s.sameContent_restyle _ _) fun _ => rfl
      · exact settles_done place
    exact agree_of_settles hne (hstyle q _) (hstyle q' _)

/-- Opening a cell within reach. -/
theorem agree_openCell_twins {row col : Int}
    (h : ∀ p : Position, (p.row : Int) = row ∧ (p.column : Int) = col → t.InReach head column p) :
    Agree (Twins head column t) (· = ·) (Sheet.openCell row col) (Sheet.openCell row col) := by
  rw [Sheet.openCell]
  split
  next p hp =>
    have hreach := h p (Sheet.eq_of_locate hp)
    have hwidened (s : Sheet) (hs : t.Settled head column s) :
        t.Settled head column (s.allocate p) := by
      have hw : Sheet.Widened (fun q => q = p) s (s.allocate p) := s.widened_allocate rfl
      refine hs.widened hw ?_
      rintro q rfl
      exact hreach
    refine Agree.bind (Agree.modify fun s s' hs => ?_) fun _ _ _ => Agree.done rfl
    exact ⟨hwidened s hs.1, hwidened s' hs.2⟩
  · exact Agree.stop _

theorem agree_copyRow (hne : source ≠ dest) (offset : Int) {row : Int} {columns : List Int}
    (h : ∀ col ∈ columns, ∀ p : Position, (p.row : Int) = row ∧ (p.column : Int) = col →
      t.InReach head column p) :
    Agree (Abreast head column t source dest p p' q q') (· = ·) (copyRow p q offset columns row)
      (copyRow p' q' offset columns row) := by
  refine Agree.bind (Agree.mapM fun col hcol => ?_) ?_
  · exact agree_onSource hne (agree_openCell_twins (h col hcol)) (Sheet.keeps_title_openCell _ _)
      (Sheet.keeps_title_openCell _ _)
  · rintro origins _ rfl
    exact Agree.forM fun origin _ => agree_copyCell hne offset origin

theorem agree_copyBlock (hne : source ≠ dest) {first last : Nat} (hlast : 1 ≤ last)
    (hrows : last ≤ t.maxRow) (start : Int) {lastColumn : Nat} (hcolumn : 1 ≤ lastColumn) :
    Agree (Abreast head column t source dest p p' q q') (· = ·)
      (copyBlock p first last q start lastColumn)
      (copyBlock p' first last q' start lastColumn) := by
  refine Agree.bind Agree.read fun b b' h => ?_
  rcases h.sources with ⟨s, s', hs, hs', hsettled, hsettled'⟩
  have hlow (n : Nat) : boundOr n last = last := if_neg (by omega)
  rw [hs.sheet, hs'.sheet]
  dsimp only
  -- both sources have their full width by now, so the same columns are copied
  rw [hsettled.maxColumn_eq, hsettled'.maxColumn_eq, hlow, hlow]
  refine Agree.bind (Agree.forM fun row hrow => ?_) fun _ _ _ => ?_
  · refine agree_copyRow hne _ fun col hcol p hp => ?_
    rw [mem_integers] at hrow hcol
    -- the bound is a proper column, as no sheet is less than one column wide
    have hwide : boundOr (t.reach column) (min (lastColumn : Int) (t.reach column)) =
        min (lastColumn : Int) (t.reach column) := by
      refine if_neg ?_
      have hreach := Nat.le_trans t.one_le_maxColumn (t.maxColumn_le_reach column)
      omega
    rw [hwide] at hcol
    exact ⟨Or.inl (by omega), by omega⟩
  · refine Agree.bind (Agree.forM fun row _ => ?_) fun _ _ _ => ?_
    · exact agree_of_settles hne (settles_copyHeight p q _ row) (settles_copyHeight p' q' _ row)
    · refine Agree.bind Agree.read fun b b' h => ?_
      rw [h.merged_eq]
      refine Agree.forM fun r _ => ?_
      exact agree_onDest hne (Sheet.agree_mergeBounds _ _ _ _)
        (Sheet.keeps_title_mergeBounds _ _ _ _)
        (Sheet.keeps_title_mergeBounds _ _ _ _)

end Sheetwright.Workbook
