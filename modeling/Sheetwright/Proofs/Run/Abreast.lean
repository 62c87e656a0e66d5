import Sheetwright.Proofs.Run.Placing
import Sheetwright.Proofs.Workbook.Pairing
import Sheetwright.Proofs.Workbook.Standing
/-!
# The same block in two runs

Two runs place a block in targets with the same content, out of templates that have grown from one
sheet. Both place it or both fail alike, and the targets have the same content afterwards:
`placeBlock_abreast`.
-/

namespace Sheetwright.Run

open Grid Operation Workbook

variable {ρ ρ' : Type} {layout : Layout} {commit : Session.Action ρ Unit}
  {commit' : Session.Action ρ' Unit} {title target : String} {p p' q q' : Nat} {t u u' : Sheet}
  {s : Session ρ} {s' : Session ρ'} {c : Code}

/-! ## The template and the target -/

/-- The template of a run has grown from a sheet and was copied. -/
def Copied (layout : Layout) (t v : Sheet) : Prop :=
  t.Grown layout.dataStartRow layout.tagColumn v ∧ v.Seated

/-- The template has grown from a sheet and was copied, and another sheet is the target. -/
structure Ready (layout : Layout) (t : Sheet) (target : String) (u : Sheet) (b : Workbook) :
    Prop where
  template : b.Kept (Copied layout t) layout.templateSheet
  target : b.titled? target = some u

/-- Two sessions whose workbooks are abreast. -/
def Side (layout : Layout) (t : Sheet) (target : String) (p p' q q' : Nat) (s : Session ρ)
    (s' : Session ρ') : Prop :=
  Abreast layout.dataStartRow layout.tagColumn t layout.templateSheet target p p' q q' s.workbook
    s'.workbook

theorem agree_onWorkbook {α : Type} {R : Workbook → Workbook → Prop} {x y : Workbook.Action α}
    (h : Agree R (· = ·) x y) :
    Agree (fun (s : Session ρ) (s' : Session ρ') => R s.workbook s'.workbook) (· = ·)
      (Session.onWorkbook x) (Session.onWorkbook y) := by
  refine ⟨fun s s' hss => ?_⟩
  rw [EStateM.run, EStateM.run, Session.onWorkbook, Session.onWorkbook]
  rcases h.cases hss with ⟨a, _, b, b', hrun, hrun', rfl, hR⟩ | ⟨fault, b, b', hrun, hrun', hR⟩
  · rw [hrun, hrun']
    exact ⟨rfl, hR⟩
  · rw [hrun, hrun']
    exact ⟨rfl, hR⟩

theorem agree_ask_onWorkbook {α : Type} {R : Workbook → Workbook → Prop} {x y : Workbook.Action α}
    (h : Agree R (· = ·) x y) :
    Agree (fun (s : Session ρ) (s' : Session ρ') => R s.workbook s'.workbook) (· = ·)
      (ask (Session.onWorkbook x)) (ask (Session.onWorkbook y)) :=
  (agree_onWorkbook h).adapt

/-- Two sessions that are ready are abreast as soon as their templates were searched. -/
theorem Ready.side {b b' : Workbook} {v v' w w' : Sheet} (hne : layout.templateSheet ≠ target)
    (hv : b.Stands layout.templateSheet p v) (hv' : b'.Stands layout.templateSheet p' v')
    (hu : b.Stands target q u) (hu' : b'.Stands target q' u') (hsame : u.SameContent u')
    (hw : t.Settled layout.dataStartRow layout.tagColumn w) (htitle : v.SameTitle w)
    (hw' : t.Settled layout.dataStartRow layout.tagColumn w') (htitle' : v'.SameTitle w') :
    Abreast layout.dataStartRow layout.tagColumn t layout.templateSheet target p p' q q'
      (b.putSheet p w) (b'.putSheet p' w') := by
  refine ⟨⟨w, w', hv.putSheet_self ?_, hv'.putSheet_self ?_, hw, hw'⟩, u, u', ?_, ?_, hsame⟩
  · exact htitle.trans hv.title_eq
  · exact htitle'.trans hv'.title_eq
  · exact hu.putSheet_other (hv.place_ne hu hne) (by rwa [hv.sheet])
  · exact hu'.putSheet_other (hv'.place_ne hu' hne) (by rwa [hv'.sheet])

theorem Side.ready (h : Side layout t target p p' q q' s s') :
    ∃ u u', Ready layout t target u s.workbook ∧ Ready layout t target u' s'.workbook ∧
      u.SameContent u' := by
  rcases h with ⟨⟨v, v', hv, hv', hsettled, hsettled'⟩, u, u', hu, hu', hsame⟩
  refine ⟨u, u', ⟨?_, hu.titled?_eq⟩, ⟨?_, hu'.titled?_eq⟩, hsame⟩
  · exact ⟨p, v, hv, hsettled.toGrown, hsettled.seated⟩
  · exact ⟨p', v', hv', hsettled'.toGrown, hsettled'.seated⟩

/-! ## Placing -/

theorem agree_fillIn_side (hne : layout.templateSheet ≠ target) (start : Nat) (c : Code) :
    Agree (Side layout t target p p' q q') (· = ·)
      (fillIn (Session.document commit) layout q start c)
      (fillIn (Session.document commit') layout q' start c) := by
  have hwork {action : Sheet.Action Unit} (h : Agree Sheet.SameContent (· = ·) action action)
      (htitle : Keeps Sheet.SameTitle action) :
      Agree (Side layout t target p p' q q') (· = ·) (ask (Session.onSheet (ρ := ρ) q action))
        (ask (Session.onSheet (ρ := ρ') q' action)) :=
    agree_ask_onWorkbook (agree_onDest hne h htitle htitle)
  have hdriver : Agree (Side layout t target p p' q q') (· = ·)
      (writeDriver (Session.document commit) layout q start c)
      (writeDriver (Session.document commit') layout q' start c) :=
    Agree.ite (hwork (Sheet.agree_write _ _ _) (Sheet.keeps_title_write _ _ _)) (Agree.done rfl)
  refine Agree.bind hdriver fun _ _ _ => ?_
  refine Agree.ite (hwork (Sheet.agree_writeColumn _ _ _) ?_) (Agree.done rfl)
  exact Sheet.keeps_title_writeColumn _ _ _

theorem agree_pasteFound_side (hne : layout.templateSheet ≠ target) (tag : String) (c : Code) :
    Agree (Side layout t target p p' q q') (· = ·)
      (pasteFound (Session.document commit) layout p q c (t.tagged? layout.tagColumn tag))
      (pasteFound (Session.document commit') layout p' q' c (t.tagged? layout.tagColumn tag)) := by
  cases hfound : t.tagged? layout.tagColumn tag with
  | none => exact Agree.stop _
  | some rows =>
    rcases Sheet.mem_rows_of_ends? hfound with ⟨-, hlast⟩
    rw [Sheet.rows, Sheet.mem_span] at hlast
    have hlastUsed := Sheet.keeps_title_lastUsedRow
    refine Agree.bind (agree_ask_onWorkbook (agree_onDest hne Sheet.agree_lastUsedRow hlastUsed
      hlastUsed)) ?_
    -- the targets end in the same row, so the blocks go to the same place
    rintro last _ rfl
    have hcolumn := Nat.le_trans layout.tagColumn_pos layout.tagColumn_le
    refine Agree.bind (agree_ask_onWorkbook ?_) fun _ _ _ => agree_fillIn_side hne _ c
    exact agree_copyBlock hne hlast.1 hlast.2 _ hcolumn

theorem run_placeBlock (commit : Session.Action ρ Unit) {v w : Sheet}
    (hv : s.workbook.Stands layout.templateSheet p v)
    (hu : s.workbook.Stands target q u) {found : Option (Nat × Nat)}
    (hrun : (Sheet.findTagged layout.tagColumn c.baseType).run v = .ok found w) :
    (placeBlock (Session.document commit) layout target c).run s =
      (pasteFound (Session.document commit) layout p q c found).run
        { s with workbook := s.workbook.putSheet p w } := by
  -- of the three things that are looked up, only the search may change a sheet
  have hsearch : (ask ((Session.document commit).findTagged p layout.tagColumn c.baseType)).run s =
      .ok found { s with workbook := s.workbook.putSheet p w } :=
    run_ask_onSheet (by rwa [hv.sheet])
  rw [placeBlock_eq, EStateM.run_bind, run_require hv.find?_eq]
  dsimp only
  rw [EStateM.run_bind, run_require hu.find?_eq]
  dsimp only
  rw [EStateM.run_bind, hsearch]

/-- Placing a block in targets with the same content, out of templates grown from one sheet. -/
theorem placeBlock_abreast (commit : Session.Action ρ Unit) (commit' : Session.Action ρ' Unit)
    (hne : layout.templateSheet ≠ target) (c : Code)
    (h : Ready layout t target u s.workbook) (h' : Ready layout t target u' s'.workbook)
    (hsame : u.SameContent u') :
    let placed := placeBlock (Session.document commit) layout target c
    let placed' := placeBlock (Session.document commit') layout target c
    outcome placed s = outcome placed' s' ∧ ∃ w w',
      Ready layout t target w (after placed s).workbook ∧
        Ready layout t target w' (after placed' s').workbook ∧ w.SameContent w' := by
  intro placed placed'
  rcases h.template with ⟨p, v, hv, hgrown, hseated⟩
  rcases h'.template with ⟨p', v', hv', hgrown', hseated'⟩
  rcases titled?_eq_some_iff.mp h.target with ⟨q, hu⟩
  rcases titled?_eq_some_iff.mp h'.target with ⟨q', hu'⟩
  rcases hgrown.run_findTagged hseated layout.tagColumn_pos c.baseType with ⟨w, hrun, hw, htitle⟩
  rcases hgrown'.run_findTagged hseated' layout.tagColumn_pos c.baseType with
    ⟨w', hrun', hw', htitle'⟩
  -- after the search the two runs are abreast, and the search has found the same
  have hside : Side layout t target p p' q q' { s with workbook := s.workbook.putSheet p w }
      { s' with workbook := s'.workbook.putSheet p' w' } :=
    Ready.side hne hv hv' hu hu' hsame hw htitle hw' htitle'
  have hagree : Agree (Side layout t target p p' q q') (· = ·)
      (pasteFound (Session.document commit) layout p q c (t.tagged? layout.tagColumn c.baseType))
      (pasteFound (Session.document commit') layout p' q' c
        (t.tagged? layout.tagColumn c.baseType)) :=
    agree_pasteFound_side hne c.baseType c
  have hplaced : placed.run s = _ := run_placeBlock commit hv hu hrun
  have hplaced' : placed'.run s' = _ := run_placeBlock commit' hv' hu' hrun'
  rw [outcome, outcome, after, after, hplaced, hplaced']
  rcases hagree.cases hside with ⟨_, _, r, r', hx, hy, -, hR⟩ | ⟨failure, r, r', hx, hy, hR⟩
  · rw [hx, hy]
    exact ⟨rfl, hR.ready⟩
  · rw [hx, hy]
    exact ⟨rfl, hR.ready⟩

end Sheetwright.Run
