import Sheetwright.Proofs.Run.Tab
import Sheetwright.Proofs.Workbook.Pasting
/-!
# Placing a block

A block is placed by working on two sheets, the template and the target, neither of which gets
another title. Whatever such work keeps, placing a block keeps: the titles of all sheets
(`titles_placeBlock`), and any third sheet as a whole (`titled?_placeBlock`).
-/

namespace Sheetwright.Run

open Grid Operation Workbook

variable {ρ : Type} {layout : Layout} {commit : Session.Action ρ Unit}
  {R : Workbook → Workbook → Prop} {s : Session ρ} {target title : String}

/-- A template with a break below its head. -/
def breaks (title : String) : Sheet :=
  ({ title } : Sheet).putCell ⟨9, 4⟩ { content := .entry .text (.text "BR") }

/-! ## Finding the two sheets -/

theorem outcome_require (wanted : String) (failure : Failure) (s : Session ρ) :
    outcome (require (Session.document commit) wanted failure) s =
      match s.workbook.find? wanted with
      | some place => .ok place
      | none => .error failure := by
  have hfind : (ask ((Session.document commit).find? wanted)).run s =
      .ok (s.workbook.find? wanted) s := rfl
  rw [require, outcome, EStateM.run_bind, hfind]
  dsimp only
  cases s.workbook.find? wanted <;> rfl

theorem after_require (wanted : String) (failure : Failure) (s : Session ρ) :
    after (require (Session.document commit) wanted failure) s = s := by
  have hfind : (ask ((Session.document commit).find? wanted)).run s =
      .ok (s.workbook.find? wanted) s := rfl
  rw [require, after, EStateM.run_bind, hfind]
  dsimp only
  cases s.workbook.find? wanted <;> rfl

theorem run_require {wanted : String} {place : Nat} (h : s.workbook.find? wanted = some place)
    (failure : Failure) :
    (require (Session.document commit) wanted failure).run s = .ok place s := by
  rw [run_eq_ending, outcome_require, after_require, h]
  rfl

/-! ## Working on them -/

/-- The workbooks of the two sessions are related. -/
def OnWorkbooks (R : Workbook → Workbook → Prop) (s s' : Session ρ) : Prop :=
  R s.workbook s'.workbook

instance [IsPreorder Workbook R] : IsPreorder (Session ρ) (OnWorkbooks R) where
  refl s := refl_of R s.workbook
  trans _ _ _ h h' := trans_of R h h'

theorem keeps_ask {α : Type} {x : Workbook.Action α} (h : Keeps R x) :
    Keeps (OnWorkbooks R) (ask (Session.onWorkbook (ρ := ρ) x)) := by
  intro s
  have hx := h s.workbook
  rw [OnWorkbooks, after, run_ask_onWorkbook]
  cases hrun : x.run s.workbook with
  | ok a b => rwa [after_of_ok hrun] at hx
  | error fault b => rwa [after_of_error hrun] at hx

/-- Work on the sheet in a place that does not change its title keeps the relation. -/
def Allows (R : Workbook → Workbook → Prop) (place : Nat) : Prop :=
  ∀ (α : Type) (action : Sheet.Action α), Keeps Sheet.SameTitle action →
    Keeps R (onSheet place action)

variable [IsPreorder Workbook R]

/-- Filling in a code works on the sheet from a row on. -/
theorem keeps_fillIn {sheet start : Nat}
    (h : ∀ {action : Sheet.Action Unit}, Keeps (Sheet.SameAbove start) action →
      Keeps R (onSheet sheet action)) (c : Code) :
    Keeps (OnWorkbooks R) (fillIn (Session.document commit) layout sheet start c) := by
  refine Keeps.bind ?_ fun _ => ?_
  · rw [writeDriver]
    split
    · exact keeps_ask (h (Sheet.keeps_sameAbove_write (Int.le_refl _) _ _))
    · exact Keeps.done ()
  · rw [writeAssumptions]
    split
    · exact keeps_ask (h (Sheet.keeps_sameAbove_writeColumn (Int.le_refl _) _ _))
    · exact Keeps.done ()

theorem keeps_pasteFound {place sheet : Nat} (hplace : Allows R place) (hsheet : Allows R sheet)
    (c : Code) (found : Option (Nat × Nat)) :
    Keeps (OnWorkbooks R) (pasteFound (Session.document commit) layout place sheet c found) := by
  -- work from some row on does not change the title
  have hwork {start : Int} {α : Type} {action : Sheet.Action α}
      (h : Keeps (Sheet.SameAbove start) action) : Keeps R (onSheet sheet action) :=
    hsheet α action (h.mono fun _ _ h => h.title_eq)
  -- copying works on both sheets: it opens cells of the template and fills the target
  have hcopy (first last start lastColumn : Int) :
      Keeps R (copyBlock place first last sheet start lastColumn) := by
    intro b
    refine after_copyBlock hwork fun row _ column _ => ?_
    exact hplace _ _ (Sheet.keeps_title_openCell row column)
  cases found with
  | none => exact Keeps.stop _
  | some rows =>
    refine Keeps.bind (keeps_ask (hsheet _ _ Sheet.keeps_title_lastUsedRow)) fun last => ?_
    exact Keeps.bind (keeps_ask (hcopy _ _ _ _)) fun _ => keeps_fillIn hwork c

/-- Placing a block keeps what searching the template and pasting the rows found keep. -/
theorem after_placeBlock_of {c : Code}
    (h : ∀ place sheet, s.workbook.find? layout.templateSheet = some place →
      s.workbook.find? target = some sheet →
      Keeps R (onSheet place (Sheet.findTagged layout.tagColumn c.baseType)) ∧ ∀ found,
        Keeps (OnWorkbooks R) (pasteFound (Session.document commit) layout place sheet c found)) :
    R s.workbook (after (placeBlock (Session.document commit) layout target c) s).workbook := by
  rw [placeBlock_eq, after_bind, outcome_require, after_require]
  -- a sheet that is not there ends the work before it has begun
  cases hfind : s.workbook.find? layout.templateSheet with
  | none => exact refl_of R _
  | some place =>
    dsimp only
    rw [after_bind, outcome_require, after_require]
    cases hfind' : s.workbook.find? target with
    | none => exact refl_of R _
    | some sheet =>
      rcases h place sheet hfind hfind' with ⟨hsearch, hpaste⟩
      exact Keeps.bind (keeps_ask (ρ := ρ) hsearch) hpaste s

/-- Placing a block keeps what work on the template and on the target keeps. -/
theorem after_placeBlock (hplace : ∀ place, s.workbook.find? layout.templateSheet = some place →
      Allows R place)
    (hsheet : ∀ sheet, s.workbook.find? target = some sheet → Allows R sheet) (c : Code) :
    R s.workbook (after (placeBlock (Session.document commit) layout target c) s).workbook := by
  refine after_placeBlock_of fun place sheet hfind hfind' => ⟨?_, fun found => ?_⟩
  · exact hplace place hfind _ _ (Sheet.keeps_title_findTagged layout.tagColumn_pos c.baseType)
  · exact keeps_pasteFound (hplace place hfind) (hsheet sheet hfind') c found

/-! ## What is kept -/

theorem titles_placeBlock (layout : Layout) (commit : Session.Action ρ Unit) (target : String)
    (c : Code) (s : Session ρ) :
    s.workbook.SameTitles
      (after (placeBlock (Session.document commit) layout target c) s).workbook :=
  after_placeBlock (fun _ _ _ _ h => keeps_titles_onSheet h)
    (fun _ _ _ _ h => keeps_titles_onSheet h) c

/-- The sheet in a place remains as it is, if it is the first one with its title. -/
def Remains (title : String) (place : Nat) (t : Sheet) (b b' : Workbook) : Prop :=
  b.Stands title place t → b'.Stands title place t

instance (title : String) (place : Nat) (t : Sheet) :
    IsPreorder Workbook (Remains title place t) where
  refl _ h := h
  trans _ _ _ h h' hs := h' (h hs)

theorem allows_remains {place other : Nat} {t : Sheet} (hne : other ≠ place) :
    Allows (Remains title place t) other := by
  intro α action haction b hs
  rw [after_onSheet]
  exact hs.putSheet_other hne (haction _)

/-- A block touches no sheet other than the template and the target. -/
theorem titled?_placeBlock (commit : Session.Action ρ Unit) (c : Code) {t : Sheet}
    (htemplate : title ≠ layout.templateSheet) (htarget : title ≠ target)
    (h : s.workbook.titled? title = some t) :
    (after (placeBlock (Session.document commit) layout target c) s).workbook.titled? title =
      some t := by
  rcases titled?_eq_some_iff.mp h with ⟨place, hs⟩
  have hother {wanted : String} (hne : title ≠ wanted) (found : Nat)
      (hfound : s.workbook.find? wanted = some found) :
      Allows (Remains title place t) found := by
    rcases find?_eq_some_iff.mp hfound with ⟨u, hu⟩
    exact allows_remains (hu.place_ne hs hne.symm)
  have hremains : Remains title place t s.workbook
      (after (placeBlock (Session.document commit) layout target c) s).workbook :=
    after_placeBlock (hother htemplate) (hother htarget) c
  exact (hremains hs).titled?_eq

end Sheetwright.Run
