import Sheetwright.Document.Session
import Sheetwright.Proofs.Grid.Clearing
import Sheetwright.Proofs.Run.Parts
import Sheetwright.Proofs.Workbook.Sheets
/-!
# Making a tab

A tab is made in four moves: the sheet that has its title is removed, the template is copied, the
copy gets the title, and the rows below the head of the copy are cleared. `TabRun` lists what can
come of this, one case for each move that may fail and one for the tab that is made, each with the
workbook that is left behind; `tabRun_makeTab` says that the list is complete.
-/

namespace Sheetwright

open Grid Operation

namespace Workbook

variable {b : Workbook} {title name : String} {place : Nat} {s t : Sheet}

/-- The workbook with one sheet framed and another one added. -/
def copied (b : Workbook) (place : Nat) (copy : Sheet) : Workbook :=
  ⟨(b.framed place).sheets ++ [copy]⟩

/-- The title that a copy of a sheet gets in place of its provisional one, unless there is a
fault. -/
def tabTitle (b : Workbook) (template name : String) : String :=
  givenTitle (b.titles ++ [b.copyTitle template]) (b.copyTitle template) name

/-- Why a copy of a sheet cannot have a title, if so. -/
def tabFault? (b : Workbook) (template name : String) : Option Document.Fault :=
  if name ≠ b.copyTitle template ∧ name ∈ b.titles then some (.titleTaken name)
  else (titleFault? (b.titles ++ [b.copyTitle template]) (b.copyTitle template) name).map
    fun fault => .titleRefused name (.unfit fault)

/-- The copy of a sheet under its title, as yet with all its rows. -/
def tabSheet (b : Workbook) (template name : String) (s : Sheet) : Sheet :=
  { copyOf s with title := b.tabTitle template name }

theorem length_framed (b : Workbook) (place : Nat) :
    (b.framed place).sheets.length = b.sheets.length := by
  rw [framed, sheets_putSheet, List.length_set]

theorem titles_framed (b : Workbook) (place : Nat) : (b.framed place).titles = b.titles :=
  titles_putSheet (Sheet.reframed_frame _).title_eq

theorem titles_copied (b : Workbook) (place : Nat) (copy : Sheet) :
    (b.copied place copy).titles = b.titles ++ [copy.title] := by
  rw [← titles_framed b place]
  exact List.map_append

theorem sheet_copied (b : Workbook) (place : Nat) (copy : Sheet) :
    (b.copied place copy).sheet b.sheets.length = copy := by
  refine sheet_of_getElem? ?_
  rw [← length_framed b place]
  exact List.getElem?_concat_length

theorem putSheet_copied (b : Workbook) (place : Nat) (copy copy' : Sheet) :
    (b.copied place copy).putSheet b.sheets.length copy' = b.copied place copy' := by
  rw [putSheet, copied, ← length_framed b place, List.set_append_right _ _ (Nat.le_refl _),
    Nat.sub_self]
  rfl

/-- A title is given unless it is unfit, taken by a sheet other than the copy itself, or taken in
other cases with its numbers exhausted. -/
theorem tabFault?_eq_none_iff {template : String} :
    b.tabFault? template name = none ↔
      (name ∈ b.titles → name = b.copyTitle template) ∧ Title.fault? name = none ∧
        (name ≠ b.copyTitle template →
          ¬Title.Exhausted (b.titles ++ [b.copyTitle template]) name) := by
  rw [tabFault?]
  split
  next htaken => exact iff_of_false nofun fun h => htaken.1 (h.1 htaken.2)
  next hfree =>
    rw [Option.map_eq_none_iff, titleFault?_eq_none_iff]
    exact (and_iff_right fun hmem => not_not.mp fun hne => hfree ⟨hne, hmem⟩).symm

theorem renamingFault?_copied (b : Workbook) (place : Nat) (s : Sheet) :
    (b.copied place (b.copySheet title s)).renamingFault? b.sheets.length name =
      b.tabFault? title name := by
  have hiff : name ≠ b.copyTitle title ∧ name ∈ b.titles ++ [b.copyTitle title] ↔
      name ≠ b.copyTitle title ∧ name ∈ b.titles := by
    simp only [List.mem_append, List.mem_singleton]
    exact ⟨fun h => ⟨h.1, h.2.resolve_right h.1⟩, fun h => ⟨h.1, Or.inl h.2⟩⟩
  rw [renamingFault?, sheet_copied, titles_copied, tabFault?]
  simp only [copySheet, hiff]

theorem run_rename_copied (b : Workbook) (place : Nat) (s : Sheet) :
    (rename b.sheets.length name).run (b.copied place (b.copySheet title s)) =
      match b.tabFault? title name with
      | some fault => .error fault (b.copied place (b.copySheet title s))
      | none => .ok () (b.copied place (b.tabSheet title name s)) := by
  rw [run_rename, renamingFault?_copied, putSheet_copied, sheet_copied, titles_copied]
  rfl

end Workbook

namespace Run

open Workbook

variable {ρ α : Type} {layout : Layout} {commit : Session.Action ρ Unit} {name : String}

/-- What can come of making a tab of a title, and the workbook that is left behind. -/
inductive TabRun (layout : Layout) (name : String) (b : Workbook) :
    Except Failure Unit → Workbook → Prop
  /-- The title is that of the template. -/
  | overwrites (h : name = layout.templateSheet) :
    TabRun layout name b (.error (.overwritesTemplate name)) b
  /-- There is no template. -/
  | missing (hne : name ≠ layout.templateSheet)
    (h : layout.templateSheet ∉ (b.without name).titles) :
    TabRun layout name b (.error (.document (.noSheet layout.templateSheet))) (b.without name)
  /-- A copy of the template cannot be given a provisional title. -/
  | uncopied {cause : Title.Fault} (hne : name ≠ layout.templateSheet)
    (htemplate : layout.templateSheet ∈ (b.without name).titles)
    (h : (b.without name).copyFault? layout.templateSheet = some cause) :
    TabRun layout name b (.error (.document (.creationRefused cause))) (b.without name)
  /-- The copy cannot have the title of the tab. -/
  | refused {place : Nat} {t : Sheet} {fault : Document.Fault}
    (hne : name ≠ layout.templateSheet)
    (htemplate : (b.without name).Stands layout.templateSheet place t)
    (hcopy : (b.without name).copyFault? layout.templateSheet = none)
    (h : (b.without name).tabFault? layout.templateSheet name = some fault) :
    TabRun layout name b (.error (.document fault))
      (((b.without name).copied place ((b.without name).copySheet layout.templateSheet t)).without
        ((b.without name).copyTitle layout.templateSheet))
  /-- The rows of the copy cannot be cleared. -/
  | uncleared {place : Nat} {t u : Sheet} {fault : Fault} (hne : name ≠ layout.templateSheet)
    (htemplate : (b.without name).Stands layout.templateSheet place t)
    (hcopy : (b.without name).copyFault? layout.templateSheet = none)
    (htitle : (b.without name).tabFault? layout.templateSheet name = none)
    (h : (Sheet.clearFrom layout.dataStartRow).run
      ((b.without name).tabSheet layout.templateSheet name t) = .error fault u) :
    TabRun layout name b (.error (.document (.sheet fault))) ((b.without name).copied place u)
  /-- The tab is made. -/
  | made {place : Nat} {t u : Sheet} (hne : name ≠ layout.templateSheet)
    (htemplate : (b.without name).Stands layout.templateSheet place t)
    (hcopy : (b.without name).copyFault? layout.templateSheet = none)
    (htitle : (b.without name).tabFault? layout.templateSheet name = none)
    (h : (Sheet.clearFrom layout.dataStartRow).run
      ((b.without name).tabSheet layout.templateSheet name t) = .ok () u) :
    TabRun layout name b (.ok ()) ((b.without name).copied place u)

/-! ## The moves -/

theorem run_ask_onWorkbook (x : Workbook.Action α) (s : Session ρ) :
    (ask (Session.onWorkbook x)).run s = match x.run s.workbook with
      | .ok a b => .ok a { s with workbook := b }
      | .error fault b => .error (.document fault) { s with workbook := b } := by
  rw [ask, EStateM.run_adaptExcept, EStateM.run, Session.onWorkbook]
  cases x.run s.workbook <;> rfl

theorem run_ask_onSheet {action : Sheet.Action α} {place : Nat} {s : Session ρ} {a : α} {t : Sheet}
    (h : action.run (s.workbook.sheet place) = .ok a t) :
    (ask (Session.onSheet place action)).run s =
      .ok a { s with workbook := s.workbook.putSheet place t } := by
  have hsheet : (Workbook.onSheet place action).run s.workbook =
      .ok a (s.workbook.putSheet place t) := by
    rw [EStateM.run, Workbook.onSheet, h]
  rw [Session.onSheet, run_ask_onWorkbook, hsheet]

/-- Conditions on the workbook are conditions on the session that holds it. -/
theorem meets_onWorkbook {A : Workbook → Prop} {B : α → Workbook → Prop}
    {E : Document.Fault → Workbook → Prop} {x : Workbook.Action α} (h : Meets A x B E) :
    Meets (fun s : Session ρ => A s.workbook) (Session.onWorkbook x) (fun a s => B a s.workbook)
      fun fault s => E fault s.workbook := by
  refine ⟨fun s hs => ?_⟩
  have hx := h.ends s.workbook hs
  rw [EStateM.run, Session.onWorkbook]
  cases hrun : x.run s.workbook with
  | ok a b =>
    rw [hrun] at hx
    exact hx
  | error fault b =>
    rw [hrun] at hx
    exact hx

theorem meets_ask_onWorkbook {A : Workbook → Prop} {B : α → Workbook → Prop}
    {E : Document.Fault → Workbook → Prop} {x : Workbook.Action α} (h : Meets A x B E) :
    Meets (fun s : Session ρ => A s.workbook) (ask (Session.onWorkbook x))
      (fun a s => B a s.workbook)
      fun failure s => ∃ fault, failure = .document fault ∧ E fault s.workbook :=
  Meets.adapt ((meets_onWorkbook h).conseq_stop fun fault _ hs => ⟨fault, rfl, hs⟩)

theorem run_vacate (s : Session ρ) :
    (vacate (Session.document commit) name).run s =
      .ok () { s with workbook := s.workbook.without name } := by
  have hfind : (ask ((Session.document commit).find? name)).run s =
      .ok (s.workbook.find? name) s := rfl
  rw [vacate, EStateM.run_bind, hfind]
  by_cases h : name ∈ s.workbook.titles
  · have hsome : (s.workbook.find? name).isSome = true := by
      rcases exists_stands_iff.mpr h with ⟨place, t, ht⟩
      rw [ht.find?_eq]
      rfl
    have hdelete := run_ask_onWorkbook (Workbook.delete name) s
    rw [run_delete, if_pos h] at hdelete
    dsimp only
    rw [if_pos hsome]
    exact hdelete
  · have hnone : ¬(s.workbook.find? name).isSome = true := by
      rw [find?_eq_none_iff.mpr h]
      exact Bool.false_ne_true
    dsimp only
    rw [if_neg hnone, without_of_not_mem h]
    rfl

theorem run_takeBack {place : Nat} {copy : Sheet} {b : Workbook} (failure : Failure)
    (s : Session ρ) (hs : s.workbook = b.copied place copy) :
    (takeBack (Session.document commit) b.sheets.length failure).run s =
      .error failure { s with workbook := (b.copied place copy).without copy.title } := by
  have htitle : (ask ((Session.document commit).title b.sheets.length)).run s =
      .ok copy.title s := by
    rw [← sheet_copied b place copy, ← hs]
    rfl
  -- the copy is among the sheets, so there is something to remove
  have hmem : copy.title ∈ s.workbook.titles := by
    rw [hs, titles_copied]
    exact List.mem_append_right _ (List.mem_singleton_self _)
  have hdelete := run_ask_onWorkbook (Workbook.delete copy.title) s
  rw [run_delete, if_pos hmem] at hdelete
  have hask : (ask ((Session.document commit).delete copy.title)).run s =
      .ok () { s with workbook := s.workbook.without copy.title } := hdelete
  rw [takeBack, EStateM.run_bind, htitle]
  dsimp only
  rw [EStateM.run_bind, hask, hs]
  rfl

theorem isRefusal_of_tabFault? {b : Workbook} {template : String} {fault : Document.Fault}
    (h : b.tabFault? template name = some fault) : fault.isRefusal = true := by
  rw [tabFault?] at h
  split at h
  · cases h
    rfl
  · rcases Option.map_eq_some_iff.mp h with ⟨cause, -, rfl⟩
    rfl

theorem run_titleCopy (place : Nat) (t : Sheet) {b : Workbook} {template : String}
    (s : Session ρ) (hs : s.workbook = b.copied place (b.copySheet template t)) :
    (titleCopy (Session.document commit) b.sheets.length name).run s =
      match b.tabFault? template name with
      | some fault => .error (.document fault)
          { s with workbook := s.workbook.without (b.copyTitle template) }
      | none => .ok () { s with workbook := b.copied place (b.tabSheet template name t) } := by
  have hrename := run_ask_onWorkbook (Workbook.rename b.sheets.length name) s
  rw [hs, run_rename_copied] at hrename
  rw [titleCopy_eq, run_tryCatch]
  have hask : (ask ((Session.document commit).rename b.sheets.length name)).run s = _ := hrename
  rw [hask]
  cases h : b.tabFault? template name with
  | some fault =>
    -- a title is refused, never lost to another fault, so the copy is taken back
    have hrefusal : (Failure.document fault).isRefusal = true := isRefusal_of_tabFault? h
    dsimp only
    rw [if_pos hrefusal, ← hs, run_takeBack _ _ hs, hs]
    rfl
  | none => rfl

theorem run_trim (place : Nat) {copy : Sheet} {b : Workbook} (s : Session ρ)
    (hs : s.workbook = b.copied place copy) :
    (trim (Session.document commit) layout b.sheets.length).run s =
      match (Sheet.clearFrom layout.dataStartRow).run copy with
      | .ok _ u => .ok () { s with workbook := b.copied place u }
      | .error fault u => .error (.document (.sheet fault))
          { s with workbook := b.copied place u } := by
  have hsheet : s.workbook.sheet b.sheets.length = copy := by
    rw [hs, sheet_copied]
  have hput (u : Sheet) : s.workbook.putSheet b.sheets.length u = b.copied place u := by
    rw [hs, putSheet_copied]
  have hlast : (ask ((Session.document commit).lastRow b.sheets.length)).run s =
      .ok copy.maxRow s := by
    rw [← hsheet]
    rfl
  rw [trim, EStateM.run_bind, hlast, Sheet.clearFrom, EStateM.run_bind, EStateM.run_get]
  dsimp only
  -- the rows are counted on the document first and cleared only if there are any
  by_cases h : layout.dataStartRow ≤ copy.maxRow
  · have hclear := run_ask_onWorkbook
      (Workbook.onSheet b.sheets.length (Sheet.clearRows layout.dataStartRow copy.maxRow)) s
    rw [if_pos h, if_pos h]
    refine hclear.trans ?_
    rw [EStateM.run, Workbook.onSheet, hsheet]
    cases (Sheet.clearRows layout.dataStartRow copy.maxRow).run copy with
    | ok a u =>
      dsimp only
      rw [hput]
    | error fault u =>
      dsimp only
      rw [hput]
  · rw [if_neg h, if_neg h]
    simp only [EStateM.run_pure, ← hs]

/-! ## All moves together -/

theorem exists_tabRun (layout : Layout) (commit : Session.Action ρ Unit) (name : String)
    (s : Session ρ) :
    ∃ r b, TabRun layout name s.workbook r b ∧
      (makeTab (Session.document commit) layout name).run s =
        ending r { s with workbook := b } := by
  rw [makeTab_eq]
  by_cases hne : name = layout.templateSheet
  · rw [if_pos hne]
    exact ⟨_, _, .overwrites hne, rfl⟩
  · rw [if_neg hne, EStateM.run_bind, run_vacate]
    dsimp only
    -- from here on the sheet of that title is gone
    have hduplicate := run_ask_onWorkbook (Workbook.duplicate layout.templateSheet)
      { s with workbook := s.workbook.without name }
    rw [copyTemplate, EStateM.run_bind]
    have hask : (ask ((Session.document commit).duplicate layout.templateSheet)).run
        { s with workbook := s.workbook.without name } = _ := hduplicate
    rw [hask]
    by_cases hmem : layout.templateSheet ∈ (s.workbook.without name).titles
    · rcases exists_stands_iff.mpr hmem with ⟨place, t, ht⟩
      dsimp only
      rw [run_duplicate ht]
      cases hcopy : (s.workbook.without name).copyFault? layout.templateSheet with
      | some cause => exact ⟨_, _, .uncopied hne hmem hcopy, rfl⟩
      | none =>
        dsimp only
        rw [EStateM.run_bind, run_titleCopy place t _ rfl]
        cases htitle : (s.workbook.without name).tabFault? layout.templateSheet name with
        | some fault => exact ⟨_, _, .refused hne ht hcopy htitle, rfl⟩
        | none =>
          dsimp only
          rw [run_trim place _ rfl]
          cases hclear : (Sheet.clearFrom layout.dataStartRow).run
              ((s.workbook.without name).tabSheet layout.templateSheet name t) with
          | ok a u => exact ⟨_, _, .made hne ht hcopy htitle hclear, rfl⟩
          | error fault u => exact ⟨_, _, .uncleared hne ht hcopy htitle hclear, rfl⟩
    · dsimp only
      rw [run_duplicate_of_not_mem hmem]
      exact ⟨_, _, .missing hne hmem, rfl⟩

/-- Making a tab ends in one of the ways listed, and does not touch the store. -/
theorem tabRun_makeTab (layout : Layout) (commit : Session.Action ρ Unit) (name : String)
    (s : Session ρ) :
    TabRun layout name s.workbook (outcome (makeTab (Session.document commit) layout name) s)
        (after (makeTab (Session.document commit) layout name) s).workbook ∧
      (after (makeTab (Session.document commit) layout name) s).store = s.store := by
  rcases exists_tabRun layout commit name s with ⟨r, b, hrun, hends⟩
  rw [outcome_of_run hends, after_of_run hends]
  exact ⟨hrun, rfl⟩

/-- Clearing the copy, whether it fails or not, leaves it the title that it was given. -/
theorem title_of_clearFrom {b : Workbook} {t u : Sheet} {r : Except Fault Unit}
    (h : (Sheet.clearFrom layout.dataStartRow).run
      (b.tabSheet layout.templateSheet name t) = ending r u) :
    u.title = b.tabTitle layout.templateSheet name := by
  have hkeeps := Sheet.keeps_title_clearFrom layout.dataStartRow
    (b.tabSheet layout.templateSheet name t)
  rwa [after_of_run h] at hkeeps

/-- Making a tab needs the template, a copy of it and a title fit for a sheet. -/
theorem TabRun.of_made {b b' : Workbook} (h : TabRun layout name b (.ok ()) b') :
    name ≠ layout.templateSheet ∧ layout.templateSheet ∈ b.titles ∧
      (b.without name).copyFault? layout.templateSheet = none ∧ Title.fault? name = none := by
  cases h with
  | made hne hs hcopy htitle =>
    exact ⟨hne, (mem_titles_without hne).mp hs.mem_titles, hcopy,
      (tabFault?_eq_none_iff.mp htitle).2.1⟩

end Run

end Sheetwright
