import Sheetwright.Proofs.Run.Tab
/-!
# Tabs that fail

The sheet that has the title of a tab is removed before the template is copied, and a failure does
not bring it back. `makeTab_failed` says that a tab that fails does no other harm: every other sheet
stays in its place as it is, but for lines of merged ranges that the template may gain, and a copy
that was refused its title is gone again.
-/

namespace Sheetwright

open Grid Operation

namespace Workbook

variable {b b' : Workbook} {title : String} {place : Nat} {copy s : Sheet}

/-- Every sheet is still in its place. The sheets of a title may have lines added, all others are as
they were. -/
structure Survives (title : String) (b b' : Workbook) : Prop where
  length_le : b.sheets.length ≤ b'.sheets.length
  survives : ∀ (i : Nat) (s : Sheet), b.sheets[i]? = some s →
    ∃ s', b'.sheets[i]? = some s' ∧ s.Reframed s' ∧ (s.title ≠ title → s' = s)

theorem Survives.refl (title : String) (b : Workbook) : b.Survives title b :=
  ⟨Nat.le_refl _, fun _ s hs => ⟨s, hs, (Sheet.Alike.refl s).reframed, fun _ => rfl⟩⟩

theorem Stands.survives (h : b.Stands title place s) (more : List Sheet) :
    b.Survives title ⟨(b.framed place).sheets ++ more⟩ := by
  have hlength := length_framed b place
  refine ⟨?_, ?_⟩
  · rw [List.length_append, hlength]
    exact Nat.le_add_right _ _
  · intro i u hu
    have hlt := lt_length_of_getElem? hu
    rw [List.getElem?_append_left (by omega)]
    -- the framed sheet is the only one that differs, and it has the title
    by_cases hi : place = i
    · subst hi
      obtain rfl : u = s := Option.some.inj (hu.symm.trans h.sheet_eq)
      refine ⟨u.frame, ?_, u.reframed_frame, fun hne => absurd h.title_eq hne⟩
      exact h.framed.sheet_eq
    · refine ⟨u, ?_, (Sheet.Alike.refl u).reframed, fun _ => rfl⟩
      rw [Workbook.framed, putSheet_getElem?_of_ne hi, hu]

/-- Taking back a copy whose title is not in use leaves the sheets that were there before. -/
theorem without_copied (h : copy.title ∉ b.titles) :
    (b.copied place copy).without copy.title = b.framed place := by
  -- the removal passes over all sheets before the copy, as none has its title
  have hkeep (s : Sheet) (hs : s ∈ (b.framed place).sheets) :
      ¬decide (s.title = copy.title) = true := by
    intro hst
    refine h ?_
    rw [← titles_framed b place, ← of_decide_eq_true hst]
    exact mem_titles.mpr ⟨s, hs, rfl⟩
  rw [without, copied, List.eraseP_append_right _ hkeep, List.eraseP_cons_of_pos (by simp),
    List.append_nil]

theorem Survives.titles_eq (h : b.Survives title b')
    (hlength : b'.sheets.length = b.sheets.length) : b'.titles = b.titles := by
  refine List.ext_getElem? fun i => ?_
  rw [titles, titles, List.getElem?_map, List.getElem?_map]
  cases hs : b.sheets[i]? with
  | some s =>
    rcases h.survives i s hs with ⟨s', hs', hst, -⟩
    rw [hs', Option.map_some, Option.map_some, hst.title_eq]
  | none =>
    have hge := List.getElem?_eq_none_iff.mp hs
    rw [List.getElem?_eq_none (by omega)]

end Workbook

namespace Run

open Workbook

variable {ρ : Type} {layout : Layout} {commit : Session.Action ρ Unit} {name : String}

/-- What a tab of a title leaves of the sheets that were there. -/
def remaining (layout : Layout) (name : String) (b : Workbook) : Workbook :=
  if name = layout.templateSheet then b else b.without name

theorem length_without_lt {b : Workbook} (h : name ∈ b.titles) :
    (b.without name).sheets.length < b.sheets.length := by
  rcases exists_stands_iff.mpr h with ⟨place, s, hs⟩
  have hlt := lt_length_of_getElem? hs.sheet_eq
  rw [hs.without_eq, List.length_eraseIdx_of_lt hlt]
  omega

/-- No sheet is removed exactly when none has the title, or when the template has. -/
theorem titles_remaining_iff {b : Workbook} :
    (remaining layout name b).titles = b.titles ↔
      name = layout.templateSheet ∨ name ∉ b.titles := by
  rw [remaining]
  by_cases hne : name = layout.templateSheet
  · rw [if_pos hne]
    exact iff_of_true rfl (Or.inl hne)
  · rw [if_neg hne]
    constructor
    · intro h
      refine Or.inr fun hmem => ?_
      -- a workbook that has lost a sheet has fewer titles
      have hlength := congrArg List.length h
      rw [titles, titles, List.length_map, List.length_map] at hlength
      exact absurd hlength (Nat.ne_of_lt (length_without_lt hmem))
    · intro h
      rw [without_of_not_mem (h.resolve_left hne)]

/-- What a tab that fails leaves behind. The provisional title of the copy must not be in use: it is
by this title that the copy is taken back. -/
theorem TabRun.remaining {b b' : Workbook} {failure : Failure}
    (h : TabRun layout name b (.error failure) b')
    (hfresh : (b.without name).copyTitle layout.templateSheet ∉ (b.without name).titles) :
    (remaining layout name b).Survives layout.templateSheet b' ∧
      ((∀ cause, failure ≠ .document (.sheet cause)) →
        b'.sheets.length = (Run.remaining layout name b).sheets.length) := by
  have hremaining (hne : name ≠ layout.templateSheet) :
      Run.remaining layout name b = b.without name := if_neg hne
  cases h with
  | overwrites h =>
    have hb : Run.remaining layout name b = b := if_pos h
    rw [hb]
    exact ⟨.refl _ b, fun _ => rfl⟩
  | missing hne =>
    rw [hremaining hne]
    exact ⟨.refl _ _, fun _ => rfl⟩
  | uncopied hne =>
    rw [hremaining hne]
    exact ⟨.refl _ _, fun _ => rfl⟩
  -- the copy is deleted again, so only the frame of the template stays
  | @refused place t fault hne hs =>
    have hback : ((b.without name).copied place
        ((b.without name).copySheet layout.templateSheet t)).without
          ((b.without name).copyTitle layout.templateSheet) = (b.without name).framed place :=
      without_copied hfresh
    have hsurvives := hs.survives []
    rw [List.append_nil] at hsurvives
    rw [hremaining hne]
    refine ⟨hback ▸ hsurvives, fun _ => ?_⟩
    exact (congrArg (fun b => b.sheets.length) hback).trans (length_framed _ _)
  | uncleared hne hs =>
    rw [hremaining hne]
    exact ⟨hs.survives _, fun h => absurd rfl (h _)⟩

/-- A tab that fails leaves every sheet in its place but the one that has its title, which is
removed first unless it is the template. Only the template may have lines of its merged ranges
added. A failure that does not come from clearing the copy leaves no further sheet behind, so that
the titles are those from before exactly if no sheet had to be removed. -/
theorem makeTab_failed (layout : Layout) (commit : Session.Action ρ Unit) (name : String)
    {s : Session ρ} {failure : Failure}
    (hfresh : (s.workbook.without name).copyTitle layout.templateSheet ∉
      (s.workbook.without name).titles)
    (h : outcome (makeTab (Session.document commit) layout name) s = .error failure) :
    let s' := after (makeTab (Session.document commit) layout name) s
    s'.store = s.store ∧
      (remaining layout name s.workbook).Survives layout.templateSheet s'.workbook ∧
      ((∀ cause, failure ≠ .document (.sheet cause)) →
        s'.workbook.titles = (remaining layout name s.workbook).titles ∧
        (s'.workbook.titles = s.workbook.titles ↔
          name = layout.templateSheet ∨ name ∉ s.workbook.titles)) := by
  rcases tabRun_makeTab layout commit name s with ⟨hrun, hstore⟩
  rw [h] at hrun
  rcases hrun.remaining hfresh with ⟨hsurvives, hlength⟩
  refine ⟨hstore, hsurvives, fun hcause => ?_⟩
  have htitles := hsurvives.titles_eq (hlength hcause)
  rw [htitles]
  exact ⟨rfl, titles_remaining_iff⟩

/-- A workbook that has no template. -/
def bare : Session Unit := ⟨⟨[{ title := "Keep" }, { title := "Other" }]⟩, ()⟩

/-- Without a template a tab fails; of two sheets the one is left that does not have its title. -/
theorem makeTab_failed_bare :
    (bare.workbook.without "Keep").copyTitle "Codes" ∉ (bare.workbook.without "Keep").titles ∧
      outcome (makeTab (Session.document (pure ())) {} "Keep") bare =
        .error (.document (.noSheet "Codes")) ∧
      (after (makeTab (Session.document (pure ())) {} "Keep") bare).workbook.titles =
        ["Other"] := by
  have hfresh : (bare.workbook.without "Keep").copyTitle "Codes" ∉
      (bare.workbook.without "Keep").titles := by
    decide +kernel
  have hfailed : outcome (makeTab (Session.document (pure ())) {} "Keep") bare =
      .error (.document (.noSheet "Codes")) := by
    rfl
  rcases makeTab_failed {} (pure ()) "Keep" hfresh hfailed with ⟨-, -, h⟩
  refine ⟨hfresh, hfailed, (h nofun).1.trans ?_⟩
  decide +kernel

/-- Where there is no template, the sheet that has the title of the tab is lost. -/
theorem makeTab_failed_loses_sheet :
    ¬∀ (layout : Layout) (commit : Session.Action Unit Unit) (name : String) (s : Session Unit)
      (failure : Failure),
      outcome (makeTab (Session.document commit) layout name) s = .error failure →
        (after (makeTab (Session.document commit) layout name) s).workbook.titles =
          s.workbook.titles := by
  intro h
  have hfailed : outcome (makeTab (Session.document (pure ())) {} "Keep")
      (⟨⟨[{ title := "Keep" }]⟩, ()⟩ : Session Unit) = .error (.document (.noSheet "Codes")) := by
    rfl
  have htitles := h _ _ _ _ _ hfailed
  revert htitles
  decide +kernel

end Run

end Sheetwright
