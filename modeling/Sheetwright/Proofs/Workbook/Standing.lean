import Sheetwright.Proofs.Workbook.Pasting
/-!
# A sheet that stays where it is

`Standing P title place` says that the first sheet with a title stands in a place and satisfies a
condition, and `Kept P title` that there is such a place. Each operation of a workbook is given the
conditions under which it leaves this alone: removing sheets of other titles, whatever is done to
sheets further behind, and whatever is done to other sheets that keep their titles.
-/

namespace Sheetwright.Workbook

open Grid Operation

variable {P : Sheet → Prop} {title other : String} {place copy : Nat} {b b' : Workbook}

/-- The first sheet with the title stands in the place and satisfies the condition. -/
def Standing (P : Sheet → Prop) (title : String) (place : Nat) (b : Workbook) : Prop :=
  ∃ s, b.Stands title place s ∧ P s

/-- The first sheet with the title is there and satisfies the condition. -/
def Kept (P : Sheet → Prop) (title : String) (b : Workbook) : Prop :=
  ∃ place, b.Standing P title place

/-- The first sheet with the title satisfies the condition and stands before another place. -/
def KeptBefore (P : Sheet → Prop) (title : String) (copy : Nat) (b : Workbook) : Prop :=
  ∃ place < copy, b.Standing P title place

theorem kept_iff : b.Kept P title ↔ ∃ s, b.titled? title = some s ∧ P s := by
  constructor
  · rintro ⟨place, s, hs, hP⟩
    exact ⟨s, hs.titled?_eq, hP⟩
  · rintro ⟨s, hs, hP⟩
    rcases titled?_eq_some_iff.mp hs with ⟨place, hplace⟩
    exact ⟨place, s, hplace, hP⟩

theorem KeptBefore.kept (h : b.KeptBefore P title copy) : b.Kept P title := by
  rcases h with ⟨place, -, hplace⟩
  exact ⟨place, hplace⟩

/-! ## The list of sheets -/

theorem Kept.without (h : b.Kept P title) (hne : other ≠ title) :
    (b.without other).Kept P title := by
  rcases h with ⟨place, s, hs, hP⟩
  rcases hs.without hne with ⟨place', hs'⟩
  exact ⟨place', s, hs', hP⟩

theorem meets_delete (hne : other ≠ title) :
    Meets (Kept P title) (delete other) (fun _ => Kept P title) fun _ => Kept P title := by
  refine ⟨fun b hb => ?_⟩
  rw [run_delete]
  by_cases h : other ∈ b.titles
  · rw [if_pos h]
    exact hb.without hne
  · rw [if_neg h]
    exact hb

/-- A copy of the sheet stands behind it under another title. -/
theorem meets_duplicate (hb : b.Kept P title)
    (hframe : b.copyFault? title = none → ∀ s, P s → P s.frame) :
    Meets (· = b) (duplicate title)
      (fun copy b' => b'.KeptBefore P title copy ∧ (b'.sheet copy).title ≠ title)
      fun _ => Kept P title := by
  rcases hb with ⟨place, s, hs, hP⟩
  refine ⟨fun b' hb' => ?_⟩
  rw [hb', run_duplicate hs]
  cases hfault : b.copyFault? title with
  | some fault => exact ⟨place, s, hs, hP⟩
  | none =>
    -- framing replaces a sheet, so the copy goes to the place behind all sheets
    have hlength : (b.framed place).sheets.length = b.sheets.length := by
      rw [Workbook.framed, sheets_putSheet, List.length_set]
    refine ⟨⟨place, lt_length_of_getElem? hs.sheet_eq, s.frame, ?_, hframe hfault s hP⟩, ?_⟩
    · exact hs.framed.append _
    · rw [sheet_of_getElem? (s := b.copySheet title s)]
      · exact b.copyTitle_ne title
      · rw [← hlength, List.getElem?_concat_length]

theorem meets_rename (wanted : String) :
    Meets (fun b => b.KeptBefore P title copy ∧ (b.sheet copy).title ≠ title) (rename copy wanted)
      (fun _ => KeptBefore P title copy)
      fun _ b => b.KeptBefore P title copy ∧ (b.sheet copy).title ≠ title := by
  refine ⟨?_⟩
  rintro b ⟨⟨place, hlt, s, hs, hP⟩, htitle⟩
  rw [run_rename]
  cases b.renamingFault? copy wanted with
  | some fault => exact ⟨⟨place, hlt, s, hs, hP⟩, htitle⟩
  | none => exact ⟨place, hlt, s, hs.putSheet_behind hlt, hP⟩

/-! ## Other sheets -/

theorem KeptBefore.putSheet (h : b.KeptBefore P title copy) (t : Sheet) :
    (b.putSheet copy t).KeptBefore P title copy := by
  rcases h with ⟨place, hlt, s, hs, hP⟩
  exact ⟨place, hlt, s, hs.putSheet_behind hlt, hP⟩

theorem meets_onSheet_behind {α : Type} (P : Sheet → Prop) (title : String) (copy : Nat)
    (action : Sheet.Action α) :
    Meets (KeptBefore P title copy) (onSheet copy action) (fun _ => KeptBefore P title copy)
      fun _ => KeptBefore P title copy := by
  refine ⟨fun b hb => ?_⟩
  rw [EStateM.run, onSheet]
  cases action.run (b.sheet copy) with
  | ok a t => exact hb.putSheet t
  | error fault t => exact hb.putSheet t

theorem meets_onSheet_other {α : Type} {action : Sheet.Action α} (hne : copy ≠ place)
    (htitle : Keeps Sheet.SameTitle action) :
    Meets (Standing P title place) (onSheet copy action) (fun _ => Standing P title place)
      fun _ => Standing P title place := by
  refine ⟨?_⟩
  rintro b ⟨s, hs, hP⟩
  rw [EStateM.run, onSheet]
  cases h : action.run (b.sheet copy) with
  | ok a t => exact ⟨s, hs.putSheet_other hne (htitle.of_ok h), hP⟩
  | error fault t => exact ⟨s, hs.putSheet_other hne (htitle.of_error h), hP⟩

/-! ## Looking up and copying -/

variable {column : Nat}

/-- The sheet satisfies a condition and rows lie on it. -/
def WithRows (P : Sheet → Prop) (rows : Nat × Nat) (s : Sheet) : Prop :=
  P s ∧ 1 ≤ rows.1 ∧ rows.2 ≤ s.maxRow

/-- The rows found for a tag lie on the sheet. -/
theorem meets_findTagged (title : String) (place : Nat) (hcolumn : 1 ≤ column)
    (hwiden : ∀ s t, P s → Sheet.Widened (s.searchArea column) s t → P t) (tag : String) :
    Meets (Standing P title place) (onSheet place (Sheet.findTagged column tag))
      (fun found => Standing (fun s => P s ∧ ∀ rows, found = some rows → WithRows P rows s)
        title place)
      fun _ => Standing P title place := by
  refine ⟨?_⟩
  rintro b ⟨s, hs, hP⟩
  have hkeeps := Sheet.keeps_findTagged hcolumn tag s
  have hrun := Sheet.run_findTagged hcolumn tag s
  rw [after_of_ok hrun] at hkeeps
  rw [EStateM.run, onSheet, hs.sheet, hrun]
  -- the search has returned; what is left to say is where the rows lie
  have htitle := hkeeps.title_eq.trans hs.title_eq
  refine ⟨_, hs.putSheet_self htitle, hwiden _ _ hP hkeeps, ?_⟩
  intro rows hrows
  rcases Sheet.mem_rows_of_ends? hrows with ⟨hfirst, hlast⟩
  exact ⟨hwiden _ _ hP hkeeps, (Sheet.mem_span.mp hfirst).1, (Sheet.mem_span.mp hlast).2⟩

theorem Pasted.stands {area : Position → Prop} {source dest : Nat} {s : Sheet}
    (h : Pasted source dest area b b') (hne : source ≠ dest) (hs : b.Stands title source s) :
    ∃ t, b'.Stands title source t ∧ Sheet.Widened area s t := by
  have hlt : source < b'.sheets.length := by
    rw [h.length_eq]
    exact lt_length_of_getElem? hs.sheet_eq
  have hopened := h.opened hne
  rw [hs.sheet] at hopened
  refine ⟨b'.sheet source, ⟨getElem?_sheet hlt, ?_, ?_⟩, hopened⟩
  · rw [hopened.title_eq, hs.title_eq]
  · intro i hi u hu
    -- of the sheets before, only the destination may have changed, and not in its title
    by_cases hid : i = dest
    · subst hid
      have hold : i < b.sheets.length := by
        rw [← h.length_eq]
        exact lt_length_of_getElem? hu
      have hwritten : u.title = (b.sheet i).title := by
        rw [← sheet_of_getElem? hu]
        exact h.written hne
      rw [hwritten]
      exact hs.first i hi _ (getElem?_sheet hold)
    · rw [h.other i (Nat.ne_of_lt hi) hid] at hu
      exact hs.first i hi u hu

theorem meets_copyBlock (title : String) (rows : Nat × Nat) (hne : copy ≠ place)
    (hwiden : ∀ s t, P s → Sheet.Widened (s.searchArea column) s t → P t) (start lastColumn : Int) :
    Meets (Standing (WithRows P rows) title place)
      (copyBlock place rows.1 rows.2 copy start lastColumn) (fun _ => Standing P title place)
      fun _ => Standing P title place := by
  -- stated of the state that is left behind, so that a fault needs no case of its own
  have hpasted (b : Workbook) (hb : b.Standing (WithRows P rows) title place) :
      (after (copyBlock place rows.1 rows.2 copy start lastColumn) b).Standing P title place := by
    rcases hb with ⟨s, hs, hP, hfirst, hlast⟩
    rw [← hs.sheet] at hlast
    have h : Pasted place copy _ b
        (after (copyBlock place rows.1 rows.2 copy start lastColumn) b) :=
      pasted_copyBlock (by omega) (by omega)
    rcases h.stands hne.symm hs with ⟨t, ht, hst⟩
    rw [hs.sheet] at hst
    exact ⟨t, ht, hwiden s t hP (hst.mono fun p hp => ⟨hp.1, Or.inl hp.2⟩)⟩
  refine ⟨fun b hb => ?_⟩
  have h := hpasted b hb
  cases hrun : (copyBlock place rows.1 rows.2 copy start lastColumn).run b with
  | ok a b' => rwa [after_of_ok hrun] at h
  | error fault b' => rwa [after_of_error hrun] at h

theorem Standing.imp {P' : Sheet → Prop} (h : b.Standing P title place)
    (himp : ∀ s, P s → P' s) : b.Standing P' title place := by
  rcases h with ⟨s, hs, hP⟩
  exact ⟨s, hs, himp s hP⟩

end Sheetwright.Workbook
