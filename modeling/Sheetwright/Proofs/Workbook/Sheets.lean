import Sheetwright.Proofs.Grid.Actions
import Sheetwright.Proofs.Workbook.Numbered
import Sheetwright.Workbook
/-!
# The sheets of a workbook

A workbook finds a sheet by its title and keeps it in a place of a list. `Stands` ties the two
together: the first sheet with a title stands in some place. What removing, adding and replacing
sheets does is stated in these terms, and each of the operations that change the list of sheets is
run once, as an equation.
-/

namespace Sheetwright.Workbook

open Grid Operation

variable {b b' : Workbook} {title other : String} {place place' : Nat} {s t : Sheet}

/-- The first sheet with a title. -/
def titled? (b : Workbook) (title : String) : Option Sheet := b.sheets.find? (·.title = title)

/-- The workbook without the first sheet of a title. -/
def without (b : Workbook) (title : String) : Workbook := ⟨b.sheets.eraseP (·.title = title)⟩

/-- The first sheet with the title stands in the place. -/
structure Stands (b : Workbook) (title : String) (place : Nat) (s : Sheet) : Prop where
  sheet_eq : b.sheets[place]? = some s
  title_eq : s.title = title
  first : ∀ i < place, ∀ u, b.sheets[i]? = some u → u.title ≠ title

/-! ## Finding -/

theorem mem_titles : title ∈ b.titles ↔ ∃ s ∈ b.sheets, s.title = title := List.mem_map

theorem sheet_of_getElem? (h : b.sheets[place]? = some s) : b.sheet place = s := by
  rw [sheet, List.getD_eq_getElem?_getD, h, Option.getD_some]

theorem getElem?_sheet (h : place < b.sheets.length) :
    b.sheets[place]? = some (b.sheet place) := by
  rw [sheet_of_getElem? (List.getElem?_eq_getElem h), List.getElem?_eq_getElem h]

theorem lt_length_of_getElem? (h : b.sheets[place]? = some s) : place < b.sheets.length :=
  (List.getElem?_eq_some_iff.mp h).1

theorem find?_eq_some_iff : b.find? title = some place ↔ ∃ s, b.Stands title place s := by
  rw [find?, List.findIdx?_eq_some_iff_getElem]
  constructor
  · rintro ⟨h, htitle, hfirst⟩
    refine ⟨b.sheets[place], List.getElem?_eq_getElem h, of_decide_eq_true htitle, ?_⟩
    intro i hi u hu hut
    rcases List.getElem?_eq_some_iff.mp hu with ⟨hlt, rfl⟩
    exact hfirst i hi (decide_eq_true hut)
  · rintro ⟨s, hs, htitle, hfirst⟩
    rcases List.getElem?_eq_some_iff.mp hs with ⟨h, rfl⟩
    refine ⟨h, decide_eq_true htitle, ?_⟩
    intro i hi hit
    have hlt : i < b.sheets.length := Nat.lt_trans hi h
    exact hfirst i hi _ (List.getElem?_eq_getElem hlt) (of_decide_eq_true hit)

theorem find?_eq_none_iff : b.find? title = none ↔ title ∉ b.titles := by
  rw [find?, List.findIdx?_eq_none_iff, mem_titles]
  simp only [decide_eq_false_iff_not, not_exists, not_and]

theorem Stands.find?_eq (h : b.Stands title place s) : b.find? title = some place :=
  find?_eq_some_iff.mpr ⟨s, h⟩

theorem Stands.sheet (h : b.Stands title place s) : b.sheet place = s :=
  sheet_of_getElem? h.sheet_eq

theorem Stands.mem_titles (h : b.Stands title place s) : title ∈ b.titles :=
  Workbook.mem_titles.mpr ⟨s, List.mem_of_getElem? h.sheet_eq, h.title_eq⟩

theorem exists_stands_iff : (∃ place s, b.Stands title place s) ↔ title ∈ b.titles := by
  constructor
  · rintro ⟨place, s, h⟩
    exact h.mem_titles
  · intro h
    cases hfind : b.find? title with
    | none => exact absurd h (find?_eq_none_iff.mp hfind)
    | some place => exact ⟨place, find?_eq_some_iff.mp hfind⟩

theorem Stands.place_ne (h : b.Stands title place s) (h' : b.Stands other place' t)
    (hne : title ≠ other) : place ≠ place' := by
  rintro rfl
  have hst : s = t := h.sheet.symm.trans h'.sheet
  exact hne (by rw [← h.title_eq, ← h'.title_eq, hst])

theorem titled?_eq_some_iff : b.titled? title = some s ↔ ∃ place, b.Stands title place s := by
  rw [titled?, List.find?_eq_some_iff_getElem]
  constructor
  · rintro ⟨htitle, place, hplace, hs, hfirst⟩
    refine ⟨place, List.getElem?_eq_some_iff.mpr ⟨hplace, hs⟩, of_decide_eq_true htitle, ?_⟩
    intro i hi u hu hut
    rcases List.getElem?_eq_some_iff.mp hu with ⟨hlt, rfl⟩
    have hne : b.sheets[i].title ≠ title := by simpa using hfirst i hi
    exact hne hut
  · rintro ⟨place, hs, htitle, hfirst⟩
    rcases List.getElem?_eq_some_iff.mp hs with ⟨hplace, rfl⟩
    refine ⟨decide_eq_true htitle, place, hplace, rfl, ?_⟩
    intro i hi
    have hlt : i < b.sheets.length := Nat.lt_trans hi hplace
    have hne := hfirst i hi _ (List.getElem?_eq_getElem hlt)
    simpa using hne

theorem Stands.titled?_eq (h : b.Stands title place s) : b.titled? title = some s :=
  titled?_eq_some_iff.mpr ⟨place, h⟩

theorem titled?_eq_none_iff : b.titled? title = none ↔ title ∉ b.titles := by
  rw [← exists_stands_iff]
  cases h : b.titled? title with
  | none =>
    refine ⟨fun _ => ?_, fun _ => rfl⟩
    rintro ⟨place, s, hs⟩
    rw [hs.titled?_eq] at h
    cases h
  | some s =>
    rcases titled?_eq_some_iff.mp h with ⟨place, hs⟩
    refine ⟨fun h => (by cases h), fun hnot => ?_⟩
    exact absurd ⟨place, s, hs⟩ hnot

/-! ## Replacing a sheet -/

theorem sheets_putSheet (b : Workbook) (place : Nat) (s : Sheet) :
    (b.putSheet place s).sheets = b.sheets.set place s := rfl

theorem putSheet_getElem?_of_ne (h : place ≠ place') :
    (b.putSheet place s).sheets[place']? = b.sheets[place']? := by
  rw [sheets_putSheet, List.getElem?_set_ne h]

theorem putSheet_getElem?_self (h : place < b.sheets.length) :
    (b.putSheet place s).sheets[place]? = some s := by
  rw [sheets_putSheet, List.getElem?_set_self h]

theorem putSheet_of_le (h : b.sheets.length ≤ place) : b.putSheet place s = b := by
  rw [putSheet, List.set_eq_of_length_le h]

theorem titles_putSheet (ht : Sheet.SameTitle (b.sheet place) t) :
    (b.putSheet place t).titles = b.titles := by
  refine List.ext_getElem? fun i => ?_
  rw [titles, titles, List.getElem?_map, List.getElem?_map]
  -- the title list differs in this place at most, and there the titles are the same
  by_cases hi : place = i
  · subst hi
    rcases Nat.lt_or_ge place b.sheets.length with hlt | hge
    · rw [putSheet_getElem?_self hlt, getElem?_sheet hlt, Option.map_some, Option.map_some, ht]
    · rw [putSheet_of_le hge]
  · rw [putSheet_getElem?_of_ne hi]

/-- A sheet is not moved by what is done to another one that keeps its title. -/
theorem Stands.putSheet_other (h : b.Stands title place s) (hne : place' ≠ place)
    (ht : Sheet.SameTitle (b.sheet place') t) : (b.putSheet place' t).Stands title place s := by
  refine ⟨by rw [putSheet_getElem?_of_ne hne, h.sheet_eq], h.title_eq, ?_⟩
  intro i hi u hu
  -- the sheet that was replaced may stand before this one, but still has another title
  by_cases hip : place' = i
  · subst hip
    have hlt : place' < b.sheets.length := Nat.lt_trans hi (lt_length_of_getElem? h.sheet_eq)
    rw [putSheet_getElem?_self hlt, Option.some.injEq] at hu
    rw [← hu, ht]
    exact h.first place' hi _ (getElem?_sheet hlt)
  · rw [putSheet_getElem?_of_ne hip] at hu
    exact h.first i hi u hu

/-- A sheet is not moved by anything done to a sheet behind it. -/
theorem Stands.putSheet_behind (h : b.Stands title place s) (hlt : place < place') :
    (b.putSheet place' t).Stands title place s := by
  refine ⟨by rw [putSheet_getElem?_of_ne (Nat.ne_of_gt hlt), h.sheet_eq], h.title_eq, ?_⟩
  intro i hi u hu
  rw [putSheet_getElem?_of_ne (by omega)] at hu
  exact h.first i hi u hu

theorem Stands.putSheet_self (h : b.Stands title place s) (ht : t.title = title) :
    (b.putSheet place t).Stands title place t := by
  refine ⟨putSheet_getElem?_self (lt_length_of_getElem? h.sheet_eq), ht, ?_⟩
  intro i hi u hu
  rw [putSheet_getElem?_of_ne (by omega)] at hu
  exact h.first i hi u hu

/-! ## Adding and removing sheets -/

theorem Stands.append (h : b.Stands title place s) (more : List Sheet) :
    (⟨b.sheets ++ more⟩ : Workbook).Stands title place s := by
  have hlt := lt_length_of_getElem? h.sheet_eq
  refine ⟨?_, h.title_eq, ?_⟩
  · rw [List.getElem?_append_left hlt, h.sheet_eq]
  · intro i hi u hu
    rw [List.getElem?_append_left (Nat.lt_trans hi hlt)] at hu
    exact h.first i hi u hu

theorem without_of_not_mem (h : title ∉ b.titles) : b.without title = b := by
  rw [without, List.eraseP_of_forall_not]
  intro s hs hst
  exact h (mem_titles.mpr ⟨s, hs, of_decide_eq_true hst⟩)

theorem Stands.without_eq (h : b.Stands title place s) :
    b.without title = ⟨b.sheets.eraseIdx place⟩ := by
  have hfind : b.sheets.findIdx? (fun s => s.title = title) = some place := h.find?_eq
  rw [without, List.eraseP_eq_eraseIdx, hfind]

/-- Removing the first sheet of another title leaves the first sheet of this one. -/
theorem Stands.without (h : b.Stands title place s) (hne : other ≠ title) :
    ∃ place', (b.without other).Stands title place' s := by
  by_cases hmem : other ∈ b.titles
  · rcases exists_stands_iff.mpr hmem with ⟨gone, u, hu⟩
    have hplace : gone ≠ place := hu.place_ne h hne
    rw [hu.without_eq]
    -- a sheet behind the removed one moves up by one place
    rcases Nat.lt_or_gt_of_ne hplace with hlt | hgt
    · obtain ⟨place, rfl⟩ : ∃ i, place = i + 1 := ⟨place - 1, by omega⟩
      refine ⟨place, ?_, h.title_eq, ?_⟩
      · rw [List.getElem?_eraseIdx_of_ge (by omega), h.sheet_eq]
      · intro i hi v hv
        rw [List.getElem?_eraseIdx] at hv
        split at hv
        · exact h.first i (by omega) v hv
        · exact h.first (i + 1) (by omega) v hv
    · refine ⟨place, ?_, h.title_eq, ?_⟩
      · rw [List.getElem?_eraseIdx_of_lt hgt, h.sheet_eq]
      · intro i hi v hv
        rw [List.getElem?_eraseIdx_of_lt (by omega)] at hv
        exact h.first i hi v hv
  · rw [without_of_not_mem hmem]
    exact ⟨place, h⟩

theorem titled?_without_of_ne (hne : other ≠ title) :
    (b.without other).titled? title = b.titled? title := by
  -- removal stops at the first match, so the induction has to be on the whole list
  have h (l : List Sheet) : (l.eraseP (·.title = other)).find? (·.title = title) =
      l.find? (·.title = title) := by
    induction l with
    | nil => rfl
    | cons s l ih =>
      by_cases hs : s.title = other
      · simp [hs, hne]
      · simp only [List.eraseP_cons, hs, decide_false, Bool.cond_false, List.find?_cons, ih]
  exact h b.sheets

theorem mem_titles_without (hne : other ≠ title) :
    title ∈ (b.without other).titles ↔ title ∈ b.titles := by
  have h : (b.without other).titled? title = none ↔ b.titled? title = none := by
    rw [titled?_without_of_ne hne]
  rw [titled?_eq_none_iff, titled?_eq_none_iff] at h
  exact not_iff_not.mp h

/-- Removing a title that a sheet had before one more sheet was added leaves a sheet with it. -/
theorem mem_titles_without_append (h : title ∈ b.titles) (copy : Sheet) :
    title ∈ ((⟨b.sheets ++ [copy]⟩ : Workbook).without copy.title).titles := by
  -- if the titles are equal, the sheet that was there first goes and the new one stays
  by_cases hne : copy.title = title
  · rcases mem_titles.mp h with ⟨s, hs, hst⟩
    refine mem_titles.mpr ⟨copy, ?_, hne⟩
    rw [without, List.eraseP_append_left (a := s) (by simpa [hne] using hst) _ hs]
    exact List.mem_append_right _ (List.mem_singleton_self copy)
  · rw [mem_titles_without hne]
    rcases mem_titles.mp h with ⟨s, hs, hst⟩
    exact mem_titles.mpr ⟨s, List.mem_append_left _ hs, hst⟩

/-- A sheet at the end is found if no other sheet has its title. -/
theorem find?_append_eq_length_iff {copy : Sheet} :
    (⟨b.sheets ++ [copy]⟩ : Workbook).find? title = some b.sheets.length ↔
      title ∉ b.titles ∧ copy.title = title := by
  rw [find?_eq_some_iff]
  constructor
  · rintro ⟨s, hs⟩
    have hcopy : s = copy := by
      have hlast := hs.sheet_eq
      rw [List.getElem?_concat_length] at hlast
      exact (Option.some.inj hlast).symm
    refine ⟨fun hmem => ?_, hcopy ▸ hs.title_eq⟩
    -- a sheet that had the title before would be found first
    rcases exists_stands_iff.mpr hmem with ⟨place, u, hu⟩
    have hlt := lt_length_of_getElem? hu.sheet_eq
    refine hs.first place hlt u ?_ hu.title_eq
    rw [List.getElem?_append_left hlt, hu.sheet_eq]
  · rintro ⟨hnot, htitle⟩
    refine ⟨copy, List.getElem?_concat_length, htitle, ?_⟩
    intro i hi u hu hut
    rw [List.getElem?_append_left hi] at hu
    exact hnot (mem_titles.mpr ⟨u, List.mem_of_getElem? hu, hut⟩)

/-! ## Running the operations on the list of sheets -/

theorem run_delete (b : Workbook) (title : String) :
    (delete title).run b =
      if title ∈ b.titles then .ok () (b.without title) else .error (.noSheet title) b := by
  by_cases h : title ∈ b.titles
  · rcases exists_stands_iff.mpr h with ⟨place, s, hs⟩
    rw [if_pos h, hs.without_eq, delete, require]
    simp only [EStateM.run_bind, EStateM.run_get, hs.find?_eq]
    rfl
  · rw [if_neg h, delete, require]
    simp only [EStateM.run_bind, EStateM.run_get, find?_eq_none_iff.mpr h]
    rfl

/-- The title that a copy of a sheet gets, unless there is a fault. -/
def copyTitle (b : Workbook) (title : String) : String :=
  Title.numbered b.titles (title ++ " Copy")

/-- Why no copy of a sheet can be added, if so. -/
def copyFault? (b : Workbook) (title : String) : Option Title.Fault :=
  (Title.fault? (title ++ " Copy")).or (Title.numberFault? b.titles (title ++ " Copy"))

/-- The sheet that a copy begins as. -/
def copySheet (b : Workbook) (title : String) (s : Sheet) : Sheet :=
  { copyOf s with title := b.copyTitle title }

/-- The workbook in which the sheet in a place is framed. -/
def framed (b : Workbook) (place : Nat) : Workbook := b.putSheet place (b.sheet place).frame

/-- The copy has a longer title, with a number or without. -/
theorem length_lt_copyTitle (b : Workbook) (title : String) :
    title.length < (b.copyTitle title).length := by
  rcases Title.exists_numbered_eq b.titles (title ++ " Copy") with ⟨number, hnumber⟩
  have hcopy : " Copy".length = 5 := by decide
  rw [copyTitle, hnumber, String.length_append, String.length_append]
  omega

theorem copyTitle_ne (b : Workbook) (title : String) : b.copyTitle title ≠ title := by
  intro h
  have hlength := b.length_lt_copyTitle title
  rw [h] at hlength
  exact Nat.lt_irrefl _ hlength

theorem Stands.framed (h : b.Stands title place s) :
    (b.framed place).Stands title place s.frame := by
  rw [Workbook.framed, h.sheet]
  refine h.putSheet_self ?_
  rw [(Sheet.reframed_frame s).title_eq, h.title_eq]

theorem run_duplicate_of_not_mem (h : title ∉ b.titles) :
    (duplicate title).run b = .error (.noSheet title) b := by
  rw [duplicate, require]
  simp only [EStateM.run_bind, EStateM.run_get, find?_eq_none_iff.mpr h]
  rfl

theorem append_ne_empty (title : String) : (title ++ " Copy").isEmpty = false := by
  rw [String.isEmpty_eq_false_iff]
  intro h
  have hlength := congrArg String.length h
  rw [String.length_append] at hlength
  simp at hlength

theorem copyFault?_eq_none_iff : b.copyFault? title = none ↔
    Title.fault? (title ++ " Copy") = none ∧ ¬Title.Exhausted b.titles (title ++ " Copy") := by
  rw [copyFault?, Option.or_eq_none_iff, Title.numberFault?_eq_none_iff]

theorem newTitle_copy (b : Workbook) (title : String) :
    b.newTitle (title ++ " Copy") = match b.copyFault? title with
      | some fault => .error fault
      | none => .ok (b.copyTitle title) := by
  simp only [newTitle, append_ne_empty, Bool.false_eq_true, if_false, copyFault?, copyTitle,
    Title.unused_eq]
  cases Title.fault? (title ++ " Copy") with
  | some fault => rfl
  | none => rfl

theorem run_duplicate (h : b.Stands title place s) :
    (duplicate title).run b = match b.copyFault? title with
      | some fault => .error (.creationRefused fault) b
      | none => .ok b.sheets.length
          ⟨(b.framed place).sheets ++ [b.copySheet title s]⟩ := by
  have hlt := lt_length_of_getElem? h.sheet_eq
  rw [duplicate, require]
  simp only [EStateM.run_bind, EStateM.run_get, h.find?_eq, EStateM.run_pure, add, h.sheet,
    h.title_eq, newTitle_copy]
  cases b.copyFault? title with
  | some fault => rfl
  | none =>
    change EStateM.Result.ok _ _ = EStateM.Result.ok _ _
    congr 1
    -- the copy goes last, so framing the template and adding the copy may be swapped
    rw [framed, h.sheet, sheets_putSheet, ← List.set_append_left _ _ hlt]
    rfl

/-- The title that a sheet gets in place of its own when it is to have another one, unless there is
a fault. -/
def givenTitle (titles : List String) (own wanted : String) : String :=
  if wanted = own then wanted else Title.numbered titles wanted

/-- Why a sheet cannot be given a title in place of its own, if so. -/
def titleFault? (titles : List String) (own wanted : String) : Option Title.Fault :=
  (Title.fault? wanted).or (if wanted = own then none else Title.numberFault? titles wanted)

theorem titleFault?_eq_none_iff {titles : List String} {own wanted : String} :
    titleFault? titles own wanted = none ↔
      Title.fault? wanted = none ∧ (wanted ≠ own → ¬Title.Exhausted titles wanted) := by
  rw [titleFault?, Option.or_eq_none_iff]
  by_cases h : wanted = own
  · rw [if_pos h]
    exact and_congr_right fun _ => iff_of_true rfl fun hne => absurd h hne
  · rw [if_neg h, Title.numberFault?_eq_none_iff]
    exact and_congr_right fun _ => ⟨fun hnot _ => hnot, fun hnot => hnot h⟩

theorem retitle_eq (b : Workbook) (own wanted : String) :
    b.retitle own wanted = match titleFault? b.titles own wanted with
      | some fault => .error fault
      | none => .ok (givenTitle b.titles own wanted) := by
  rw [retitle, titleFault?, givenTitle]
  cases Title.fault? wanted with
  | some fault => rfl
  | none =>
    rw [Option.none_or]
    by_cases h : wanted = own
    · rw [if_pos h, if_pos h, if_pos h]
    · rw [if_neg h, if_neg h, if_neg h]
      exact Title.unused_eq b.titles wanted

/-- Why a sheet cannot be renamed, if so. -/
def renamingFault? (b : Workbook) (place : Nat) (title : String) : Option Document.Fault :=
  if title ≠ (b.sheet place).title ∧ title ∈ b.titles then some (.titleTaken title)
  else (titleFault? b.titles (b.sheet place).title title).map fun fault =>
    .titleRefused title (.unfit fault)

theorem run_rename (b : Workbook) (place : Nat) (title : String) :
    (rename place title).run b = match b.renamingFault? place title with
      | some fault => .error fault b
      | none =>
        .ok () (b.putSheet place
          { b.sheet place with title := givenTitle b.titles (b.sheet place).title title }) := by
  rw [rename]
  simp only [EStateM.run_bind, EStateM.run_get, renamingFault?, List.contains_eq_mem,
    Bool.and_eq_true, decide_eq_true_eq]
  by_cases h : title ≠ (b.sheet place).title ∧ title ∈ b.titles
  · rw [if_pos h, if_pos h]
    rfl
  · rw [if_neg h, if_neg h, retitle_eq]
    cases titleFault? b.titles (b.sheet place).title title <;> rfl

end Sheetwright.Workbook
