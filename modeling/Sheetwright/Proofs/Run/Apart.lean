import Sheetwright.Proofs.Run.Abreast
import Sheetwright.Proofs.Run.ReadOnly
import Sheetwright.Proofs.Workbook.Numbering
/-!
# Sheets apart from each other

A tab makes its sheet out of the template alone, whatever sheets there are, and leaves the sheets of
other titles as they are. So does a block whose target is another one. Hence a sheet changes by the
blocks of its own section only: `titled?_step_apart`.
-/

namespace Sheetwright

open Grid Operation

/-! ## The copy of a template -/

namespace Workbook

variable {b b' : Workbook} {title name : String} {place : Nat} {s s' t copy : Sheet}

theorem titled?_copied_of_ne (hs : b.Stands name place s) (hne : name ≠ title)
    (h : b.titled? title = some t) : (b.copied place copy).titled? title = some t := by
  rcases titled?_eq_some_iff.mp h with ⟨other, ht⟩
  have hframed : (b.framed place).Stands title other t := by
    refine ht.putSheet_other (hs.place_ne ht hne) ?_
    exact (Sheet.reframed_frame _).title_eq
  exact (hframed.append [copy]).titled?_eq

theorem titled?_copied_self (h : copy.title ∉ b.titles) :
    (b.copied place copy).titled? copy.title = some copy := by
  have hnone : (b.framed place).titled? copy.title = none := by
    rw [titled?_eq_none_iff, titles_framed]
    exact h
  -- the search passes over all sheets before the copy
  rw [titled?] at hnone
  rw [titled?, copied, List.find?_append, hnone]
  simp

theorem cell_copyOf (s : Sheet) (p : Position) : (copyOf s).cell p = (s.cell p).uncovered := by
  simp only [Sheet.cell, copyOf, Std.ExtTreeMap.getD_eq_getD_getElem?, Std.ExtTreeMap.getElem?_map]
  cases s.cells[p]? with
  | some c => rfl
  | none => rfl

theorem maxRow_copyOf (s : Sheet) : (copyOf s).maxRow = s.maxRow := by
  refine Nat.le_antisymm (Sheet.maxRow_mono fun p hp => ?_) (Sheet.maxRow_mono fun p hp => ?_)
  · exact Std.ExtTreeMap.mem_map.mp hp
  · exact Std.ExtTreeMap.mem_map.mpr hp

/-- Copies of sheets with the same content have the same content, under whatever titles. -/
theorem sameContent_tabSheet (b b' : Workbook) (title name : String) (h : s.SameContent s') :
    (b.tabSheet title name s).SameContent (b'.tabSheet title name s') where
  like p := by
    -- the cells of a copy are uncovered, whatever they were
    have huncovered (c : Cell) : c.uncovered.value = c.value ∧ c.uncovered.isCovered = false := by
      rcases c with ⟨_ | _, _⟩
      · exact ⟨rfl, rfl⟩
      · exact ⟨rfl, rfl⟩
    change ((copyOf s).cell p).Like ((copyOf s').cell p)
    rw [cell_copyOf, cell_copyOf]
    refine ⟨?_, ?_⟩
    · rw [(huncovered _).1, (huncovered _).1, (h.like p).value_eq]
    · rw [(huncovered _).2, (huncovered _).2]
  merged_eq := h.merged_eq

end Workbook

namespace Run

open Workbook

variable {ρ : Type} {layout : Layout} {commit : Session.Action ρ Unit} {name title : String}
  {t u : Sheet}

/-! ## Tabs -/

/-- A tab leaves the sheets of other titles as they are, apart from the template. -/
theorem TabRun.titled?_other {b b' : Workbook} {r : Except Failure Unit}
    (h : TabRun layout name b r b') (hne : name ≠ title) (htemplate : layout.templateSheet ≠ title)
    (hdistinct : Distinct layout.templateSheet title) (ht : b.titled? title = some t) :
    b'.titled? title = some t := by
  have hbefore : (b.without name).titled? title = some t := by
    rw [titled?_without_of_ne hne, ht]
  cases h with
  | overwrites => exact ht
  | missing => exact hbefore
  | uncopied => exact hbefore
  | refused _ hs =>
    have hmem : title ∈ (b.without name).titles := by
      rcases titled?_eq_some_iff.mp hbefore with ⟨place, hplace⟩
      exact hplace.mem_titles
    -- the copy is taken back by its provisional title, which is not that of the sheet
    rw [titled?_without_of_ne (hdistinct.copyTitle_ne hmem)]
    exact titled?_copied_of_ne hs htemplate hbefore
  | uncleared _ hs => exact titled?_copied_of_ne hs htemplate hbefore
  | made _ hs => exact titled?_copied_of_ne hs htemplate hbefore

/-- A tab that leads to a sheet of its title has made that sheet out of the template. -/
theorem TabRun.titled?_self {b b' : Workbook} (h : TabRun layout name b (.ok ()) b')
    (hdistinct : Distinct layout.templateSheet name) (hmem : name ∈ b'.titles) :
    ∃ t u, b.titled? layout.templateSheet = some t ∧
      (Sheet.clearFrom layout.dataStartRow).run
        ((b.without name).tabSheet layout.templateSheet name t) = .ok () u ∧
      b'.titled? name = some u := by
  cases h with
  | @made place t u hne hs hcopy htitle hrun =>
    have hut : u.title = (b.without name).tabTitle layout.templateSheet name :=
      title_of_clearFrom (r := .ok ()) hrun
    -- a sheet of that title is left by none of the sheets that were there before
    have hfresh : name ∉ (b.without name).titles := fun hold =>
      hdistinct.copyTitle_ne hold ((tabFault?_eq_none_iff.mp htitle).1 hold).symm
    rw [titles_copied, List.mem_append, List.mem_singleton] at hmem
    obtain rfl : name = u.title := hmem.resolve_left hfresh
    refine ⟨t, u, ?_, hrun, titled?_copied_self hfresh⟩
    rw [← titled?_without_of_ne hne]
    exact hs.titled?_eq

/-! ## Commits that do no harm -/

/-- Committing never fails and leaves every sheet as it is found under its title. -/
def Faithful (commit : Session.Action ρ Unit) : Prop :=
  ∀ s, outcome commit s = .ok () ∧ ∀ title t, s.workbook.titled? title = some t →
    (after commit s).workbook.titled? title = some t

theorem Faithful.kept {P : Sheet → Prop} (h : Faithful commit) {s : Session ρ}
    (hs : s.workbook.Kept P title) : (after commit s).workbook.Kept P title := by
  rcases kept_iff.mp hs with ⟨t, ht, hP⟩
  exact kept_iff.mpr ⟨t, (h s).2 title t ht, hP⟩

theorem Faithful.committed_eq (h : Faithful commit) (result : Outcome) (s : Session ρ) :
    committed (Session.document commit) result s = .ok result :=
  (committed_eq_ok_iff _).mpr ⟨(h s).1, rfl⟩

/-- A template that has grown goes on growing only. -/
theorem robust_grown (h : Faithful commit) (t : Sheet) :
    Robust layout commit (t.Grown layout.dataStartRow layout.tagColumn) where
  widened _ _ hv hw := hv.widened hw fun _ hp => hv.inReach_of_searchArea hp
  commit _ hs := h.kept hs

theorem robust_copied (h : Faithful commit) (t : Sheet) :
    Robust layout commit (Copied layout t) where
  widened _ _ hv hw := ⟨hv.1.widened hw fun _ hp => hv.1.inReach_of_searchArea hp, hv.2.widened hw⟩
  commit _ hs := h.kept hs

theorem Copied.frame {v : Sheet} (h : Copied layout t v) (ht : t.Anchored layout.dataStartRow) :
    Copied layout t v.frame :=
  ⟨h.1.frame ht, v.seated_frame⟩

/-! ## Steps -/

/-- The code neither tries to make the sheet of a title nor places a block in it. -/
structure Aside (layout : Layout) (title : String) (target : Option String) (index : Nat)
    (c : Code) : Prop where
  tab : IsTab c → tabName layout index c ≠ title
  block : IsBlock c → target ≠ some title

/-- Such a code leaves the sheet as it is. -/
theorem titled?_step_apart (hcommit : Faithful commit) (htemplate : layout.templateSheet ≠ title)
    (hdistinct : Distinct layout.templateSheet title) {p : Progress} {index : Nat} {c : Code}
    (hc : Aside layout title p.target index c) {s : Session ρ}
    (h : s.workbook.titled? title = some u) :
    (step (Session.document commit) layout p index c s).2.workbook.titled? title = some u := by
  refine step_snd_of (P := fun s : Session ρ => s.workbook.titled? title = some u) _ _ h
    (fun htab => ?_) (fun target hblock hp => ?_) fun s => (hcommit s).2 title u
  · have hrun := (tabRun_makeTab layout commit (tabName layout index c) s).1
    exact hrun.titled?_other (hc.tab htab) htemplate hdistinct h
  -- the block goes to another sheet
  · have hne : title ≠ target := by
      rintro rfl
      exact hc.block hblock hp
    exact titled?_placeBlock commit c htemplate.symm hne h

/-- A template that was copied and a target that a code leaves aside. -/
theorem Ready.step (hcommit : Faithful commit) (ht : t.Anchored layout.dataStartRow)
    (htemplate : layout.templateSheet ≠ title)
    (hdistinct : Distinct layout.templateSheet title) {p : Progress} {index : Nat} {c : Code}
    (hc : Aside layout title p.target index c) (hp : p.target ≠ some layout.templateSheet)
    {s : Session ρ} (h : Ready layout t title u s.workbook) :
    Ready layout t title u (step (Session.document commit) layout p index c s).2.workbook where
  template := by
    have hkept := (robust_copied hcommit t).kept_stepAll p index [c]
      (fun _ _ _ _ _ hv => hv.frame ht) hp h.template
    exact hkept.2
  target := titled?_step_apart hcommit htemplate hdistinct hc h.target

end Run

end Sheetwright
