import Mathlib.Data.List.Nodup
import Sheetwright.Proofs.Run.Tab
import Sheetwright.Proofs.Workbook.Numbering
/-!
# Titles that are given once

A sheet gets its title by numbering, which overlooks no number as long as the title holds no comma.
So titles without a comma are given to one sheet each (`Unrepeated`), and this stays so when sheets
are removed, when a copy is added under its title and when it is taken back.
-/

namespace Sheetwright

/-! ## Titles fit for a sheet -/

namespace Title

theorem fault?_eq_none_iff {title : String} :
    fault? title = none ↔ title ≠ "" ∧ ∀ c ∈ title.toList, c ∉ invalidCharacters := by
  rw [fault?]
  split
  next hempty =>
    refine iff_of_false nofun fun h => h.1 ?_
    simpa using hempty
  next hfilled =>
    have hne : title ≠ "" := by simpa using hfilled
    rw [Option.map_eq_none_iff, List.find?_eq_none]
    simp only [List.contains_eq_mem, decide_eq_true_eq]
    exact ⟨fun h => ⟨hne, h⟩, fun h => h.2⟩

/-- A copy of a sheet begins with a title that is fit for it. -/
theorem fault?_copy {title : String} (h : fault? title = none) :
    fault? (title ++ " Copy") = none := by
  have hsuffix : " Copy".toList.all (fun c => !invalidCharacters.contains c) = true := by
    decide
  refine fault?_eq_none_iff.mpr ⟨?_, fun c hc => ?_⟩
  · simp
  · rw [String.toList_append, List.mem_append] at hc
    rcases hc with hc | hc
    · exact (fault?_eq_none_iff.mp h).2 c hc
    · simpa using List.all_eq_true.mp hsuffix c hc

theorem comma_not_mem_of_numbered {titles : List String} {wanted : String}
    (h : ',' ∉ (numbered titles wanted).toList) : ',' ∉ wanted.toList := by
  rcases exists_numbered_eq titles wanted with ⟨number, hnumber⟩
  rw [hnumber, String.toList_append, List.mem_append, not_or] at h
  exact h.1

end Title

namespace Workbook

open Grid

variable {b : Workbook} {title name template : String} {copy : Sheet}

/-! ## Removing and adding -/

theorem titles_without (b : Workbook) (title : String) :
    (b.without title).titles = b.titles.erase title := by
  rw [titles, without, titles, List.erase_eq_eraseP', List.eraseP_map]
  rfl

/-- No title without a comma is given twice. -/
def Unrepeated (b : Workbook) : Prop :=
  ∀ title, ',' ∉ title.toList → b.titles.count title ≤ 1

instance (b : Workbook) : Decidable b.Unrepeated :=
  decidable_of_iff (∀ title ∈ b.titles, ',' ∉ title.toList → b.titles.count title ≤ 1)
    ⟨fun h title hcomma => by
      by_cases hmem : title ∈ b.titles
      · exact h title hmem hcomma
      · rw [List.count_eq_zero_of_not_mem hmem]
        exact Nat.zero_le 1,
    fun h title _ hcomma => h title hcomma⟩

theorem unrepeated_of_nodup (h : b.titles.Nodup) : b.Unrepeated :=
  fun _ _ => List.nodup_iff_count.mp h _

theorem Unrepeated.without (h : b.Unrepeated) (name : String) : (b.without name).Unrepeated := by
  intro title hcomma
  rw [titles_without]
  exact Nat.le_trans (List.erase_sublist.count_le title) (h title hcomma)

/-- Once a sheet is removed, no other one has its title. -/
theorem Unrepeated.not_mem_without (h : b.Unrepeated) (hcomma : ',' ∉ name.toList) :
    name ∉ (b.without name).titles := by
  have hcount := h name hcomma
  rw [titles_without, ← List.count_eq_zero, List.count_erase_self]
  omega

theorem Unrepeated.copied (h : b.Unrepeated) (place : Nat)
    (hnew : ',' ∉ copy.title.toList → copy.title ∉ b.titles) :
    (b.copied place copy).Unrepeated := by
  intro title hcomma
  rw [titles_copied, List.count_append]
  by_cases htitle : copy.title = title
  · subst htitle
    rw [List.count_eq_zero_of_not_mem (hnew hcomma), List.count_singleton_self]
  · rw [List.count_singleton, if_neg (by simpa using htitle)]
    exact h title hcomma

theorem Unrepeated.takenBack (h : b.Unrepeated) (place : Nat) (copy : Sheet) :
    ((b.copied place copy).without copy.title).Unrepeated := by
  intro title hcomma
  have hcount := h title hcomma
  -- one sheet of the title of the copy is removed, be it the copy or another one
  rw [titles_without, titles_copied, List.count_erase, List.count_append, List.count_singleton]
  omega

/-! ## The title of a tab -/

/-- A copy gets a title that no sheet has, unless there is a comma in it. -/
theorem tabTitle_not_mem (hname : name ≠ "") (hcomma : ',' ∉ (b.tabTitle template name).toList) :
    b.tabTitle template name ∉ b.titles := by
  rw [tabTitle, givenTitle] at hcomma ⊢
  split at hcomma
  next hsame =>
    -- the wanted title is the provisional one, which was new when it was given
    rw [if_pos hsame, hsame]
    rw [hsame, copyTitle] at hcomma
    refine copyTitle_not_mem (fun hmem => Title.comma_not_mem_of_numbered hcomma ?_) b
    rw [String.toList_append]
    exact List.mem_append_left _ hmem
  next hother =>
    rw [if_neg hother]
    intro hmem
    exact Title.numbered_not_mem hname (Title.comma_not_mem_of_numbered hcomma) _
      (List.mem_append_left _ hmem)

end Workbook

end Sheetwright
