import Sheetwright.Command
import Sheetwright.Proofs.Grid.Consistent
import Sheetwright.Proofs.Run.Apart
/-!
# Fresh tabs

A tab that was just made holds the head of the template and nothing else: the rows below the head
are empty and without a look, no merged range reaches into them, and the last used row is the last
one of the head (`fresh_tab`). This holds wherever the head ends and however ranges reach over its
end, as long as the ranges of the template are as merging leaves them.
-/

namespace Sheetwright

open Grid Operation

namespace Workbook

theorem value_copyOf (s : Sheet) (p : Position) : (copyOf s).value p = s.value p := by
  rw [Sheet.value, Sheet.value, cell_copyOf]
  rcases s.cell p with ⟨_ | _, _⟩ <;> rfl

/-- The copy of a sheet under its title has the ranges of that sheet, as well merged. -/
theorem wellMerged_tabSheet (b : Workbook) (template name : String) {t : Sheet}
    (h : t.WellMerged) : (b.tabSheet template name t).WellMerged :=
  h.of_mem (value_copyOf t) rfl fun _ hp => Std.ExtTreeMap.mem_map.mpr hp

end Workbook

namespace Run

open Workbook

variable {ρ : Type} {layout : Layout} {name : String} {b b' : Workbook} {t : Sheet}

/-- A tab that is made is added as the last sheet and holds the head of the template. -/
theorem TabRun.heads (h : TabRun layout name b (.ok ()) b')
    (ht : b.titled? layout.templateSheet = some t) (hmerged : t.WellMerged) :
    ∃ place u, b' = (b.without name).copied place u ∧ t.Heads layout.dataStartRow u := by
  cases h with
  | @made place t' u hne hs _ _ hrun =>
    -- the template is not the sheet that was removed before
    have hfound : (b.without name).titled? layout.templateSheet = some t := by
      rw [titled?_without_of_ne hne, ht]
    obtain rfl : t' = t := Option.some.inj (hs.titled?_eq.symm.trans hfound)
    have hheads := (wellMerged_tabSheet (b.without name) layout.templateSheet name
      hmerged).heads_of_clearFrom hrun
    refine ⟨place, u, rfl, fun p hp => ?_, hheads.blank, hheads.merged_eq⟩
    exact (hheads.value_eq p hp).trans (value_copyOf t' p)

/-- A tab that is made holds the values of the template above the row at which its blocks begin, and
nothing from that row on: no value, no look and no merged range. Of the ranges of the template those
stay that lie above that row as a whole, and the last used row is the last one above it. -/
theorem fresh_tab (layout : Layout) (commit : Session.Action ρ Unit) (name : String)
    {s : Session ρ} {t : Sheet} (ht : s.workbook.titled? layout.templateSheet = some t)
    (hmerged : t.WellMerged)
    (hmade : outcome (makeTab (Session.document commit) layout name) s = .ok ()) :
    ∃ place u,
      (after (makeTab (Session.document commit) layout name) s).workbook =
        (s.workbook.without name).copied place u ∧
      (∀ p, p.row < layout.dataStartRow → u.value p = t.value p) ∧
      (∀ p, layout.dataStartRow ≤ p.row → u.cell p = {}) ∧
      u.merged = t.merged.filter (·.maxRow < layout.dataStartRow) ∧
      outcome Sheet.lastUsedRow u = .ok (t.head layout.dataStartRow).lastUsed := by
  have hrun := (tabRun_makeTab layout commit name s).1
  rw [hmade] at hrun
  rcases hrun.heads ht hmerged with ⟨place, u, hbook, hheads⟩
  refine ⟨place, u, hbook, hheads.value_eq, hheads.blank, hheads.merged_eq, ?_⟩
  rw [← hheads.lastUsed_eq]
  exact outcome_of_run (u.run_lastUsedRow)

/-- A template with a range in its head and one that reaches over the end of the head. -/
def straddling : Sheet :=
  let text (word : String) : Cell := ⟨.entry .text (.text word), {}⟩
  let s : Sheet := { title := "Codes" }
  let s := ((s.putCell ⟨1, 1⟩ (text "Title")).putCell ⟨8, 1⟩ (text "Note")).putCell ⟨10, 4⟩
    (text "BR")
  (s.merge (.reaching 1 1 1 2)).merge (.reaching 8 1 3 1)

/-- Of a range that reaches over the end of the head only the anchor is left in a tab. -/
theorem fresh_tab_straddling :
    let s : Session Files.Tree := ⟨⟨[straddling]⟩, {}⟩
    let make := makeTab (Session.document (Command.commit "")) {} "A"
    s.workbook.titled? "Codes" = some straddling ∧ straddling.WellMerged ∧
      outcome make s = .ok () ∧
      ∃ place u, (after make s).workbook = (s.workbook.without "A").copied place u ∧
        u.value ⟨8, 1⟩ = .text "Note" ∧ u.cell ⟨10, 4⟩ = {} ∧
        u.merged = [.reaching 1 1 1 2] ∧
        outcome Sheet.lastUsedRow u = .ok 8 := by
  intro s make
  have hmerged : straddling.WellMerged := by
    decide +kernel
  have hmade : outcome make s = .ok () := by
    decide +kernel
  refine ⟨rfl, hmerged, hmade, ?_⟩
  rcases fresh_tab {} (Command.commit "") "A" (s := s) rfl hmerged hmade with
    ⟨place, u, hbook, hvalue, hblank, hkept, hlast⟩
  refine ⟨place, u, hbook, ?_, hblank ⟨10, 4⟩ (by decide), hkept.trans ?_, hlast.trans ?_⟩
  · rw [hvalue ⟨8, 1⟩ (by decide)]
    decide +kernel
  · decide +kernel
  · decide +kernel

end Run

end Sheetwright
