import Mathlib.Data.List.Nodup
import Sheetwright.Proofs.Grid.Clearing
import Sheetwright.Workbook
/-!
# Sheets that can be cleared

Taking a merged range apart removes the cells it covers, and stops at the first of them that is not
there. A sheet is separable if no two of its merged ranges cover the same cell and all covered cells
are allocated: then every range can be taken apart, in any order, so clearing rows never stops
(`Separable.clearFrom`). Searching, framing and copying keep a sheet separable.
-/

namespace Sheetwright.Grid

/-! ## Covered cells -/

theorem Range.nodup_positions (r : Range) : r.positions.Nodup := by
  have hspan (first last : Nat) : (Range.span first last).Nodup := List.nodup_range'
  rw [Range.positions, List.nodup_flatMap]
  constructor
  · intro row _
    exact (hspan _ _).map fun _ _ h => congrArg Position.column h
  -- cells of different rows are different
  · refine (hspan _ _).imp fun hne => ?_
    intro p hp hp'
    rcases List.mem_map.mp hp with ⟨_, -, rfl⟩
    rcases List.mem_map.mp hp' with ⟨_, -, h⟩
    exact hne (congrArg Position.row h).symm

theorem Range.nodup_rest (r : Range) : r.rest.Nodup :=
  r.nodup_positions.sublist (List.drop_sublist 1 _)

namespace Sheet

variable {s t : Sheet} {r : Range} {ranges : List Range}

/-- The ranges cover different cells, and all of these are allocated. -/
structure Detachable (s : Sheet) (ranges : List Range) : Prop where
  present : ∀ r ∈ ranges, ∀ p ∈ r.rest, p ∈ s.cells
  apart : ranges.Pairwise fun r r' => ∀ p ∈ r.rest, p ∉ r'.rest

instance (s : Sheet) (ranges : List Range) : Decidable (s.Detachable ranges) :=
  decidable_of_iff ((∀ r ∈ ranges, ∀ p ∈ r.rest, p ∈ s.cells) ∧
      ranges.Pairwise fun r r' => ∀ p ∈ r.rest, p ∉ r'.rest)
    ⟨fun h => ⟨h.1, h.2⟩, fun h => ⟨h.present, h.apart⟩⟩

/-- The merged ranges of the sheet can be taken apart. -/
def Separable (s : Sheet) : Prop := s.Detachable s.merged

instance (s : Sheet) : Decidable s.Separable := inferInstanceAs (Decidable (s.Detachable s.merged))

theorem Detachable.sublist {ranges' : List Range} (h : s.Detachable ranges)
    (hsub : ranges'.Sublist ranges) : s.Detachable ranges' where
  present r hr := h.present r (hsub.subset hr)
  apart := h.apart.sublist hsub

/-- Removing the cells that one range covers removes none of those that the others cover. -/
theorem Detachable.tail (h : s.Detachable (r :: ranges))
    (hmem : ∀ p ∈ s.cells, p ∉ r.rest → p ∈ t.cells) : t.Detachable ranges where
  present r' hr' p hp := by
    refine hmem p (h.present r' (List.mem_cons_of_mem r hr') p hp) fun hpr => ?_
    exact (List.pairwise_cons.mp h.apart).1 r' hr' p hpr hp
  apart := (List.pairwise_cons.mp h.apart).2

/-! ## Taking ranges apart -/

/-- Removing different cells that are all there leaves the other ones. -/
theorem exists_removeCells {positions : List Position} (hnodup : positions.Nodup)
    (h : ∀ p ∈ positions, p ∈ s.cells) :
    ∃ t, (removeCells positions).run s = .ok () t ∧
      ∀ p ∈ s.cells, p ∉ positions → p ∈ t.cells := by
  induction positions generalizing s with
  | nil => exact ⟨s, rfl, fun p hp _ => hp⟩
  | cons p rest ih =>
    rw [List.nodup_cons] at hnodup
    have hp : s.cells.contains p = true := h p List.mem_cons_self
    have herase {q : Position} (hne : p ≠ q) (hq : q ∈ s.cells) : q ∈ s.cells.erase p :=
      Std.ExtTreeMap.mem_erase.mpr ⟨fun hsame => hne (Position.compare_eq_iff.mp hsame), hq⟩
    rcases ih (s := { s with cells := s.cells.erase p }) hnodup.2 fun q hq => herase
      (fun hsame => hnodup.1 (hsame ▸ hq)) (h q (List.mem_cons_of_mem p hq)) with ⟨t, hrun, hmem⟩
    refine ⟨t, ?_, fun q hq hnot => ?_⟩
    · rw [removeCells, EStateM.run_bind, EStateM.run_get]
      dsimp only
      rw [if_pos hp]
      exact hrun
    · rw [List.mem_cons, not_or] at hnot
      exact hmem q (herase (Ne.symm hnot.1) hq) hnot.2

theorem exists_unmerge (h : ∀ p ∈ r.rest, p ∈ s.cells) :
    ∃ t, (unmerge r).run s = .ok () t ∧ ∀ p ∈ s.cells, p ∉ r.rest → p ∈ t.cells :=
  exists_removeCells (s := { s with merged := s.merged.erase r }) r.nodup_rest h

theorem Detachable.exists_unmergeAll (h : s.Detachable ranges) :
    ∃ t, (unmergeAll ranges).run s = .ok () t := by
  induction ranges generalizing s with
  | nil => exact ⟨s, rfl⟩
  | cons r ranges ih =>
    rcases exists_unmerge (h.present r List.mem_cons_self) with ⟨u, hrun, hmem⟩
    rcases ih (h.tail hmem) with ⟨t, hrest⟩
    refine ⟨t, ?_⟩
    rw [unmergeAll, EStateM.run_bind, hrun]
    exact hrest

/-! ## Clearing -/

/-- A separable sheet can be cleared from any row on. -/
theorem Separable.clearFrom (h : s.Separable) (first : Nat) :
    ∃ t, (clearFrom first).run s = .ok () t := by
  rw [Sheet.clearFrom, EStateM.run_bind, EStateM.run_get]
  dsimp only
  split
  next hfirst =>
    have hrows : (first : Int) ≤ (s.maxRow : Int) := Int.ofNat_le.mpr hfirst
    -- only the ranges that reach into the cleared rows are taken apart
    have htouched : s.Detachable (s.touched first s.maxRow) :=
      Detachable.sublist h List.filter_sublist
    rcases htouched.exists_unmergeAll with ⟨u, hunmerge⟩
    rcases u.exists_deleteRows (by omega) hrows with ⟨v, hdelete, -⟩
    rw [run_clearRows hrows, EStateM.run_bind, hunmerge]
    dsimp only
    rw [EStateM.run_bind, hdelete]
    exact ⟨_, rfl⟩
  next => exact ⟨s, rfl⟩

/-! ## What keeps a sheet separable -/

/-- Allocating more cells and changing what they hold does. -/
theorem Separable.of_mem (h : s.Separable) (hmem : ∀ p ∈ s.cells, p ∈ t.cells)
    (hmerged : t.merged = s.merged) : t.Separable := by
  rw [Separable, hmerged]
  exact ⟨fun r hr p hp => hmem p (h.present r hr p hp), h.apart⟩

theorem Separable.widened {area : Position → Prop} (h : s.Separable) (hw : Widened area s t) :
    t.Separable :=
  h.of_mem hw.mem hw.merged_eq

theorem Separable.frame (h : s.Separable) : s.frame.Separable :=
  h.of_mem (fun _ hp => mem_frame.mpr (Or.inr hp)) s.reframed_frame.merged_eq

theorem Separable.copyOf (h : s.Separable) : (Workbook.copyOf s).Separable :=
  h.of_mem (fun _ hp => Std.ExtTreeMap.mem_map.mpr hp) rfl

end Sheet

end Sheetwright.Grid
