import Sheetwright.Proofs.Entries
import Sheetwright.Proofs.Operation
import Sheetwright.Workbook.Storage
/-!
# Files that were written

A file that was written is found at its path. A path goes through directories, and a file is never
written in the place of one, so the path leads to the same place as before (`open?_write`). A
workbook that was stored is found likewise, whatever was there (`meets_store`).
-/

namespace Sheetwright

namespace Files.Tree

variable {t u : Tree} {p : Path} {node : Node} {place first goal names : List String}

/-! ## Places -/

theorem node?_put_self (h : t.node? place ≠ some .directory) :
    Tree.node? (t.put place node) place = some node := by
  -- the places that are always there are directories, so this is none of them
  have hknown : (place = root || isAbove place) = false := by
    rw [Bool.eq_false_iff]
    intro hfixed
    rw [node?, if_pos hfixed] at h
    exact h rfl
  rw [node?, hknown, if_neg Bool.false_ne_true, Entries.get?_put_self]

theorem node?_put_of_ne (h : goal ≠ place) :
    Tree.node? (t.put place node) goal = t.node? goal := by
  rw [node?, node?, Entries.get?_put_of_ne h]

/-- Names are followed through directories only, so nothing else that is put is on the way. -/
theorem follow_put (h : t.node? place ≠ some .directory)
    (hfollow : t.follow first names = .ok goal) :
    Tree.follow (t.put place node) first names = .ok goal := by
  -- along the names each place that is left behind is a directory, and stays what it is
  induction names generalizing first with
  | nil => exact hfollow
  | cons name names ih =>
    rw [follow] at hfollow ⊢
    split at hfollow
    next hdirectory =>
      have hne : first ≠ place := by
        rintro rfl
        exact h hdirectory
      rw [node?_put_of_ne hne, hdirectory]
      exact ih hfollow
    next => cases hfollow
    next => cases hfollow

theorem locate_eq_ok_iff : t.locate p = .ok goal ↔ t.follow (start p) p.parts = .ok goal := by
  rw [locate]
  cases t.follow (start p) p.parts <;> simp [Except.mapError]

/-! ## Files -/

theorem open?_of_locate (hlocate : t.locate p = .ok place) (hnode : t.node? place = some node)
    (hne : node ≠ .directory) : t.open? p = .ok node := by
  simp only [open?, hlocate, hnode, bind, Except.bind]
  cases node with
  | directory => exact absurd rfl hne
  | bytes | workbook | wreck => rfl

/-- A file is written where its path leads, unless a directory is there. -/
theorem exists_of_write (h : t.write p node = .ok u) :
    ∃ place, t.locate p = .ok place ∧ t.node? place ≠ some .directory ∧ u = t.put place node := by
  rw [write] at h
  cases hlocate : t.locate p with
  | error fault =>
    rw [hlocate] at h
    cases h
  | ok place =>
    simp only [hlocate, bind, Except.bind] at h
    cases hnode : t.node? place with
    | none =>
      rw [hnode] at h
      exact ⟨place, rfl, by simp [hnode], (Except.ok.inj h).symm⟩
    | some found =>
      rw [hnode] at h
      cases found with
      | directory => cases h
      | bytes | workbook | wreck => exact ⟨place, rfl, by simp [hnode], (Except.ok.inj h).symm⟩

/-- A file that was written is the one found at its path. -/
theorem open?_write (hne : node ≠ .directory) (h : t.write p node = .ok u) :
    u.open? p = .ok node := by
  rcases exists_of_write h with ⟨place, hlocate, hfree, rfl⟩
  have hsame : Tree.locate (t.put place node) p = .ok place :=
    locate_eq_ok_iff.mpr (follow_put hfree (locate_eq_ok_iff.mp hlocate))
  exact open?_of_locate hsame (node?_put_self hfree) hne

end Files.Tree

/-! ## Stored workbooks -/

namespace Workbook

open Operation

/-- Nothing is said of a change of the files that fails. -/
theorem meets_changeFiles {P Q : Files.Tree → Prop}
    {change : Files.Tree → Except Files.Fault Files.Tree}
    (h : ∀ t u, P t → change t = .ok u → Q u) :
    Meets P (changeFiles change) (fun _ => Q) fun _ _ => True := by
  refine ⟨fun t ht => ?_⟩
  rw [EStateM.run, changeFiles]
  cases hchange : change t with
  | ok u => exact h t u ht hchange
  | error fault => trivial

/-- Storing a workbook, if it does not fail, puts it in place of whatever was there. -/
theorem meets_store (p : Files.Path) (b : Workbook) :
    Meets (fun _ => True) (store p b) (fun _ t => t.open? p = .ok (.workbook b.stored))
      fun _ _ => True := by
  refine Meets.bind (Q := fun _ _ => True) (meets_changeFiles fun _ _ _ _ => trivial) fun _ => ?_
  rw [storeAt]
  cases b.storingFault? with
  | none => exact meets_changeFiles fun _ _ _ h => Files.Tree.open?_write nofun h
  | some fault =>
    -- the wreck that is left is not spoken of, for the storing has failed
    exact Meets.bind (Q := fun _ _ => True) (meets_changeFiles fun _ _ _ _ => trivial) fun _ =>
      Meets.stop fun _ _ => trivial

end Workbook

end Sheetwright
