import Sheetwright.Proofs.Grid.Actions
/-!
# Sheets with the same content

The content of a sheet is what its cells hold and which ranges are merged; how the cells look, which
empty cells are allocated and how high the rows are is left aside. Every operation that fills a
sheet does the same to two sheets with the same content: it returns the same or stops with the same
fault, and the contents stay the same.
-/

namespace Sheetwright.Grid

open Operation

/-! ## Cells -/

/-- Both cells hold the same value, or both are covered. -/
structure Cell.Like (c d : Cell) : Prop where
  value_eq : d.value = c.value
  covered_eq : d.isCovered = c.isCovered

theorem Cell.Like.refl (c : Cell) : c.Like c := ⟨rfl, rfl⟩

theorem Cell.agree_enter (d : Datum) : Agree Cell.Like (· = ·) (Cell.enter d) (Cell.enter d) := by
  have hset (kind : ValueKind) (value : Value) :
      Agree Cell.Like (· = ·) (Cell.set kind value) (Cell.set kind value) :=
    Agree.modify fun _ _ _ => ⟨rfl, rfl⟩
  -- a refused value leaves its kind behind, which is no part of the content
  have hrefuse (kind : ValueKind) (fault : Fault) :
      Agree Cell.Like (· = ·) (Cell.refuse kind fault) (Cell.refuse kind fault) := by
    refine Agree.bind (Agree.modify fun c c' h => ⟨h.value_eq, rfl⟩) fun _ _ _ => ?_
    exact Agree.stop fault
  refine Agree.bind Agree.read fun c c' h => ?_
  -- whether the cell is covered is known to be the same on both sides
  rw [h.covered_eq]
  refine Agree.ite (Agree.bind (V := (· = ·)) (Agree.stop _) fun _ _ _ => ?_) ?_
  all_goals
    cases d with
    | null => exact hset _ _
    | bool b => exact hset _ _
    | int n => exact hset _ _
    | float x => exact hset _ _
    | text s => exact Agree.ite (hrefuse _ _) (hset _ _)
    | list _ => exact hrefuse _ _
    | map _ => exact hrefuse _ _

namespace Sheet

variable {s s' t t' : Sheet} {p : Position} {r : Range}

/-! ## Sheets -/

/-- The cells hold the same and the same ranges are merged. -/
structure SameContent (s t : Sheet) : Prop where
  like : ∀ p, (s.cell p).Like (t.cell p)
  merged_eq : t.merged = s.merged

theorem SameContent.refl (s : Sheet) : s.SameContent s := ⟨fun _ => .refl _, rfl⟩

theorem SameContent.symm (h : s.SameContent t) : t.SameContent s where
  like p := ⟨(h.like p).value_eq.symm, (h.like p).covered_eq.symm⟩
  merged_eq := h.merged_eq.symm

theorem SameContent.trans {u : Sheet} (hst : s.SameContent t) (htu : t.SameContent u) :
    s.SameContent u where
  like p := ⟨(htu.like p).value_eq.trans (hst.like p).value_eq,
    (htu.like p).covered_eq.trans (hst.like p).covered_eq⟩
  merged_eq := htu.merged_eq.trans hst.merged_eq

theorem SameContent.value_eq (h : s.SameContent t) (p : Position) : t.value p = s.value p :=
  (h.like p).value_eq

/-- Both sheets may be replaced by others with the same content. -/
theorem SameContent.replace (h : s.SameContent t) (hs : s.SameContent s') (ht : t.SameContent t') :
    s'.SameContent t' :=
  (hs.symm.trans h).trans ht

theorem Alike.sameContent (h : s.Alike t) : s.SameContent t where
  like p := by
    rw [h.cell_eq]
    exact .refl _
  merged_eq := h.merged_eq

theorem Reframed.sameContent (h : s.Reframed t) : s.SameContent t where
  like p := by
    rw [h.cell_eq]
    exact ⟨rfl, rfl⟩
  merged_eq := h.merged_eq

theorem SameContent.putCell (h : s.SameContent t) {c d : Cell} (hcd : c.Like d) :
    (s.putCell p c).SameContent (t.putCell p d) where
  like q := by
    rw [cell_putCell, cell_putCell]
    split
    · exact hcd
    · exact h.like q
  merged_eq := h.merged_eq

theorem sameContent_restyle (s : Sheet) (p : Position) (change : Style → Style) :
    s.SameContent (s.restyle p change) where
  like q := by
    rw [cell_restyle]
    split
    next hpq =>
      subst hpq
      exact ⟨rfl, rfl⟩
    · exact .refl _
  merged_eq := rfl

theorem sameContent_setHeight (s : Sheet) (row : Nat) (height : Option Float) :
    s.SameContent (s.setHeight row height) := by
  cases height with
  | some _ => exact ⟨fun _ => .refl _, rfl⟩
  | none => exact ⟨fun _ => .refl _, rfl⟩

theorem sameContent_frameAnchor (s : Sheet) (r : Range) : s.SameContent (s.frameAnchor r) where
  like q := by
    rw [cell_frameAnchor]
    split
    next hq =>
      subst hq
      exact ⟨rfl, rfl⟩
    · exact .refl _
  merged_eq := (s.sameButCells_frameAnchor r).merged_eq

theorem sameContent_frameCells (s : Sheet) (r : Range) : s.SameContent (s.frameCells r) := by
  refine foldl_induction (P := fun t => s.SameContent t) (.refl s) ?_
  intro t p _ ht
  exact ht.trans (t.sameContent_restyle p _)

theorem SameContent.coverRest (h : s.SameContent t) (r : Range) :
    (s.coverRest r).SameContent (t.coverRest r) := by
  rw [Sheet.coverRest, Sheet.coverRest]
  -- the covered cells are put one by one, whatever list they form
  generalize r.rest = positions
  induction positions generalizing s t with
  | nil => exact h
  | cons p positions ih => exact ih (h.putCell (.refl _))

theorem SameContent.merge (h : s.SameContent t) (r : Range) :
    (s.merge r).SameContent (t.merge r) := by
  have hframed := h.replace (s.sameContent_frameAnchor r) (t.sameContent_frameAnchor r)
  have hcover : (s.cover r).SameContent (t.cover r) :=
    (hframed.coverRest r).replace (sameContent_frameCells _ r) (sameContent_frameCells _ r)
  -- whether the range is noted depends on the ranges that are noted already
  rw [Sheet.merge, Sheet.merge, hcover.merged_eq]
  split
  · exact hcover
  · exact ⟨hcover.like, rfl⟩

/-- The last used row is a matter of content. -/
theorem SameContent.lastUsed_eq (h : s.SameContent t) : t.lastUsed = s.lastUsed := by
  -- one bound is enough, since having the same content is symmetric
  have hle {s t : Sheet} (h : s.SameContent t) : t.lastUsed ≤ s.lastUsed := by
    refine lastUsed_le_iff.mpr fun p hp => ?_
    rw [h.value_eq] at hp
    exact lastUsed_le_iff.mp (Nat.le_refl _) p hp
  exact Nat.le_antisymm (hle h) (hle h.symm)

theorem run_lastUsedRow (s : Sheet) :
    lastUsedRow.run s = .ok s.lastUsed (s.allocateBlock s.rows s.columns) := by
  -- the row is found in the sheet with its cells opened, which holds the same
  have hopened : (s.allocateBlock s.rows s.columns).lastUsed = s.lastUsed :=
    (s.widened_allocateBlock _ _).toAlike.sameContent.lastUsed_eq
  rw [← hopened]
  rfl

/-! ## Operations -/

/-- Two changes that leave the content alone. -/
theorem agree_modify {f g : Sheet → Sheet} (hf : ∀ s, SameContent s (f s))
    (hg : ∀ t, SameContent t (g t)) :
    Agree SameContent (· = ·) (modifyGet fun s => ((), f s) : Action Unit)
      (modifyGet fun t => ((), g t) : Action Unit) :=
  Agree.modify fun s t h => h.replace (hf s) (hg t)

theorem agree_openCell (row column : Int) :
    Agree SameContent (· = ·) (openCell row column) (openCell row column) := by
  rw [openCell]
  split
  next p _ =>
    have hallocate (s : Sheet) : s.SameContent (s.allocate p) := by
      have hw : Widened (fun _ => True) s (s.allocate p) := s.widened_allocate trivial
      exact hw.toAlike.sameContent
    exact Agree.bind (agree_modify hallocate hallocate) fun _ _ _ => Agree.done rfl
  · exact Agree.stop _

theorem agree_onCell (p : Position) {action action' : EStateM Fault Cell Unit}
    (h : Agree Cell.Like (· = ·) action action') :
    Agree SameContent (· = ·) (onCell p action) (onCell p action') := by
  refine ⟨fun s t hst => ?_⟩
  rw [EStateM.run, EStateM.run, onCell, onCell]
  rcases h.cases (hst.like p) with ⟨_, _, c, d, hx, hy, -, hcd⟩ | ⟨fault, c, d, hx, hy, hcd⟩
  · rw [hx, hy]
    exact ⟨rfl, hst.putCell hcd⟩
  · rw [hx, hy]
    exact ⟨rfl, hst.putCell hcd⟩

theorem agree_write (row column : Int) (d : Datum) :
    Agree SameContent (· = ·) (write row column d) (write row column d) := by
  refine Agree.bind (agree_openCell row column) ?_
  rintro p _ rfl
  split
  · exact Agree.done rfl
  · exact agree_onCell p (Cell.agree_enter _)

theorem agree_writeColumn (row column : Int) (data : List Datum) :
    Agree SameContent (· = ·) (writeColumn row column data) (writeColumn row column data) := by
  induction data generalizing row with
  | nil => exact Agree.done rfl
  | cons d rest ih => exact Agree.bind (agree_write row column d) fun _ _ _ => ih (row + 1)

theorem agree_mergeBounds (minRow minColumn maxRow maxColumn : Int) :
    Agree SameContent (· = ·) (mergeBounds minRow minColumn maxRow maxColumn)
      (mergeBounds minRow minColumn maxRow maxColumn) := by
  rw [mergeBounds]
  split
  · exact Agree.modify fun _ _ h => h.merge _
  · exact Agree.stop _

theorem agree_lastUsedRow : Agree SameContent (· = ·) lastUsedRow lastUsedRow := by
  have hallocate (s : Sheet) : s.SameContent (s.allocateBlock s.rows s.columns) :=
    (s.widened_allocateBlock _ _).toAlike.sameContent
  refine Agree.bind (agree_modify hallocate hallocate) fun _ _ _ => ?_
  refine Agree.bind Agree.read fun s t h => Agree.done ?_
  exact h.lastUsed_eq.symm

end Sheet

end Sheetwright.Grid
