import Sheetwright.Proofs.Grid.Actions
/-!
# What filling a sheet from a row on leaves alone

`SameAbove start` relates two sheets that are the same above a row: the cells and the heights there,
the merged ranges, which are only added to, and the widths of the columns. Opening a cell keeps this
wherever the cell is, and every operation that fills a sheet keeps it from that row on, even if it
stops halfway.
-/

namespace Sheetwright.Grid

theorem Range.minRow_le_of_mem {r : Range} {p : Position} (h : p ∈ r.positions) :
    r.minRow ≤ p.row := by
  rw [positions, List.mem_flatMap] at h
  rcases h with ⟨row, hrow, hp⟩
  rcases List.mem_map.mp hp with ⟨column, -, rfl⟩
  exact (Sheet.mem_span.mp hrow).1

theorem exists_of_bind_eq_ok {α β : Type} {x : Except Fault α} {f : α → Except Fault β} {b : β}
    (h : x >>= f = .ok b) : ∃ a, x = .ok a ∧ f a = .ok b := by
  cases x with
  | ok a => exact ⟨a, rfl, h⟩
  | error fault => cases h

theorem Range.eq_of_bound {greatest n : Nat} {i : Int} (h : bound greatest i = .ok n) :
    (n : Int) = i := by
  rw [bound] at h
  split at h
  · cases h
  · split at h
    · cases h
    · cases h
      omega

theorem Range.minRow_eq_of_ofBounds {minRow minColumn maxRow maxColumn : Int} {r : Range}
    (h : ofBounds minRow minColumn maxRow maxColumn = .ok r) : (r.minRow : Int) = minRow := by
  rcases exists_of_bind_eq_ok h with ⟨left, -, h⟩
  rcases exists_of_bind_eq_ok h with ⟨top, htop, h⟩
  rcases exists_of_bind_eq_ok h with ⟨right, -, h⟩
  rcases exists_of_bind_eq_ok h with ⟨bottom, -, h⟩
  -- of the ways to put the four bounds together only one makes a range
  split at h
  · split at h
    · cases h
      exact eq_of_bound htop
    · cases h
  · cases h

namespace Sheet

open Operation

variable {start row : Int} {s t u : Sheet} {p : Position} {r : Range}

/-- Above a row the two sheets are the same, and no merged range was added there. -/
structure SameAbove (start : Int) (s t : Sheet) : Prop where
  title_eq : t.title = s.title
  widths_eq : t.widths = s.widths
  cell_eq : ∀ p : Position, (p.row : Int) < start → t.cell p = s.cell p
  height_eq : ∀ row : Nat, (row : Int) < start → t.heights[row]? = s.heights[row]?
  merged : ∃ more, t.merged = s.merged ++ more ∧ ∀ r ∈ more, start ≤ (r.minRow : Int)

theorem SameAbove.refl (start : Int) (s : Sheet) : s.SameAbove start s :=
  ⟨rfl, rfl, fun _ _ => rfl, fun _ _ => rfl, [], s.merged.append_nil.symm, nofun⟩

theorem SameAbove.trans (hst : s.SameAbove start t) (htu : t.SameAbove start u) :
    s.SameAbove start u where
  title_eq := htu.title_eq.trans hst.title_eq
  widths_eq := htu.widths_eq.trans hst.widths_eq
  cell_eq p hp := (htu.cell_eq p hp).trans (hst.cell_eq p hp)
  height_eq row hrow := (htu.height_eq row hrow).trans (hst.height_eq row hrow)
  merged := by
    rcases hst.merged with ⟨more, hmore, hfrom⟩
    rcases htu.merged with ⟨more', hmore', hfrom'⟩
    refine ⟨more ++ more', by rw [hmore', hmore, List.append_assoc], ?_⟩
    intro r hr
    exact (List.mem_append.mp hr).elim (hfrom r) (hfrom' r)

instance (start : Int) : IsPreorder Sheet (SameAbove start) where
  refl := SameAbove.refl start
  trans _ _ _ := SameAbove.trans

/-- What is the same above a row is the same above any row further up. -/
theorem SameAbove.mono {start' : Int} (h : s.SameAbove start t) (hle : start' ≤ start) :
    s.SameAbove start' t where
  title_eq := h.title_eq
  widths_eq := h.widths_eq
  cell_eq p hp := h.cell_eq p (by omega)
  height_eq row hrow := h.height_eq row (by omega)
  merged := by
    rcases h.merged with ⟨more, hmore, hfrom⟩
    exact ⟨more, hmore, fun r hr => Int.le_trans hle (hfrom r hr)⟩

theorem Alike.sameAbove (h : s.Alike t) (start : Int) : s.SameAbove start t where
  title_eq := h.title_eq
  widths_eq := h.widths_eq
  cell_eq p _ := h.cell_eq p
  height_eq row _ := by rw [h.heights_eq]
  merged := ⟨[], by rw [h.merged_eq, List.append_nil], nofun⟩

/-- What fills rows below those in use leaves the rows in use where they are. -/
theorem SameAbove.lastUsed_le (h : s.SameAbove (s.lastUsed + 1) t) : s.lastUsed ≤ t.lastUsed := by
  refine lastUsed_le_iff.mpr fun p hp => ?_
  have hrow := lastUsed_le_iff.mp (Nat.le_refl s.lastUsed) p hp
  rw [value, ← h.cell_eq p (by omega)] at hp
  exact lastUsed_le_iff.mp (Nat.le_refl t.lastUsed) p hp

/-! ## Changes from a row on -/

theorem sameAbove_putCell (s : Sheet) (c : Cell) (h : start ≤ (p.row : Int)) :
    s.SameAbove start (s.putCell p c) where
  title_eq := rfl
  widths_eq := rfl
  cell_eq q hq := by
    rw [cell_putCell, if_neg]
    rintro rfl
    omega
  height_eq _ _ := rfl
  merged := ⟨[], s.merged.append_nil.symm, nofun⟩

theorem sameAbove_foldl_putCell {α : Type} (s : Sheet) {l : List α} {f : Sheet → α → Position}
    (g : Sheet → α → Cell) (h : ∀ t, ∀ a ∈ l, start ≤ ((f t a).row : Int)) :
    s.SameAbove start (l.foldl (fun s a => s.putCell (f s a) (g s a)) s) := by
  refine foldl_induction (P := fun t => s.SameAbove start t) (.refl start s) ?_
  intro t a ha ht
  exact ht.trans (t.sameAbove_putCell _ (h t a ha))

theorem sameAbove_frameAnchor (s : Sheet) (h : start ≤ (r.minRow : Int)) :
    s.SameAbove start (s.frameAnchor r) := by
  have hsame := s.sameButCells_frameAnchor r
  refine ⟨hsame.title_eq, hsame.widths_eq, ?_, ?_, [], ?_, nofun⟩
  · intro p hp
    rw [cell_frameAnchor, if_neg]
    rintro rfl
    exact absurd h (Int.not_le.mpr hp)
  · intro row _
    rw [hsame.heights_eq]
  · rw [hsame.merged_eq, List.append_nil]

theorem sameAbove_cover (s : Sheet) (h : start ≤ (r.minRow : Int)) :
    s.SameAbove start (s.cover r) := by
  have hrow (p : Position) (hp : p ∈ r.positions) : start ≤ (p.row : Int) := by
    have hle := Range.minRow_le_of_mem hp
    omega
  -- the three passes of covering stay within the range
  refine (s.sameAbove_frameAnchor h).trans (.trans (t := (s.frameAnchor r).coverRest r) ?_ ?_)
  · exact sameAbove_foldl_putCell _ _ fun _ p hp => hrow p (List.mem_of_mem_drop hp)
  · exact sameAbove_foldl_putCell _ _ fun _ p hp => hrow p hp

theorem sameAbove_merge (s : Sheet) (h : start ≤ (r.minRow : Int)) :
    s.SameAbove start (s.merge r) := by
  have hcover := s.sameAbove_cover h
  rw [merge]
  split
  · exact hcover
  · refine hcover.trans ⟨rfl, rfl, fun _ _ => rfl, fun _ _ => rfl, [r], rfl, ?_⟩
    intro r' hr'
    rwa [List.mem_singleton.mp hr']

theorem sameAbove_setHeight (s : Sheet) {row : Nat} (height : Float) (h : start ≤ (row : Int)) :
    s.SameAbove start (s.setHeight row (some height)) where
  title_eq := rfl
  widths_eq := rfl
  cell_eq _ _ := rfl
  height_eq row' hrow' := by
    rw [setHeight, Std.ExtTreeMap.getElem?_insert, if_neg]
    intro hrow
    rw [Nat.compare_eq_eq] at hrow
    omega
  merged := ⟨[], s.merged.append_nil.symm, nofun⟩

/-! ## Operations -/

theorem keeps_sameAbove_openCell (row column : Int) :
    Keeps (SameAbove start) (openCell row column) :=
  (keeps_openCell row column).mono fun _ _ h => h.toAlike.sameAbove start

/-- A cell that was opened is in the row and in the column that were given. -/
theorem returns_openCell (row column : Int) :
    Returns (fun p : Position => (p.row : Int) = row ∧ (p.column : Int) = column)
      (openCell row column) := by
  rw [openCell]
  split
  next p hp => exact Returns.bind fun _ => Returns.done (eq_of_locate hp)
  · exact Returns.stop _

theorem keeps_sameAbove_onCell (h : start ≤ (p.row : Int)) (action : EStateM Fault Cell Unit) :
    Keeps (SameAbove start) (onCell p action) := by
  intro s
  rw [after, EStateM.run, onCell]
  -- what a fault leaves in the cell is put back as well
  cases action.run (s.cell p) with
  | ok _ c => exact s.sameAbove_putCell c h
  | error fault c => exact s.sameAbove_putCell c h

theorem keeps_sameAbove_write (h : start ≤ row) (column : Int) (d : Datum) :
    Keeps (SameAbove start) (write row column d) := by
  refine Keeps.bind_returning (keeps_sameAbove_openCell row column) (returns_openCell row column) ?_
  rintro p ⟨hrow, -⟩
  split
  · exact Keeps.done ()
  · exact keeps_sameAbove_onCell (hrow ▸ h) _

theorem keeps_sameAbove_writeColumn (h : start ≤ row) (column : Int) (data : List Datum) :
    Keeps (SameAbove start) (writeColumn row column data) := by
  induction data generalizing row with
  | nil => exact Keeps.done ()
  | cons d rest ih =>
    exact Keeps.bind (keeps_sameAbove_write h column d) fun _ => ih (by omega)

theorem keeps_sameAbove_mergeBounds (h : start ≤ row) (minColumn maxRow maxColumn : Int) :
    Keeps (SameAbove start) (mergeBounds row minColumn maxRow maxColumn) := by
  rw [mergeBounds]
  split
  next r hr =>
    have hmin := Range.minRow_eq_of_ofBounds hr
    exact Keeps.modify fun s => s.sameAbove_merge (by omega)
  · exact Keeps.stop _

end Sheet

end Sheetwright.Grid
