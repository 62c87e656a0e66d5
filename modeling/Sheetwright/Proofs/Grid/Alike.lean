import Mathlib.Order.Defs.Unbundled
import Sheetwright.Proofs.Grid.Cells
/-!
# Sheets that look alike

Three ways in which two sheets are the same, from the strictest to the loosest:

* `Alike` — they show the same everywhere; only which empty cells are allocated may differ;
* `Reframed` — one comes from the other by adding lines around anchors of merged ranges;
* `SameButCells` — they agree in everything but their cells.

Copying a sheet frames it: every anchor of a merged range takes over the lines of the last cell of
its range. That is `frame`, and `alike_frame_iff` says when it changes nothing.
-/

namespace Sheetwright.Grid

/-! ## Lines -/

namespace Border

/-- Every line of the first border is a line of the second. -/
def Within (a b : Border) : Prop := a.orElse b = b

theorem orElse_assoc (a b c : Border) : (a.orElse b).orElse c = a.orElse (b.orElse c) := by
  cases a with
  | mk l r t b =>
    -- each of the four lines is there or not
    cases l <;> cases r <;> cases t <;> cases b <;> rfl

@[simp]
theorem orElse_none (b : Border) : b.orElse {} = b := by
  cases b with
  | mk l r t b =>
    cases l <;> cases r <;> cases t <;> cases b <;> rfl

theorem orElse_self (b : Border) : b.orElse b = b := by
  cases b with
  | mk l r t b =>
    cases l <;> cases r <;> cases t <;> cases b <;> rfl

theorem Within.refl (b : Border) : b.Within b := orElse_self b

theorem Within.trans {a b c : Border} (hab : a.Within b) (hbc : b.Within c) : a.Within c := by
  have h : a.orElse (b.orElse c) = c := by
    rw [← orElse_assoc, hab, hbc]
  rwa [hbc] at h

theorem Within.antisymm {a b : Border} (hab : a.Within b) (hba : b.Within a) : a = b := by
  -- a line that each border takes over from the other is the same in both
  have side {x y : Option String} (hxy : (x <|> y) = y) (hyx : (y <|> x) = x) : x = y := by
    cases x with
    | none =>
      cases y with
      | none => rfl
      | some y => cases hyx
    | some x =>
      rw [← hxy]
      rfl
  cases a
  cases b
  simp only [Within, orElse, mk.injEq] at hab hba
  rcases hab with ⟨hl, hr, ht, hb⟩
  rcases hba with ⟨hl', hr', ht', hb'⟩
  rw [side hl hl', side hr hr', side ht ht', side hb hb']

theorem within_orElse (a b : Border) : a.Within (a.orElse b) := by
  rw [Within, ← orElse_assoc, orElse_self]

end Border

namespace Sheet

variable {s t u : Sheet} {p : Position} {r : Range}

/-! ## Sameness -/

/-- Apart from their cells the sheets are the same. -/
structure SameButCells (s t : Sheet) : Prop where
  title_eq : t.title = s.title
  merged_eq : t.merged = s.merged
  heights_eq : t.heights = s.heights
  widths_eq : t.widths = s.widths

theorem SameButCells.refl (s : Sheet) : s.SameButCells s := ⟨rfl, rfl, rfl, rfl⟩

theorem SameButCells.trans (hst : s.SameButCells t) (htu : t.SameButCells u) :
    s.SameButCells u where
  title_eq := htu.title_eq.trans hst.title_eq
  merged_eq := htu.merged_eq.trans hst.merged_eq
  heights_eq := htu.heights_eq.trans hst.heights_eq
  widths_eq := htu.widths_eq.trans hst.widths_eq

/-- The sheets show the same; only the allocation of empty cells may differ. -/
structure Alike (s t : Sheet) : Prop extends SameButCells s t where
  cell_eq : ∀ p, t.cell p = s.cell p

theorem Alike.refl (s : Sheet) : s.Alike s := ⟨.refl s, fun _ => rfl⟩

theorem Alike.trans (hst : s.Alike t) (htu : t.Alike u) : s.Alike u where
  toSameButCells := hst.toSameButCells.trans htu.toSameButCells
  cell_eq p := (htu.cell_eq p).trans (hst.cell_eq p)

instance : IsPreorder Sheet Alike where
  refl := Alike.refl
  trans _ _ _ := Alike.trans

/-- The second sheet is the first one with more empty cells allocated, all of them in an area. -/
structure Widened (area : Position → Prop) (s t : Sheet) : Prop extends Alike s t where
  mem : ∀ p ∈ s.cells, p ∈ t.cells
  within : ∀ p ∈ t.cells, p ∈ s.cells ∨ area p

theorem Widened.refl (area : Position → Prop) (s : Sheet) : s.Widened area s :=
  ⟨.refl s, fun _ hp => hp, fun _ hp => Or.inl hp⟩

theorem Widened.trans {area : Position → Prop} (hst : Widened area s t) (htu : Widened area t u) :
    Widened area s u where
  toAlike := hst.toAlike.trans htu.toAlike
  mem p hp := htu.mem p (hst.mem p hp)
  within p hp := by
    rcases htu.within p hp with hp | hp
    · exact hst.within p hp
    · exact Or.inr hp

instance (area : Position → Prop) : IsPreorder Sheet (Widened area) where
  refl := Widened.refl area
  trans _ _ _ := Widened.trans

theorem Widened.mono {area area' : Position → Prop} (h : Widened area s t)
    (himp : ∀ p, area p → area' p) : Widened area' s t :=
  ⟨h.toAlike, h.mem, fun p hp => (h.within p hp).imp_right (himp p)⟩

theorem alike_allocate (s : Sheet) (p : Position) : s.Alike (s.allocate p) where
  toSameButCells := ⟨rfl, rfl, rfl, rfl⟩
  cell_eq := s.cell_allocate p

theorem widened_allocate {area : Position → Prop} (s : Sheet) (h : area p) :
    s.Widened area (s.allocate p) where
  toAlike := s.alike_allocate p
  mem _ hq := mem_allocate.mpr (Or.inr hq)
  within q hq := by
    rcases mem_allocate.mp hq with rfl | hq
    · exact Or.inr h
    · exact Or.inl hq

theorem widened_allocateBlock (s : Sheet) (rows columns : List Nat) :
    s.Widened (fun p => p.row ∈ rows ∧ p.column ∈ columns) (s.allocateBlock rows columns) := by
  refine allocateBlock_induction (Widened.refl _ s) ?_
  intro t row hrow column hcolumn ht
  exact ht.trans (t.widened_allocate ⟨hrow, hcolumn⟩)

/-! ## Framing the merged ranges -/

/-- The lines that the anchor of a range has once it is framed. -/
def anchorBorder (s : Sheet) (r : Range) : Border :=
  (s.cell r.anchor).style.border.orElse
    { right := (s.cell r.corner).style.border.right
      bottom := (s.cell r.corner).style.border.bottom }

/-- A cell with other lines around it. -/
def withBorder (c : Cell) (border : Border) : Cell :=
  { c with style := { c.style with border } }

@[simp]
theorem border_withBorder (c : Cell) (border : Border) :
    (withBorder c border).style.border = border := rfl

@[simp]
theorem withBorder_border (c : Cell) : withBorder c c.style.border = c := rfl

/-- Framing a range touches nothing but the lines of its anchor. -/
theorem cell_frameAnchor (s : Sheet) (r : Range) (q : Position) :
    (s.frameAnchor r).cell q =
      if r.anchor = q then withBorder (s.cell r.anchor) (s.anchorBorder r) else s.cell q := by
  rw [frameAnchor]
  -- the corner is read once the anchor is open, which makes no difference to what it shows
  cases h : (s.allocate r.anchor).cells.get? r.corner with
  | some corner =>
    have hcorner : s.cell r.corner = corner := by
      rw [← cell_allocate s r.anchor, cell, Std.ExtTreeMap.getD_eq_getD_getElem?,
        ← Std.ExtTreeMap.get?_eq_getElem?, h]
      rfl
    simp only [cell_restyle, cell_allocate, anchorBorder, hcorner, withBorder]
  | none =>
    have hcorner : s.cell r.corner = {} := by
      rw [← cell_allocate s r.anchor, cell, Std.ExtTreeMap.getD_eq_getD_getElem?,
        ← Std.ExtTreeMap.get?_eq_getElem?, h]
      rfl
    -- a corner that is not allocated has no lines to hand on
    have hborder : s.anchorBorder r = (s.cell r.anchor).style.border := by
      rw [anchorBorder, hcorner]
      exact Border.orElse_none _
    by_cases hq : r.anchor = q
    · rw [if_pos hq, hborder, withBorder_border, hq]
      exact cell_allocate s q q
    · rw [if_neg hq]
      exact cell_allocate s r.anchor q

theorem sameButCells_frameAnchor (s : Sheet) (r : Range) : s.SameButCells (s.frameAnchor r) := by
  rw [frameAnchor]
  split
  · exact ⟨rfl, rfl, rfl, rfl⟩
  · exact ⟨rfl, rfl, rfl, rfl⟩

theorem mem_frameAnchor {q : Position} :
    q ∈ (s.frameAnchor r).cells ↔ r.anchor = q ∨ q ∈ s.cells := by
  rw [frameAnchor]
  split
  · rw [mem_restyle, mem_allocate, or_self_left]
  · exact mem_allocate

/-- The sheet with all its merged ranges framed. -/
def frame (s : Sheet) : Sheet := s.merged.foldl frameAnchor s

/-- Framing the merged ranges would add no line. -/
def Framed (s : Sheet) : Prop :=
  ∀ r ∈ s.merged, s.anchorBorder r = (s.cell r.anchor).style.border

/-- The second sheet is the first one with lines added around anchors of merged ranges. -/
structure Reframed (s t : Sheet) : Prop extends SameButCells s t where
  cell_eq : ∀ p, t.cell p = withBorder (s.cell p) (t.cell p).style.border
  lines : ∀ p, (s.cell p).style.border.Within (t.cell p).style.border
  apart : ∀ p, (∀ r ∈ s.merged, r.anchor ≠ p) → t.cell p = s.cell p

theorem Alike.reframed (h : s.Alike t) : s.Reframed t where
  toSameButCells := h.toSameButCells
  cell_eq p := by rw [h.cell_eq, withBorder_border]
  lines p := by rw [h.cell_eq]; exact Border.Within.refl _
  apart p _ := h.cell_eq p

theorem Reframed.trans (hst : s.Reframed t) (htu : t.Reframed u) : s.Reframed u where
  toSameButCells := hst.toSameButCells.trans htu.toSameButCells
  cell_eq p := by
    rw [htu.cell_eq p, hst.cell_eq p]
    rfl
  lines p := (hst.lines p).trans (htu.lines p)
  apart p hp := by
    rw [htu.apart p (by rwa [hst.merged_eq]), hst.apart p hp]

/-- Lines that are within those of the first sheet were not added. -/
theorem Reframed.alike_of_within (hst : s.Reframed t)
    (h : ∀ p, (t.cell p).style.border.Within (s.cell p).style.border) : s.Alike t where
  toSameButCells := hst.toSameButCells
  cell_eq p := by
    rw [hst.cell_eq p, (h p).antisymm (hst.lines p), withBorder_border]

theorem reframed_frameAnchor (hr : r ∈ s.merged) : s.Reframed (s.frameAnchor r) where
  toSameButCells := s.sameButCells_frameAnchor r
  cell_eq p := by
    rw [cell_frameAnchor]
    by_cases hp : r.anchor = p
    · rw [if_pos hp, hp, border_withBorder]
    · rw [if_neg hp, withBorder_border]
  lines p := by
    rw [cell_frameAnchor]
    by_cases hp : r.anchor = p
    · rw [if_pos hp, ← hp, border_withBorder]
      exact Border.within_orElse _ _
    · rw [if_neg hp]
      exact Border.Within.refl _
  apart p hp := by
    rw [cell_frameAnchor, if_neg (hp r hr)]

theorem reframed_foldl_frameAnchor {l : List Range} (h : ∀ r ∈ l, r ∈ s.merged) :
    s.Reframed (l.foldl frameAnchor s) := by
  refine foldl_induction (P := fun t => s.Reframed t) (Alike.refl s).reframed ?_
  intro t r hr ht
  refine ht.trans (reframed_frameAnchor ?_)
  rw [ht.merged_eq]
  exact h r hr

theorem reframed_frame (s : Sheet) : s.Reframed s.frame :=
  reframed_foldl_frameAnchor fun _ hr => hr

theorem Alike.anchorBorder_eq (h : s.Alike t) (r : Range) :
    t.anchorBorder r = s.anchorBorder r := by
  rw [anchorBorder, anchorBorder, h.cell_eq, h.cell_eq]

theorem Alike.framed_iff (h : s.Alike t) : t.Framed ↔ s.Framed := by
  simp only [Framed, h.merged_eq, h.anchorBorder_eq, h.cell_eq]

theorem Framed.alike_frame (h : s.Framed) : s.Alike s.frame := by
  refine foldl_induction (P := fun t => s.Alike t) (.refl s) ?_
  intro t r hr ht
  have hanchor : t.anchorBorder r = (t.cell r.anchor).style.border := by
    rw [ht.anchorBorder_eq, ht.cell_eq]
    exact h r hr
  refine ht.trans ⟨t.sameButCells_frameAnchor r, ?_⟩
  intro p
  rw [cell_frameAnchor]
  by_cases hp : r.anchor = p
  · rw [if_pos hp, hanchor, withBorder_border, hp]
  · rw [if_neg hp]

/-- Framing changes nothing that is shown exactly when every anchor has the lines already. Lines are
only ever added, so a line added on the way is still there at the end. -/
theorem alike_frame_iff : s.Alike s.frame ↔ s.Framed := by
  constructor
  · intro h r hr
    rcases List.append_of_mem hr with ⟨before, behind, hsplit⟩
    have hmem : ∀ r' ∈ before ++ r :: behind, r' ∈ s.merged := by
      rw [← hsplit]
      exact fun _ h => h
    -- `t` is the sheet as the range finds it, and `u` is the sheet as the range leaves it
    let t := before.foldl frameAnchor s
    let u := t.frameAnchor r
    have hst : s.Reframed t := by
      refine reframed_foldl_frameAnchor ?_
      intro r' hr'
      exact hmem r' (List.mem_append_left _ hr')
    have htu : t.Reframed u := by
      refine reframed_frameAnchor ?_
      rw [hst.merged_eq]
      exact hr
    have hend : u.Reframed s.frame := by
      have hframe : s.frame = behind.foldl frameAnchor u := by
        rw [frame, hsplit, List.foldl_append, List.foldl_cons]
      rw [hframe]
      refine reframed_foldl_frameAnchor ?_
      intro r' hr'
      rw [htu.merged_eq, hst.merged_eq]
      exact hmem r' (List.mem_append_right _ (List.mem_cons_of_mem r hr'))
    -- the end shows the lines of the beginning, so whatever lies between shows them too
    have hback (p : Position) : (s.frame.cell p).style.border.Within (s.cell p).style.border := by
      rw [h.cell_eq]
      exact Border.Within.refl _
    have hu (p : Position) : (u.cell p).style.border = (s.cell p).style.border :=
      ((hend.lines p).trans (hback p)).antisymm ((hst.lines p).trans (htu.lines p))
    have ht (p : Position) : (t.cell p).style.border = (s.cell p).style.border :=
      ((htu.lines p).trans ((hend.lines p).trans (hback p))).antisymm (hst.lines p)
    calc
      s.anchorBorder r = t.anchorBorder r := by
        rw [anchorBorder, anchorBorder, ht, ht]
      _ = (u.cell r.anchor).style.border := by
        rw [cell_frameAnchor, if_pos rfl, border_withBorder]
      _ = (s.cell r.anchor).style.border := hu _
  · exact Framed.alike_frame

/-- Framing allocates the anchors and nothing else. -/
theorem mem_frame {q : Position} :
    q ∈ s.frame.cells ↔ (∃ r ∈ s.merged, r.anchor = q) ∨ q ∈ s.cells := by
  -- framing goes through a list that does not change, so it may be any list
  have h (l : List Range) (t : Sheet) :
      q ∈ (l.foldl frameAnchor t).cells ↔ (∃ r ∈ l, r.anchor = q) ∨ q ∈ t.cells := by
    induction l generalizing t with
    | nil => simp
    | cons r l ih =>
      rw [List.foldl_cons, ih, mem_frameAnchor]
      simp only [List.mem_cons, or_and_right, exists_or, exists_eq_left, or_assoc, or_left_comm]
  exact h s.merged s

end Sheet

end Sheetwright.Grid
