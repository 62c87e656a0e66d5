import Sheetwright.Proofs.Grid.Content
/-!
# What clearing rows leaves

Clearing removes cells and moves none if it goes down to the last row: the cells above the cleared
rows stay, apart from those that a merged range reaching into the cleared rows has covered. Taking
ranges apart may fail, when a cell that a range should cover is not allocated; what is left if it
does not fail depends on the content of the sheet and its last row only (`SameContent.clearFrom`).
-/

namespace Sheetwright.Grid.Sheet

open Operation

variable {s s' t t' u : Sheet} {r : Range} {first last : Nat} {gone gone' : Position → Prop}

/-- Clears the rows from a first one on. -/
def clearFrom (first : Nat) : Action Unit := do
  let s ← get
  if first ≤ s.maxRow then clearRows first s.maxRow else pure ()

theorem keeps_title_clearFrom (first : Nat) : Keeps SameTitle (clearFrom first) := by
  refine Keeps.bind Keeps.read fun s => ?_
  split
  · exact keeps_title_clearRows _ _
  · exact Keeps.done ()

/-! ## Cells that are gone -/

/-- The second sheet is the first one without the cells in some positions. -/
structure Lacking (gone : Position → Prop) (s t : Sheet) : Prop where
  blank : ∀ p, gone p → t.cell p = {}
  kept : ∀ p, ¬gone p → t.cell p = s.cell p
  mem : ∀ p ∈ t.cells, p ∈ s.cells

theorem Lacking.trans (hst : Lacking gone s t) (htu : Lacking gone' t u) :
    Lacking (fun p => gone p ∨ gone' p) s u where
  blank p hp := by
    -- a cell that the second change removes is gone whatever the first one did
    by_cases hp' : gone' p
    · exact htu.blank p hp'
    · rw [htu.kept p hp', hst.blank p (hp.resolve_right hp')]
  kept p hp := by
    rw [not_or] at hp
    rw [htu.kept p hp.2, hst.kept p hp.1]
  mem p hp := hst.mem p (htu.mem p hp)

theorem Lacking.congr (h : Lacking gone s t) (hiff : ∀ p, gone p ↔ gone' p) :
    Lacking gone' s t where
  blank p hp := h.blank p ((hiff p).mpr hp)
  kept p hp := h.kept p fun hgone => hp ((hiff p).mp hgone)
  mem := h.mem

theorem Lacking.refl (s : Sheet) (h : ∀ p, ¬gone p) : Lacking gone s s where
  blank p hp := absurd hp (h p)
  kept _ _ := rfl
  mem _ hp := hp

theorem Lacking.maxRow_le (h : Lacking gone s t) : t.maxRow ≤ s.maxRow := maxRow_mono h.mem

theorem lacking_erase (s : Sheet) (p : Position) :
    Lacking (· = p) s { s with cells := s.cells.erase p } where
  blank q hq := by
    subst hq
    exact Std.ExtTreeMap.getD_erase_self
  kept q hq := by
    simp only [cell, Std.ExtTreeMap.getD_erase, Position.compare_eq_iff, if_neg (Ne.symm hq)]
  mem q hq := Std.ExtTreeMap.mem_of_mem_erase hq

/-- The same positions taken out of two sheets with the same content. -/
theorem SameContent.lacking (h : s.SameContent s') (ht : Lacking gone s t)
    (ht' : Lacking gone s' t') (hmerged : t'.merged = t.merged) : t.SameContent t' where
  like p := by
    by_cases hp : gone p
    · rw [ht.blank p hp, ht'.blank p hp]
      exact .refl _
    · rw [ht.kept p hp, ht'.kept p hp]
      exact h.like p
  merged_eq := hmerged

/-! ## Taking ranges apart -/

theorem removeCells_ok {positions : List Position}
    (h : (removeCells positions).run s = .ok () t) :
    Lacking (· ∈ positions) s t ∧ t.merged = s.merged := by
  induction positions generalizing s with
  | nil =>
    cases h
    exact ⟨.refl _ fun _ => List.not_mem_nil, rfl⟩
  | cons p rest ih =>
    rw [removeCells, EStateM.run_bind, EStateM.run_get] at h
    dsimp only at h
    split at h
    · rcases ih h with ⟨hrest, hmerged⟩
      refine ⟨((lacking_erase s p).trans hrest).congr fun q => ?_, hmerged⟩
      rw [List.mem_cons]
    · cases h

theorem unmerge_ok (h : (unmerge r).run s = .ok () t) :
    Lacking (· ∈ r.rest) s t ∧ t.merged = s.merged.erase r := by
  -- the range itself is struck off first, which removes no cell
  rcases removeCells_ok (s := { s with merged := s.merged.erase r }) h with ⟨hcells, hmerged⟩
  exact ⟨⟨hcells.blank, hcells.kept, hcells.mem⟩, hmerged⟩

theorem unmergeAll_ok {ranges : List Range} (h : (unmergeAll ranges).run s = .ok () t) :
    Lacking (fun p => ∃ r ∈ ranges, p ∈ r.rest) s t ∧
      t.merged = ranges.foldl List.erase s.merged := by
  induction ranges generalizing s with
  | nil =>
    cases h
    exact ⟨.refl _ (by simp), rfl⟩
  | cons r rest ih =>
    rw [unmergeAll, EStateM.run_bind] at h
    cases hrun : (unmerge r).run s with
    | error fault u =>
      rw [hrun] at h
      cases h
    | ok _ u =>
      rw [hrun] at h
      rcases unmerge_ok hrun with ⟨hfirst, hmerged⟩
      rcases ih h with ⟨hrest, hmerged'⟩
      refine ⟨(hfirst.trans hrest).congr fun p => ?_, ?_⟩
      · simp
      · rw [hmerged', hmerged, List.foldl_cons]

/-! ## Removing rows -/

theorem getElem?_insert_of_ne {cells : Std.ExtTreeMap Position Cell} {p q : Position} {c : Cell}
    (h : p ≠ q) : (cells.insert p c)[q]? = cells[q]? := by
  simp only [Std.ExtTreeMap.getElem?_insert, Position.compare_eq_iff, h, if_false]

/-- A list of cells of a map, put into another map one by one, each in its new place if it has one.
Only one of them may come to the place asked for. -/
theorem getElem?_foldl_list {cells : Std.ExtTreeMap Position Cell}
    (place : Position → Option Position)
    {f : Std.ExtTreeMap Position Cell → Position → Cell → Std.ExtTreeMap Position Cell}
    (hf : ∀ acc p c, f acc p c = (place p).elim acc fun q => acc.insert q c)
    {q : Position} {source : Option Position}
    (hplace : ∀ p ∈ cells, place p = some q ↔ source = some p)
    {l : List (Position × Cell)} (hl : ∀ e ∈ l, cells[e.1]? = some e.2)
    (acc : Std.ExtTreeMap Position Cell) :
    (l.foldl (fun acc e => f acc e.1 e.2) acc)[q]? =
      if ∃ e ∈ l, source = some e.1 then source.bind (cells[·]?) else acc[q]? := by
  induction l generalizing acc with
  | nil => simp
  | cons e l ih =>
    have he := hl e List.mem_cons_self
    have hmem : e.1 ∈ cells := by
      rw [Std.ExtTreeMap.mem_iff_isSome_getElem?, he]
      rfl
    have hstep := ih (fun e' he' => hl e' (List.mem_cons_of_mem e he')) (f acc e.1 e.2)
    rw [List.foldl_cons, hstep, hf]
    simp only [List.mem_cons, or_and_right, exists_or, exists_eq_left]
    -- only the cell that comes to the place asked for changes what stands there
    by_cases hsource : source = some e.1
    · rw [(hplace e.1 hmem).mpr hsource, Option.elim_some, Std.ExtTreeMap.getElem?_insert_self,
        if_pos (Or.inl hsource), hsource, Option.bind_some, he, ite_self]
    · have hacc : ((place e.1).elim acc fun r => acc.insert r e.2)[q]? = acc[q]? := by
        cases hto : place e.1 with
        | none => rfl
        | some r =>
          refine getElem?_insert_of_ne fun hr => hsource ((hplace e.1 hmem).mp ?_)
          rw [hto, hr]
      rw [hacc]
      simp only [hsource, false_or]

/-- The cells of a map put into a new one. -/
theorem getElem?_foldl_place {cells : Std.ExtTreeMap Position Cell}
    (place : Position → Option Position)
    {f : Std.ExtTreeMap Position Cell → Position → Cell → Std.ExtTreeMap Position Cell}
    (hf : ∀ acc p c, f acc p c = (place p).elim acc fun q => acc.insert q c)
    {q : Position} {source : Option Position}
    (hplace : ∀ p ∈ cells, place p = some q ↔ source = some p) :
    (cells.foldl f ∅)[q]? = source.bind (cells[·]?) := by
  have htoList (e : Position × Cell) (he : e ∈ cells.toList) : cells[e.1]? = some e.2 :=
    Std.ExtTreeMap.mem_toList_iff_getElem?_eq_some.mp he
  rw [Std.ExtTreeMap.foldl_eq_foldl_toList, getElem?_foldl_list place hf hplace htoList]
  split
  next => rfl
  next hnone =>
    rw [Std.ExtTreeMap.getElem?_empty]
    cases source with
    | none => rfl
    | some p =>
      cases hcell : cells[p]? with
      | none => rw [Option.bind_some, hcell]
      | some c =>
        refine absurd ⟨(p, c), ?_, rfl⟩ hnone
        exact Std.ExtTreeMap.mem_toList_iff_getElem?_eq_some.mpr hcell

/-- The position from which a position is filled when rows are removed: those below close up. -/
def sourceIn (first last : Int) (q : Position) : Position :=
  if (q.row : Int) < first then q else ⟨(q.row + (last - first + 1)).toNat, q.column⟩

/-- The position to which a cell moves when rows are removed. -/
def movedBy (first last : Int) (p : Position) : Option Position :=
  if (p.row : Int) < first then some p
  else if (p.row : Int) ≤ last then none
  else some ⟨(p.row - (last - first + 1)).toNat, p.column⟩

theorem movedBy_eq_some_iff {first last : Int} {p q : Position} (hle : first ≤ last)
    (hq : 0 < q.row ∨ 0 ≤ first) :
    movedBy first last p = some q ↔ some (sourceIn first last q) = some p := by
  obtain ⟨row, column⟩ := p
  obtain ⟨row', column'⟩ := q
  rw [movedBy, sourceIn]
  dsimp only at hq ⊢
  -- rows above the block stay, rows behind it move up by its size, the block itself goes
  split
  next hp =>
    split
    next => simp only [Option.some.injEq, eq_comm]
    next hq' =>
      simp only [Option.some.injEq, Position.mk.injEq]
      omega
  next hp =>
    split
    next hp' =>
      split
      next hq' =>
        simp only [Option.some.injEq, Position.mk.injEq, reduceCtorEq, false_iff]
        omega
      next =>
        simp only [Option.some.injEq, Position.mk.injEq, reduceCtorEq, false_iff]
        omega
    next hp' =>
      split
      next =>
        simp only [Option.some.injEq, Position.mk.injEq]
        omega
      next =>
        simp only [Option.some.injEq, Position.mk.injEq]
        omega

/-- The cells below a row, allocated as they are before that row is removed. -/
def opened (s : Sheet) (last : Int) : Sheet :=
  s.allocateBlock (Range.span (max 1 (last + 1).toNat) s.maxRow) s.columns

/-- What removing rows leaves, cell by cell. Rows in front of the first one are no rows. -/
theorem exists_deleteRows {first last : Int} (s : Sheet) (hlast : -1 ≤ last) (hle : first ≤ last) :
    ∃ cells, (deleteRows first last).run s = .ok () { s.opened last with cells } ∧
      ∀ q : Position, 0 < q.row ∨ 0 ≤ first →
        cells[q]? = (s.opened last).cells[sourceIn first last q]? := by
  have hlow : ¬last < -1 := by
    omega
  rw [deleteRows, if_neg hlow]
  refine ⟨_, rfl, fun q hq => ?_⟩
  refine getElem?_foldl_place (movedBy first last) (fun acc p c => ?_)
    fun p _ => movedBy_eq_some_iff hle hq
  dsimp only [movedBy]
  generalize (ite ((p.row : Int) < first) _ _ : Option Position) = place
  cases place <;> rfl

theorem lacking_of_getElem? {cells : Std.ExtTreeMap Position Cell}
    (h : ∀ q : Position, cells[q]? = if q.row < first then s.cells[q]? else none) :
    Lacking (fun p => first ≤ p.row) s { s with cells } where
  blank p hp := by
    rw [cell, Std.ExtTreeMap.getD_eq_getD_getElem?, h, if_neg (by omega)]
    rfl
  kept p hp := by
    rw [cell, Std.ExtTreeMap.getD_eq_getD_getElem?, h, if_pos (by omega), cell,
      Std.ExtTreeMap.getD_eq_getD_getElem?]
  mem p hp := by
    rw [Std.ExtTreeMap.mem_iff_isSome_getElem?, h] at hp
    split at hp
    · rwa [Std.ExtTreeMap.mem_iff_isSome_getElem?]
    · cases hp

/-- Removing the rows down to the last one moves no cell. -/
theorem deleteRows_ok (hle : first ≤ last) (hlast : s.maxRow ≤ last)
    (h : (deleteRows first last).run s = .ok () t) :
    Lacking (fun p => first ≤ p.row) s t ∧ t.merged = s.merged := by
  -- no row is left below the removed ones that could move up
  have hopened : s.opened last = s := by
    have hspan : Range.span (max 1 ((last : Int) + 1).toNat) s.maxRow = [] := by
      rw [Range.span, List.range'_eq_nil_iff]
      omega
    rw [opened, hspan]
    rfl
  have hrows : (first : Int) ≤ (last : Int) := Int.ofNat_le.mpr hle
  rcases s.exists_deleteRows (by omega) hrows with ⟨cells, hrun, hcells⟩
  rw [hrun, hopened] at h
  cases h
  refine ⟨lacking_of_getElem? (s := s) fun q => ?_, rfl⟩
  rw [hcells q (Or.inr (Int.natCast_nonneg first)), hopened, sourceIn]
  by_cases hq : q.row < first
  · rw [if_pos (by omega), if_pos hq]
  · rw [if_neg (by omega), if_neg hq]
    refine Std.ExtTreeMap.getElem?_eq_none fun hmem => ?_
    have hrow := row_le_maxRow hmem
    dsimp only at hrow
    omega

/-! ## Clearing -/

/-- The merged ranges that reach into some rows. -/
def touched (s : Sheet) (first last : Int) : List Range :=
  s.merged.filter fun r => (r.minRow : Int) ≤ last && first ≤ (r.maxRow : Int)

theorem mem_touched {first last : Int} {r : Range} : r ∈ s.touched first last ↔
    r ∈ s.merged ∧ (r.minRow : Int) ≤ last ∧ first ≤ (r.maxRow : Int) := by
  simp [touched]

/-- Clearing rows goes in three steps. -/
theorem run_clearRows {first last : Int} (hle : first ≤ last) (s : Sheet) :
    (clearRows first last).run s = (do
      unmergeAll (s.touched first last)
      deleteRows first last
      modify fun s => { s with heights := s.heights.filter fun row _ =>
        !(first ≤ (row : Int) && (row : Int) ≤ last) } : Action Unit).run s := by
  rw [clearRows, if_neg (Int.not_lt.mpr hle)]
  rfl

/-- Clearing the rows from a first one to the last one. -/
theorem clearRows_ok (hfirst : first ≤ s.maxRow)
    (h : (clearRows first s.maxRow).run s = .ok () t) :
    Lacking (fun p => (∃ r ∈ s.touched first s.maxRow, p ∈ r.rest) ∨ first ≤ p.row) s t ∧
      t.merged = (s.touched first s.maxRow).foldl List.erase s.merged := by
  rw [run_clearRows (Int.ofNat_le.mpr hfirst), EStateM.run_bind] at h
  cases hunmerge : (unmergeAll (s.touched first s.maxRow)).run s with
  | error fault u =>
    rw [hunmerge] at h
    cases h
  | ok _ u =>
    rw [hunmerge] at h
    rcases unmergeAll_ok hunmerge with ⟨hcells, hmerged⟩
    dsimp only at h
    rw [EStateM.run_bind] at h
    cases hdelete : (deleteRows first s.maxRow).run u with
    | error fault v =>
      rw [hdelete] at h
      cases h
    | ok _ v =>
      rw [hdelete] at h
      rcases deleteRows_ok hfirst hcells.maxRow_le hdelete with ⟨hcells', hmerged'⟩
      cases h
      have hboth := hcells.trans hcells'
      exact ⟨⟨hboth.blank, hboth.kept, hboth.mem⟩, hmerged'.trans hmerged⟩

/-- What clearing leaves is a matter of content and of the last row. -/
theorem SameContent.clearFrom (h : s.SameContent s')
    (hrows : s'.maxRow = s.maxRow ∨ s.maxRow < first ∧ s'.maxRow < first)
    (ht : (clearFrom first).run s = .ok () t) (ht' : (clearFrom first).run s' = .ok () t') :
    t.SameContent t' := by
  rw [Sheet.clearFrom, EStateM.run_bind, EStateM.run_get] at ht ht'
  dsimp only at ht ht'
  by_cases hlow : first ≤ s.maxRow
  · have hrow : s'.maxRow = s.maxRow := hrows.resolve_right (by omega)
    -- the same rows are cleared, hence the same ranges are taken apart
    have htouched : s'.touched first s'.maxRow = s.touched first s.maxRow := by
      rw [touched, touched, h.merged_eq, hrow]
    rw [if_pos hlow] at ht
    rw [if_pos (hrow ▸ hlow)] at ht'
    rcases clearRows_ok hlow ht with ⟨hcells, hmerged⟩
    rcases clearRows_ok (hrow ▸ hlow) ht' with ⟨hcells', hmerged'⟩
    rw [htouched] at hcells' hmerged'
    exact h.lacking hcells hcells' (by rw [hmerged', hmerged, h.merged_eq])
  -- neither sheet has any row to clear
  · rw [if_neg hlow] at ht
    rw [if_neg (by omega)] at ht'
    cases ht
    cases ht'
    exact h

end Sheetwright.Grid.Sheet
