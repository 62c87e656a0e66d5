import Sheetwright.Proofs.Formula.Vanishing
import Sheetwright.Proofs.Workbook.Imprinting
/-!
# A block copied below itself

A block is copied to another sheet, or to rows below it on its own sheet. What is written below a
block does not change it, so the copy is the same in both cases: each cell holds what was carried to
it, or is covered by a range of the copy (`Landed`, `landed_of_copyBlock`). A cell of the copy is in
use if the one in the block is, unless it is covered there or was the equals sign alone
(`Landed.isUsed_iff`).
-/

namespace Sheetwright

open Grid Operation

namespace Workbook

variable {b b' : Workbook} {source dest first last start lastColumn : Nat} {t u v w : Sheet}
  {p q origin : Position} {area : Position → Prop}

/-! ## Work below a block -/

/-- The source is as it was down to the last row of a block, and the destination meets a
condition. -/
abbrev Below (source dest last : Nat) (t : Sheet) (R : Sheet → Prop) : Workbook → Prop :=
  Between source dest (t.SameAbove ((last : Int) + 1)) R

section

variable {α : Type} {R : Sheet → Prop} {Q : α → Sheet → Prop} {action : Sheet.Action α}

/-- Work on the destination fills it from a row on, which is below the block where the destination
is the source. -/
theorem meets_below (hapart : source = dest → last < start)
    (h : Meets R action Q fun _ _ => True) (hkeeps : Keeps (Sheet.SameAbove start) action) :
    Meets (Below source dest last t R) (onSheet dest action)
      (fun a => Below source dest last t (Q a)) fun _ _ => True := by
  refine ⟨fun b hb => ?_⟩
  have hends := h.ends _ hb.dest
  rw [EStateM.run, onSheet]
  cases hrun : action.run (b.sheet dest) with
  | error fault s => trivial
  | ok a s =>
    rw [hrun] at hends
    refine hb.putSheet_dest hends (fun heq => ?_) fun _ => hb.source
    have hbelow := hapart heq
    subst heq
    exact hb.source.trans ((hkeeps.of_ok hrun).mono (by omega))

/-- Opening a cell of the source shows nothing new on either sheet. -/
theorem meets_below_openCell (hR : ∀ s p, R s → R (s.allocate p)) (row column : Int) :
    Meets (Below source dest last t R) (onSheet source (Sheet.openCell row column))
      (fun p b => p = ⟨row.toNat, column.toNat⟩ ∧ Below source dest last t R b)
      fun _ _ => True := by
  refine ⟨fun b hb => ?_⟩
  rw [EStateM.run, onSheet]
  cases hlocate : Sheet.locate row column with
  | error fault =>
    rw [Sheet.openCell, hlocate]
    trivial
  | ok p =>
    rw [Sheet.run_openCell hlocate]
    obtain ⟨rfl, rfl⟩ := Sheet.eq_of_locate hlocate
    refine ⟨rfl, hb.putSheet_source ?_ (fun heq => ?_) fun _ => hb.dest⟩
    · exact hb.source.trans ((Sheet.alike_allocate _ p).sameAbove _)
    · subst heq
      exact hR _ p hb.dest

end

/-! ## Cells -/

theorem Stamped.allocate (h : Stamped first start area t u v) (q : Position) :
    Stamped first start area t u (v.allocate q) :=
  h.congr fun p => v.cell_allocate q p

theorem meets_below_copyCell (hapart : source = dest → last < start) (hp : first ≤ origin.row)
    (hlast : origin.row ≤ last) :
    Meets (Below source dest last t (Stamped first start area t u))
      (copyCell source dest ((start : Int) - first) origin)
      (fun _ => Below source dest last t (Stamped first start (fun q => area q ∨ q = origin) t u))
      fun _ _ => True := by
  refine Meets.get_bind fun b hb => ?_
  have hcell : (b.sheet source).cell origin = t.cell origin := hb.source.cell_eq origin (by omega)
  dsimp only
  rw [hcell]
  refine Meets.ite (fun hc => Meets.done fun _ hs => ?_) fun hc => ?_
  · exact hs.mono_dest fun _ hs => hs.skip hp hc
  rw [Bool.not_eq_true] at hc
  have hopen : Meets (Stamped first start area t u)
      (Sheet.openCell (origin.row + ((start : Int) - first)) origin.column)
      (fun q s => q = shifted first start origin ∧ Stamped first start area t u s)
      fun _ _ => True :=
    (meets_openCell fun q hq s hs => ⟨eq_shifted_of_locate hp hq, hs.allocate q⟩).conseq_stop
      fun _ _ _ => trivial
  refine Meets.bind (meets_below hapart hopen (Sheet.keeps_sameAbove_openCell _ _))
    fun target => ?_
  refine Meets.assuming (fun _ hs => hs.dest.1) fun htarget => ?_
  subst htarget
  cases hd : carried origin (shifted first start origin) (t.cell origin).value with
  | error fault => exact Meets.stop fun _ _ => trivial
  | ok d =>
    -- the place of the cell is one of the rows that are filled
    have henter : Meets (Below source dest last t (Stamped first start area t u))
        (onSheet dest (Sheet.onCell (shifted first start origin) (Cell.enter d))) _ _ :=
      meets_below hapart (meets_onCell_enter (E := fun _ => True) d fun _ _ _ => trivial)
        (Sheet.keeps_sameAbove_onCell le_row_shifted _)
    refine Meets.bind (henter.conseq_pre fun _ hs => hs.mono_dest fun _ hs => hs.2) fun _ => ?_
    refine Meets.ite (fun hset => ?_) fun hset => Meets.done fun _ hs => hs.mono_dest ?_
    · refine meets_below hapart (Meets.modify ?_)
        (Keeps.modify fun s => s.sameAbove_putCell _ le_row_shifted)
      rintro _ ⟨w, hw, rfl⟩
      exact hw.enter_restyle hp hc hd hset
    · rintro _ ⟨w, hw, rfl⟩
      exact hw.put hp hc hd rfl (if_neg hset).symm

/-! ## Rows -/

theorem meets_below_copyRows (hapart : source = dest → last < start) (width : Nat) :
    Meets (Below source dest last t (Stamped first start (fun _ => False) t u))
      ((integers first last).forM (copyRow source dest ((start : Int) - first) (integers 1 width)))
      (fun _ => Below source dest last t (Stamped first start (block first last width) t u))
      fun _ _ => True :=
  meets_copyRows_of (A := fun area => Below source dest last t (Stamped first start area t u))
    (fun _ row column => meets_below_openCell (fun _ p hs => hs.allocate p) row column)
    (fun _ _ hp hlast => meets_below_copyCell hapart hp hlast) width

theorem meets_below_copyHeights (hapart : source = dest → last < start) :
    Meets (Below source dest last t (Stamped first start area t u))
      ((integers first last).forM (copyHeight source dest ((start : Int) - first)))
      (fun _ => Below source dest last t (Stamped first start area t u)) fun _ _ => True := by
  refine Meets.forM (I := fun _ => _) fun before row behind hsplit => Meets.get_bind fun b _ => ?_
  have hmem : row ∈ integers first last := hsplit ▸ List.mem_append_cons_self
  rw [mem_integers] at hmem
  split
  next height _ =>
    refine meets_below hapart (Meets.modify fun _ hs => hs.congr fun _ => rfl)
      (Keeps.modify fun s => s.sameAbove_setHeight height ?_)
    omega
  next => exact Meets.done fun _ hs => hs

/-! ## Merged ranges -/

/-- The cells of a block were copied and these ranges merged over them. -/
def Landed (first start : Nat) (area : Position → Prop) (ranges : List Range) (t u v : Sheet) :
    Prop :=
  ∃ w, Stamped first start area t u w ∧ v = ranges.foldl Sheet.merge w

theorem meets_below_copyMerge (hapart : source = dest → last < start) {ranges : List Range}
    {r : Range} (hr : first ≤ r.minRow) :
    Meets (Below source dest last t (Landed first start area ranges t u))
      (copyMerge dest ((start : Int) - first) r)
      (fun _ => Below source dest last t
        (Landed first start area (ranges ++ [r.shifted first start]) t u))
      fun _ _ => True := by
  refine meets_below hapart ?_ (Sheet.keeps_sameAbove_mergeBounds (by omega) _ _ _)
  rw [Sheet.mergeBounds]
  cases hbounds : Range.ofBounds (r.minRow + ((start : Int) - first)) r.minColumn
      (r.maxRow + ((start : Int) - first)) r.maxColumn with
  | error fault => exact Meets.stop fun _ _ => trivial
  | ok r' =>
    obtain rfl := Range.eq_shifted hr hbounds
    refine Meets.modify ?_
    rintro _ ⟨w, hw, rfl⟩
    exact ⟨w, hw, by rw [List.foldl_append]; rfl⟩

/-- Ranges that were added below a block are not inside it. -/
theorem filter_inside_of_sameAbove (h : t.SameAbove ((last : Int) + 1) v) :
    (v.merged.filter fun r => Inside first last lastColumn r) =
      t.merged.filter fun r => Inside first last lastColumn r := by
  rcases h.merged with ⟨more, hmore, hfrom⟩
  have hnone : more.filter (fun r => Inside first last lastColumn r) = [] := by
    refine List.filter_eq_nil_iff.mpr fun r hr hinside => ?_
    have hbelow := hfrom r hr
    have habove := (of_decide_eq_true hinside).1.2
    have hrow := r.row_le
    omega
  rw [hmore, List.filter_append, hnone, List.append_nil]

/-- Wherever a block is copied to, as long as it is not to its own rows: each cell holds what was
carried to it, and the ranges inside the block are merged over the copy. -/
theorem landed_of_copyBlock (hapart : source = dest → last < start) (hfirst : 1 ≤ first)
    (hrows : first ≤ last) (hcolumns : 1 ≤ lastColumn) (hsource : source < b.sheets.length)
    (hdest : dest < b.sheets.length)
    (hrun : (copyBlock source first last dest start lastColumn).run b = .ok () b') :
    let t := b.sheet source
    dest < b'.sheets.length ∧ Landed first start (block first last (min lastColumn t.maxColumn))
      (copiedRanges first last lastColumn start t) t (b.sheet dest) (b'.sheet dest) := by
  intro t
  let u := b.sheet dest
  let width := min lastColumn t.maxColumn
  have hcopy : Meets (· = b) (copyBlock source first last dest start lastColumn)
      (fun _ => Below source dest last t (Landed first start (block first last width)
        (copiedRanges first last lastColumn start t) t u)) fun _ _ => True := by
    rw [copyBlock_eq hfirst hrows hcolumns]
    refine Meets.get_bind fun found hfound => ?_
    subst hfound
    have hstart : Below source dest last t (Stamped first start (fun _ => False) t u) found :=
      ⟨hsource, hdest, .refl _ t, .refl first start t u⟩
    refine Meets.bind ((meets_below_copyRows hapart width).conseq_pre fun _ hs => hs ▸ hstart)
      fun _ => ?_
    refine Meets.bind (meets_below_copyHeights hapart) fun _ => Meets.get_bind fun b' hb' => ?_
    dsimp only
    rw [filter_inside_of_sameAbove hb'.source]
    refine Meets.conseq_pre (meets_copyMerges_of (A := fun done => Below source dest last t
      (Landed first start (block first last width) done t u)) _ fun done r _ hr _ => ?_)
      fun _ hs => hs.mono_dest fun v hv => ⟨v, hv, rfl⟩
    exact meets_below_copyMerge hapart hr
  have hends := hcopy.of_ok rfl hrun
  exact ⟨hends.dest_lt, hends.dest⟩

/-! ## What counts as content -/

/-- A value that is carried along still counts as content, the equals sign alone excepted. -/
theorem isUsed_carried {origin dest : Position} {value : Value} {d : Datum}
    (h : carried origin dest value = .ok d) :
    (Value.ofDatum d).isUsed = true ↔ value.isUsed = true ∧ value ≠ .text "=" := by
  rw [carried.eq_def] at h
  split at h
  next => cases h
  cases value with
  | text s =>
    dsimp only at h
    cases hmoved : Formula.relocate origin dest s.toList with
    | error e =>
      rw [hmoved] at h
      cases h
    | ok moved =>
      rw [hmoved] at h
      cases h
      -- besides the empty text only the bare `=` comes out empty
      have hempty : String.ofList moved = "" ↔ s = "" ∨ s = "=" := by
        have hnil : Formula.relocate origin dest s.toList = .ok [] ↔ _ :=
          Formula.relocate_eq_nil_iff
        rw [hmoved, Except.ok.injEq] at hnil
        rw [← String.toList_inj, String.toList_ofList, ← String.toList_inj, ← String.toList_inj]
        exact hnil
      rw [Value.isUsed_ofDatum_text, Value.isUsed_text, ne_eq, hempty, not_or, ne_eq, ne_eq,
        Value.text.injEq]
  | _ =>
    cases h
    simp [Value.datum, Value.ofDatum, Value.isUsed]

/-- The ranges of a copy cover the place of a cell where those of the block cover the cell. -/
theorem forall_copiedRanges_iff (hp : first ≤ p.row) :
    (∀ r ∈ copiedRanges first last lastColumn start t, shifted first start p ∉ r.rest) ↔
      ∀ r ∈ t.merged, Inside first last lastColumn r → p ∉ r.rest := by
  constructor
  · intro h r hr hinside hmem
    exact h _ (mem_copiedRanges.mpr ⟨r, hr, hinside, rfl⟩)
      ((mem_rest_shifted hinside.1.1 hp).mpr hmem)
  · intro h r' hr' hmem
    rcases mem_copiedRanges.mp hr' with ⟨r, hr, hinside, rfl⟩
    exact h r hr hinside ((mem_rest_shifted hinside.1.1 hp).mp hmem)

namespace Landed

variable {ranges : List Range}

/-- It does not matter how the two sheets are allocated. -/
theorem of_alike {t' u' : Sheet} (h : Landed first start area ranges t' u' v) (ht : t.Alike t')
    (hu : u.Alike u') : Landed first start area ranges t u v := by
  rcases h with ⟨w, hw, rfl⟩
  exact ⟨w, hw.of_alike ht hu, rfl⟩

/-- Outside of the copy no cell comes into use. -/
theorem isUsed_other (h : Landed first start area ranges t u v)
    (hq : ∀ p, area p → shifted first start p ≠ q) (hused : (v.value q).isUsed = true) :
    (u.value q).isUsed = true := by
  rcases h with ⟨w, hw, rfl⟩
  have hcontent := Sheet.content_foldl_merge w ranges q
  split at hcontent
  next =>
    rw [Sheet.value_of_covered hcontent] at hused
    cases hused
  next => rwa [Sheet.value_of_content_eq hcontent, Sheet.value, hw.other q hq] at hused

/-- A cell of the copy that was not in use before is in use if the one in the block is, unless
nothing is left of it or a range of the copy covers it. -/
theorem isUsed_iff (h : Landed first start area ranges t u v) (hp : area p)
    (hold : (u.value (shifted first start p)).isUsed = false) :
    (v.value (shifted first start p)).isUsed = true ↔
      (t.value p).isUsed = true ∧ t.value p ≠ .text "=" ∧
        ∀ r ∈ ranges, shifted first start p ∉ r.rest := by
  rcases h with ⟨w, hw, rfl⟩
  have hcontent := Sheet.content_foldl_merge w ranges (shifted first start p)
  split at hcontent
  next hcovered =>
    rcases hcovered with ⟨r, hr, hmem⟩
    rw [Sheet.value_of_covered hcontent]
    exact iff_of_false Bool.false_ne_true fun hall => hall.2.2 r hr hmem
  next hfree =>
    have hranges : ∀ r ∈ ranges, shifted first start p ∉ r.rest :=
      fun r hr hmem => hfree ⟨r, hr, hmem⟩
    rw [Sheet.value_of_content_eq hcontent]
    cases hc : (t.cell p).isCovered with
    | true =>
      -- a covered cell is blank, and nothing is put in its place
      have hblank : t.value p = .blank := Sheet.value_of_covered (of_decide_eq_true hc)
      rw [Sheet.value, hw.skipped p hp hc, ← Sheet.value, hold, hblank]
      exact iff_of_false Bool.false_ne_true fun hall => Bool.false_ne_true hall.1
    | false =>
      rcases hw.content p hp hc with ⟨d, hd, hentered⟩
      rw [Sheet.value, Cell.value_of_content hentered, isUsed_carried hd]
      exact ⟨fun hkept => ⟨hkept.1, hkept.2, hranges⟩, fun hall => ⟨hall.1, hall.2.1⟩⟩

end Landed

end Workbook

end Sheetwright
