import Sheetwright.Proofs.Formula.Growth
import Sheetwright.Proofs.Workbook.Imprinting
/-!
# Blocks copied across sheets

A block that is copied to another sheet, to rows that no merged range of that sheet touches, is
found there: every cell that is not covered holds what was carried to it, the ranges inside the
block are merged at their new place, the rows have the heights of the block where it has some, and
everything outside of these rows is as before (`copyBlock_across`). What a cell holds is what it can
hold: a formula that moves into rows of more digits may come to be longer than a cell, and is cut
(`not_all_faithful`).
-/

namespace Sheetwright

open Grid Operation

namespace Workbook

variable {b b' : Workbook} {source dest first last start lastColumn : Nat}

/-! ## The copy -/

/-- If no range lies in the rows that a block is copied to, its ranges are noted there, each of them
or one that covers it, and all of them if none covers a later one. -/
theorem exists_noted_copiedRanges {t : Sheet} {merged : List Range} (lastColumn : Nat)
    (hclear : ∀ r ∈ merged, r.maxRow < start ∨ start + (last - first) < r.minRow) :
    ∃ more, (copiedRanges first last lastColumn start t).foldl Sheet.noted merged =
        merged ++ more ∧
      more.Sublist (copiedRanges first last lastColumn start t) ∧
      (∀ r ∈ copiedRanges first last lastColumn start t, ∃ r' ∈ more, r'.covers r = true) ∧
      (t.merged.Pairwise (fun r r' => r.covers r' = false) →
        more = copiedRanges first last lastColumn start t) := by
  -- a range that was there before lies elsewhere
  have hapart : ∀ r ∈ copiedRanges first last lastColumn start t, ∀ r' ∈ merged,
      r'.covers r = false := by
    intro r hr r' hr'
    rw [← Bool.not_eq_true]
    intro hcovers
    have hanchor := Range.mem_positions.mp (Range.anchor_mem_of_covers hcovers)
    have hbounds := rows_of_mem_copiedRanges hr
    have hrow := r.row_le
    have hfirst : r.anchor.row = r.minRow := rfl
    rcases hclear r' hr' with habove | hbelow
    · omega
    · omega
  rcases Sheet.exists_foldl_noted merged (copiedRanges first last lastColumn start t) with
    ⟨more, hsub, heq, hcovers⟩
  refine ⟨more, heq, hsub, fun r hr => ?_, fun hnested => ?_⟩
  · rcases hcovers r hr with ⟨r', hr', hcover⟩
    refine ⟨r', (List.mem_append.mp hr').resolve_left fun hold => ?_, hcover⟩
    rw [hapart r hr r' hold] at hcover
    cases hcover
  · have hpairs : (copiedRanges first last lastColumn start t).Pairwise fun r r' =>
        r.covers r' = false :=
      pairwise_copiedRanges (fun r r' hr hr' h => (covers_shifted hr hr').trans h) hnested
    rw [Sheet.foldl_noted_of_apart hapart hpairs] at heq
    exact (List.append_cancel_left heq).symm

/-- Whenever a block is copied to rows of another sheet that no merged range touches: each cell of
it that is not covered holds at its new place what was carried there, as far as a cell holds it; the
ranges inside the block are merged there, where a range inside another one is not noted again; the
rows have the heights that the block gives them; and outside of these rows, in the ranges that were
there before, in the source and in all other sheets nothing has changed. -/
theorem copyBlock_across (hne : source ≠ dest) (hsource : source < b.sheets.length)
    (hdest : dest < b.sheets.length) (hfirst : 1 ≤ first) (hrows : first ≤ last)
    (hcolumns : 1 ≤ lastColumn)
    (hclear : ∀ r ∈ (b.sheet dest).merged, r.maxRow < start ∨ start + (last - first) < r.minRow)
    (hrun : (copyBlock source first last dest start lastColumn).run b = .ok () b') :
    let t := b.sheet source
    let u := b.sheet dest
    let v := b'.sheet dest
    (∀ p, block first last (min lastColumn t.maxColumn) p → (t.cell p).isCovered = false →
      (∀ r ∈ t.merged, Inside first last lastColumn r → p ∉ r.rest) →
        ∃ d, carried p (shifted first start p) (t.value p) = .ok d ∧
          v.value (shifted first start p) = .ofDatum d) ∧
    (∃ more, v.merged = u.merged ++ more ∧
      more.Sublist (copiedRanges first last lastColumn start t) ∧
      (∀ r ∈ copiedRanges first last lastColumn start t, ∃ r' ∈ more, r'.covers r = true) ∧
      (t.merged.Pairwise (fun r r' => r.covers r' = false) →
        more = copiedRanges first last lastColumn start t)) ∧
    (∀ row, first ≤ row → row ≤ last → v.heights[start + (row - first)]? =
      t.heights[row]?.or u.heights[start + (row - first)]?) ∧
    (∀ q : Position, q.row < start ∨ start + (last - first) < q.row →
      v.cell q = u.cell q ∧ v.heights[q.row]? = u.heights[q.row]?) ∧
    t.Alike (b'.sheet source) ∧ ∀ i, i ≠ source → i ≠ dest → b'.sheets[i]? = b.sheets[i]? := by
  intro t u v
  have hends := (meets_copyBlock_imprint hne hfirst hrows hcolumns hsource hdest).of_ok rfl hrun
  have hv : Overlaid first start _ (fun n => first ≤ n ∧ n ≤ last) t u _ v := hends.dest
  have hothers := (keeps_filledFrom_copyBlock hne first last lastColumn).of_ok hrun
  refine ⟨fun p hp hc hrest => hv.value_eq hp hc ?_, ?_, fun row hlow hhigh => ?_,
    fun q hq => ⟨hv.cell_other ?_ ?_, hv.height_other fun row hrow heq => by omega⟩, hends.source,
    hothers.other⟩
  · -- no range that is merged afterwards covers the cell
    intro r hr hmem
    rcases mem_copiedRanges.mp hr with ⟨r', hr', hinside, rfl⟩
    exact hrest r' hr' hinside ((mem_rest_shifted hinside.1.1 hp.1.1).mp hmem)
  · rcases exists_noted_copiedRanges (t := t) lastColumn hclear with ⟨more, heq, hmore⟩
    exact ⟨more, hv.merged_eq.trans heq, hmore⟩
  · exact hv.height_eq ⟨hlow, hhigh⟩
  · rintro p hp rfl
    obtain ⟨⟨hlow, hhigh⟩, -⟩ := hp
    simp only [shifted] at hq
    omega
  · intro r hr hmem
    have hbounds := rows_of_mem_copiedRanges hr
    have hrow := Range.mem_positions.mp hmem
    omega

/-- A text beside a merged range, above a row with a height of its own. -/
def labelled : Sheet :=
  let s : Sheet := { title := "Codes" }
  ((s.putCell ⟨1, 1⟩ ⟨.entry .text (.text "Sum"), {}⟩).setHeight 2 (some 30)).merge
    (.reaching 1 2 1 1)

/-- Nine rows further down the text, the range and the height are found again. -/
theorem copyBlock_across_labelled :
    let b : Workbook := ⟨[labelled, { title := "A" }]⟩
    let b' := after (copyBlock 0 1 2 1 10 3) b
    (copyBlock 0 1 2 1 10 3).run b = .ok () b' ∧
      (b'.sheet 1).value ⟨10, 1⟩ = .text "Sum" ∧
      (b'.sheet 1).merged = [.reaching 10 2 1 1] ∧
      (b'.sheet 1).heights[11]? = labelled.heights[2]? ∧
      (b'.sheet 1).cell ⟨12, 1⟩ = {} := by
  intro b b'
  have hreturns : outcome (copyBlock 0 1 2 1 10 3) b = .ok () := by
    decide +kernel
  have hrun : (copyBlock 0 1 2 1 10 3).run b = .ok () b' := by
    rw [run_eq_ending, hreturns]
    rfl
  have hclear : ∀ r ∈ (b.sheet 1).merged, r.maxRow < 10 ∨ 10 + (2 - 1) < r.minRow := by
    decide
  obtain ⟨hvalues, ⟨more, hmerged, -, -, hmore⟩, hheights, hother, -⟩ :=
    copyBlock_across (by decide : 0 ≠ 1) (by decide) (by decide) (by decide : 1 ≤ 1)
      (by decide : 1 ≤ 2) (by decide : 1 ≤ 3) hclear hrun
  refine ⟨hrun, ?_, ?_, (hheights 2 (by decide) (by decide)).trans Option.or_none,
    (hother ⟨12, 1⟩ (by decide)).1⟩
  · rcases hvalues ⟨1, 1⟩ (by decide +kernel) (by decide +kernel) (by decide +kernel) with
      ⟨d, hd, hvalue⟩
    have hkept : Except.ok (.text "Sum") = Except.ok (ε := Fault) d := hd
    cases hkept
    exact hvalue
  · rw [hmerged, hmore (by decide +kernel)]
    decide +kernel

/-! ## Copies that differ from the block -/

/-- A sum that is as long as a cell holds. -/
def fullSum : List Char := '=' :: (['B', '1'] ++ '+' :: List.replicate 32763 'x')

/-- The sum nine rows further down. -/
def movedSum : List Char := '=' :: (['B', '1', '0'] ++ '+' :: List.replicate 32763 'x')

theorem relocate_fullSum : Formula.relocate ⟨1, 1⟩ ⟨10, 1⟩ fullSum = .ok movedSum := by
  refine Formula.relocate_sum (fun c hc => ?_) ?_
  · rw [List.eq_of_mem_replicate hc]
    decide
  · rw [List.length_replicate]
    decide

theorem length_movedSum : (String.ofList movedSum).length = Cell.textLimit + 1 := by
  rw [String.length_ofList, movedSum, List.length_cons, List.length_append,
    List.length_cons (a := '+'), List.length_replicate]
  rfl

theorem carried_fullSum : carried ⟨1, 1⟩ ⟨10, 1⟩ (.text (String.ofList fullSum)) =
    .ok (.text (String.ofList movedSum)) := by
  rw [carried, if_neg (by decide), String.toList_ofList, relocate_fullSum]

theorem enters_movedSum :
    Cell.Enters (.text (String.ofList movedSum)) (.text (Cell.cut (String.ofList movedSum))) := by
  refine Cell.enters_text (Cell.any_isIllegal_cut fun c hc => ?_)
  simp only [String.toList_ofList, movedSum, List.mem_cons, List.mem_append,
    List.mem_replicate, List.not_mem_nil, or_false] at hc
  rcases hc with rfl | (rfl | rfl | rfl) | rfl | ⟨-, rfl⟩ <;> decide

/-- A sheet that holds one cell. -/
def single (c : Cell) : Sheet := ({ title := "Codes" } : Sheet).putCell ⟨1, 1⟩ c

/-- A workbook with one full cell, and a sheet to copy it to. -/
def full : Workbook :=
  ⟨[single ⟨.entry .formula (.text (String.ofList fullSum)), {}⟩, { title := "A" }]⟩

/-- What is found of the sum is what a cell holds of it. -/
theorem exists_copyBlock_full : ∃ b', (copyBlock 0 1 1 1 10 1).run full = .ok () b' ∧
    (b'.sheet 1).value ⟨10, 1⟩ = .text (Cell.cut (String.ofList movedSum)) := by
  have hmovable : ∀ origin : Position, 1 ≤ origin.row → origin.row ≤ 1 → 1 ≤ origin.column →
      origin.column ≤ min 1 (full.sheet 0).maxColumn →
        Movable (full.sheet 0) (full.sheet 1) ((10 : Nat) - (1 : Nat))
          (fun _ => .text (Cell.cut (String.ofList movedSum))) origin (shifted 1 10 origin) := by
    rintro ⟨row, column⟩ hlow hhigh hleft hright
    obtain rfl : row = 1 := Nat.le_antisymm hhigh hlow
    obtain rfl : column = 1 := Nat.le_antisymm (Nat.le_trans hright (Nat.min_le_left _ _)) hleft
    exact
      { locate_eq := rfl
        uncovered := rfl
        free := rfl
        enters := ⟨_, carried_fullSum, enters_movedSum⟩ }
  rcases exists_copyBlock (by decide : 0 ≠ 1) (by simp [full]) (by simp [full])
    (by decide : 1 ≤ 1) (by decide : 1 ≤ 1) (by decide) (by decide : 1 ≤ 1) rfl rfl hmovable with
    ⟨b', hrun, hb'⟩
  exact ⟨b', hrun, Cell.value_of_content (hb'.dest.inside ⟨10, 1⟩ ⟨⟨1, 1⟩, by decide⟩)⟩

/-- Two ranges, of which the second lies inside the first, and a sheet to copy them to. -/
def nested : Workbook :=
  ⟨[{ single ⟨.entry .text (.text "Sum"), {}⟩ with
      merged := [.reaching 1 1 0 2, .reaching 1 1 0 1] },
    { title := "A" }]⟩

/-- A copy may differ from its block: a sum that is moved outgrows its cell, a row zero stands for
all rows, so that more rows are filled, and of two ranges of which the second lies inside the first
only the first is noted. -/
theorem not_all_faithful :
    (Formula.relocate ⟨1, 1⟩ ⟨10, 1⟩ fullSum = .ok movedSum ∧
      (full.sheet 0).value ⟨1, 1⟩ = .text (String.ofList fullSum) ∧
      ∃ b', (copyBlock 0 1 1 1 10 1).run full = .ok () b' ∧
        (b'.sheet 1).value ⟨10, 1⟩ ≠ .text (String.ofList movedSum)) ∧
    (outcome (copyBlock 0 0 0 1 10 1) nested = .ok () ∧
      ((after (copyBlock 0 0 0 1 10 1) nested).sheet 1).value ⟨11, 1⟩ = .text "Sum") ∧
    outcome (copyBlock 0 1 1 1 10 3) nested = .ok () ∧
      ((after (copyBlock 0 1 1 1 10 3) nested).sheet 1).merged =
        [.reaching 10 1 0 2] := by
  refine ⟨⟨relocate_fullSum, rfl, ?_⟩, by decide +kernel, by decide +kernel⟩
  rcases exists_copyBlock_full with ⟨b', hrun, hvalue⟩
  refine ⟨b', hrun, ?_⟩
  rw [hvalue, ne_eq, Value.text.injEq]
  intro heq
  have hlength := Cell.length_cut_le (String.ofList movedSum)
  rw [heq, length_movedSum] at hlength
  omega

end Workbook

end Sheetwright
