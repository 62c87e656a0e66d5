import Sheetwright.Proofs.Run.Block
/-!
# How pasted blocks look

A cell takes its look along where it is copied to, but a cell without a look of its own leaves the
one that it finds there, and so does a row without a height. So a block looks like the template if
the rows that it is pasted to are plain, and not in general (`not_looksLike`): the last row in use
is the last one that holds a value, and rows below it may have a look. `blocks_dressed` says how
each copied cell and each pasted row looks, whatever was there before.
-/

namespace Sheetwright

open Grid Operation

namespace Grid

theorem Style.eq_default_of_isSet {style : Style} (h : style.isSet = false) : style = {} := by
  rwa [Style.isSet, decide_eq_false_iff_not, not_not] at h

/-- A look with the lines at the right and at the bottom of another one where it has none. -/
def Style.closedBy (style corner : Style) : Style :=
  { style with
    border := style.border.orElse { right := corner.border.right, bottom := corner.border.bottom } }

theorem Style.closedBy_default (style : Style) : style.closedBy {} = style := by
  rw [closedBy]
  exact congrArg (fun border => { style with border }) style.border.orElse_none

theorem Style.closedBy_self (style : Style) : style.closedBy style = style := by
  have hborder : style.border.orElse
      { right := style.border.right, bottom := style.border.bottom } = style.border := by
    have hside (side : Option String) : (side <|> none) = side ∧ (side <|> side) = side := by
      cases side <;> exact ⟨rfl, rfl⟩
    rw [Border.orElse, (hside _).1, (hside _).2, (hside _).1, (hside _).2]
  rw [closedBy, hborder]

end Grid

namespace Workbook

variable {first last start lastColumn width : Nat} {t u v w : Sheet} {p : Position} {r : Range}
  {rows : Nat → Prop}

theorem worn_default (c : Cell) : worn c {} = c.style := by
  rw [worn]
  split
  next => rfl
  next h => exact (Style.eq_default_of_isSet (Bool.not_eq_true _ ▸ h)).symm

/-- How the place of a cell looks once the cells of a block are copied, and before its ranges are
merged. -/
def coat (first last width start : Nat) (t u : Sheet) (p : Position) : Style :=
  if block first last width p ∧ (t.cell p).isCovered = false then
    worn (t.cell p) (u.cell (shifted first start p)).style
  else (u.cell (shifted first start p)).style

theorem Imprinted.style_eq_coat
    (h : Imprinted first start (block first last width) rows t u w) (hp : first ≤ p.row) :
    (w.cell (shifted first start p)).style = coat first last width start t u p := by
  rw [coat]
  split
  next hcopied => exact h.style p hcopied.1 hcopied.2
  next hleft =>
    by_cases hblock : block first last width p
    · rw [h.skipped p hblock (Bool.of_not_eq_false fun hc => hleft ⟨hblock, hc⟩)]
    · rw [h.cell_eq hp hblock]

/-- The places of a block in the copy, seen from a range of the copy. -/
theorem mem_positions_of_shifted {r' : Range} (hr : r' ∈ copiedRanges first last lastColumn start t)
    (hp : first ≤ p.row) (h : shifted first start p ∈ r'.positions) :
    ∃ r ∈ t.merged, Inside first last lastColumn r ∧ p ∈ r.positions := by
  rcases mem_copiedRanges.mp hr with ⟨r, hmem, hinside, rfl⟩
  exact ⟨r, hmem, hinside, (mem_positions_shifted hinside.1.1 hp).mp h⟩

/-- Outside of the ranges that were merged the look is that of the copied cell. -/
theorem Overlaid.style_of_not_mem
    (h : Overlaid first start (block first last width) rows t u
      (copiedRanges first last lastColumn start t) v) (hp : first ≤ p.row)
    (hapart : ∀ r ∈ t.merged, Inside first last lastColumn r → p ∉ r.positions) :
    (v.cell (shifted first start p)).style = coat first last width start t u p := by
  rcases h with ⟨w, hw, rfl⟩
  rw [Sheet.cell_foldl_merge_of_not_mem, hw.style_eq_coat hp]
  intro r' hr' hmem
  rcases mem_positions_of_shifted hr' hp hmem with ⟨r, hr, hinside, hpr⟩
  exact hapart r hr hinside hpr

/-- The anchor of a range takes over lines from the place of its last cell. -/
theorem Overlaid.style_anchor
    (h : Overlaid first start (block first last width) rows t u
      (copiedRanges first last lastColumn start t) v)
    (hdisjoint : t.merged.Pairwise Range.Disjoint) (hr : r ∈ t.merged)
    (hinside : Inside first last lastColumn r) :
    (v.cell (shifted first start r.anchor)).style =
      (coat first last width start t u r.anchor).closedBy
        (coat first last width start t u r.corner) := by
  rcases h with ⟨w, hw, rfl⟩
  have hmem : r.shifted first start ∈ copiedRanges first last lastColumn start t :=
    mem_copiedRanges.mpr ⟨r, hr, hinside, rfl⟩
  have hrow := r.row_le
  have hanchor : (w.cell (shifted first start r.anchor)).style = _ :=
    hw.style_eq_coat (p := r.anchor) hinside.1.1
  have hcorner : (w.cell (shifted first start r.corner)).style = _ :=
    hw.style_eq_coat (p := r.corner) (Nat.le_trans hinside.1.1 hrow)
  have hmerge := Sheet.cell_foldl_merge_anchor (s := w)
    (pairwise_disjoint_copiedRanges hdisjoint) hmem
  rw [← hanchor, ← hcorner]
  exact congrArg Cell.style hmerge

/-- How the target looks once a block was pasted to it: what the block leaves open is as it was. -/
structure Dressed (first last lastColumn width start : Nat) (t u v : Sheet) : Prop where
  height : ∀ row, first ≤ row → row ≤ last →
    v.heights[start + (row - first)]? = t.heights[row]?.or u.heights[start + (row - first)]?
  style : ∀ p, block first last width p → (t.cell p).isCovered = false →
    (∀ r ∈ t.merged, Inside first last lastColumn r → p ∉ r.positions) →
      (v.cell (shifted first start p)).style =
        worn (t.cell p) (u.cell (shifted first start p)).style
  anchor : t.merged.Pairwise Range.Disjoint → ∀ r ∈ t.merged, Inside first last lastColumn r →
    (v.cell (shifted first start r.anchor)).style =
      (coat first last width start t u r.anchor).closedBy (coat first last width start t u r.corner)

theorem Overlaid.dressed
    (h : Overlaid first start (block first last width) (fun row => first ≤ row ∧ row ≤ last) t u
      (copiedRanges first last lastColumn start t) v) :
    Dressed first last lastColumn width start t u v where
  height row hlow hhigh := h.height_eq ⟨hlow, hhigh⟩
  style p hp hc hapart := by
    rw [h.style_of_not_mem hp.1.1 hapart, coat, if_pos ⟨hp, hc⟩]
  anchor hdisjoint _ hr hinside := h.style_anchor hdisjoint hr hinside

/-! ## Plain rows -/

/-- No cell and no row from one row to another was given a look of its own. -/
structure PlainRows (u : Sheet) (first last : Nat) : Prop where
  style : ∀ p : Position, first ≤ p.row → p.row ≤ last → (u.cell p).style = {}
  height : ∀ row, first ≤ row → row ≤ last → u.heights[row]? = none

/-- The merged ranges are as they are in a file that was opened: no two share a cell, and all cells
of a range but the anchor are covered. -/
structure Covering (t : Sheet) : Prop where
  disjoint : t.merged.Pairwise Range.Disjoint
  covered : ∀ r ∈ t.merged, ∀ p ∈ r.rest, (t.cell p).isCovered = true

/-- The copy of a block looks like the block: each copied cell and each row. -/
structure LooksLike (first last width start : Nat) (t v : Sheet) : Prop where
  height : ∀ row, first ≤ row → row ≤ last → v.heights[start + (row - first)]? = t.heights[row]?
  style : ∀ p, block first last width p → (t.cell p).isCovered = false →
    (v.cell (shifted first start p)).style = (t.cell p).style

/-- In plain rows a block looks like the template. -/
theorem Dressed.looksLike (h : Dressed first last lastColumn width start t u v)
    (ht : Covering t) (hplain : PlainRows u start (start + (last - first))) :
    LooksLike first last width start t v := by
  have hbare (p : Position) (hlow : first ≤ p.row) (hhigh : p.row ≤ last) :
      (u.cell (shifted first start p)).style = {} :=
    hplain.style _ (Nat.le_add_right _ _) (by simp only [shifted]; omega)
  refine ⟨fun row hlow hhigh => ?_, fun p hp hc => ?_⟩
  · rw [h.height row hlow hhigh, hplain.height _ (Nat.le_add_right _ _) (by omega),
      Option.or_none]
  · by_cases hmem : ∃ r ∈ t.merged, Inside first last lastColumn r ∧ p ∈ r.positions
    · rcases hmem with ⟨r, hr, hinside, hpr⟩
      have hrow := r.row_le
      -- of the cells of a range only the anchor is copied
      obtain rfl : p = r.anchor := by
        by_contra hne
        rw [ht.covered r hr p (Range.mem_rest.mpr ⟨hpr, hne⟩)] at hc
        cases hc
      have hanchor : coat first last width start t u r.anchor = (t.cell r.anchor).style := by
        rw [coat, if_pos ⟨hp, hc⟩, hbare r.anchor hp.1.1 hp.1.2, worn_default]
      rw [h.anchor ht.disjoint r hr hinside, hanchor]
      by_cases hsingle : r.corner = r.anchor
      · rw [hsingle, hanchor, Style.closedBy_self]
      · have hcorner := ht.covered r hr r.corner (Range.mem_rest.mpr ⟨r.corner_mem, hsingle⟩)
        have hlast : coat first last width start t u r.corner = {} := by
          rw [coat, if_neg fun h => by simp [hcorner] at h]
          exact hbare r.corner (Nat.le_trans hinside.1.1 hrow) hinside.1.2
        rw [hlast, Style.closedBy_default]
    · rw [h.style p hp hc fun r hr hinside hpr => hmem ⟨r, hr, hinside, hpr⟩,
        hbare p hp.1.1 hp.1.2, worn_default]

end Workbook

namespace Run

open Workbook

variable {ρ : Type} {layout : Layout} {commit : Session.Action ρ Unit}

/-- Right after a block without driver and assumptions was processed, each cell and each row of it
looks in the target as in the template, or as the target looked there before if the template leaves
it open; a range takes lines from the place of its last cell. If the rows it was pasted to were
plain, the block looks like the template. -/
theorem blocks_dressed (hcommit : Harmless commit) (layout : Layout) (codes : List Code)
    (s : Session ρ) {i : Nat} {c : Code} (hc : codes[i]? = some c) (hdriver : c.driver = "")
    (hassumptions : c.assumptionValues = [])
    (hplaced : verdict (Session.document commit) layout
      (upTo (Session.document commit) layout codes s i).1 i c
      (upTo (Session.document commit) layout codes s i).2 = .ok .block) :
    let before := upTo (Session.document commit) layout codes s i
    let behind := upTo (Session.document commit) layout codes s (i + 1)
    ∃ name t u v first last,
      before.1.target = some name ∧
      before.2.workbook.titled? layout.templateSheet = some t ∧
      before.2.workbook.titled? name = some u ∧
      behind.2.workbook.titled? name = some v ∧
      t.tagged? layout.tagColumn c.baseType = some (first, last) ∧
      Dressed first last layout.lastColumn (min layout.lastColumn t.maxColumn) (u.lastUsed + 1)
        t u v ∧
      (Covering t → PlainRows u (u.lastUsed + 1) (u.lastUsed + 1 + (last - first)) →
        LooksLike first last (min layout.lastColumn t.maxColumn) (u.lastUsed + 1) t v) := by
  intro before behind
  rcases of_verdict_block _ _ hplaced with ⟨hblock, name, hname, hplace⟩
  rcases stands_of_placed hplace with ⟨p, q, t, u, ht, hu⟩
  have hbehind : behind.2.workbook =
      (after (placeBlock (Session.document commit) layout name c) before.2).workbook := by
    have hstep : behind = _ := upTo_succ (Session.document commit) layout hc s
    rw [hstep]
    exact hcommit.workbook_step_block hblock hname i
  have hrun := blockRun_placeBlock commit (target_ne_template hname).symm ht hu c
  have hv := hu.of_titles_eq (titles_placeBlock layout commit name c before.2)
  rw [hplace] at hrun
  rw [← hbehind] at hrun hv
  cases hrun with
  | copied hfound hw _ hsame =>
    obtain rfl := hsame hdriver hassumptions
    have hdressed := Overlaid.dressed hw
    exact ⟨name, t, u, _, _, _, hname, ht.titled?_eq, hu.titled?_eq, hv.titled?_eq, hfound,
      hdressed, hdressed.looksLike⟩

/-- A template whose head ends with a blank row that is high and bold. -/
def ruled : Sheet :=
  let text (word : String) : Cell := ⟨.entry .text (.text word), {}⟩
  let s := ({ title := "Codes" } : Sheet).putCell ⟨1, 1⟩ (text "Title")
  let s := s.putCell ⟨2, 1⟩ ⟨.entry .number .blank, { font := some { bold := true } }⟩
  ((s.setHeight 2 (some 30)).putCell ⟨9, 1⟩ (text "Item")).putCell ⟨9, 4⟩ (text "BR")

/-- A workbook with that template. -/
def ruledSession : Session Files.Tree := ⟨⟨[ruled]⟩, {}⟩

/-- What a tab and a break come to up to some point. -/
def ruledRun (i : Nat) : Progress × Session Files.Tree :=
  upTo (Session.document (Command.commit "")) default [tabCode "A", breakCode] ruledSession i

theorem verdict_ruledRun :
    verdict (Session.document (Command.commit "")) {} (ruledRun 1).1 1 breakCode (ruledRun 1).2 =
      .ok .block := by
  decide +kernel

theorem exists_template_ruledRun : ∃ t, (ruledRun 1).2.workbook.titled? "Codes" = some t ∧
    t.tagged? 4 "BR" = some (9, 9) ∧ t.maxColumn = 4 ∧ t.merged = [] ∧
      (t.cell ⟨9, 1⟩).isCovered = false ∧ (t.cell ⟨9, 1⟩).style.font.isSome = false := by
  have hfacts : ((ruledRun 1).2.workbook.titled? "Codes").map (fun t => (t.tagged? 4 "BR",
      t.maxColumn, t.merged, (t.cell ⟨9, 1⟩).isCovered, (t.cell ⟨9, 1⟩).style.font.isSome)) =
        some (some (9, 9), 4, [], false, false) := by
    decide +kernel
  rcases Option.map_eq_some_iff.mp hfacts with ⟨t, ht, hfacts⟩
  simp only [Prod.mk.injEq] at hfacts
  exact ⟨t, ht, hfacts⟩

theorem exists_target_ruledRun :
    ∃ u, (ruledRun 1).2.workbook.titled? "A" = some u ∧ u.lastUsed = 1 := by
  have hfacts : ((ruledRun 1).2.workbook.titled? "A").map (·.lastUsed) = some 1 := by
    decide +kernel
  exact Option.map_eq_some_iff.mp hfacts

/-- The item is pasted to the bold row of the head and is bold there. -/
theorem blocks_dressed_ruled :
    let codes := [tabCode "A", breakCode]
    Harmless (Command.commit "") ∧ codes[1]? = some breakCode ∧ breakCode.driver = "" ∧
      breakCode.assumptionValues = [] ∧
      verdict (Session.document (Command.commit "")) {} (ruledRun 1).1 1 breakCode
        (ruledRun 1).2 = .ok .block ∧
      ∃ t u v, (ruledRun 1).2.workbook.titled? "Codes" = some t ∧
        (ruledRun 1).2.workbook.titled? "A" = some u ∧
        (ruledRun 2).2.workbook.titled? "A" = some v ∧
        (v.cell ⟨2, 1⟩).style = worn (t.cell ⟨9, 1⟩) (u.cell ⟨2, 1⟩).style ∧
        v.heights[2]? = t.heights[9]?.or u.heights[2]? := by
  intro codes
  have hcommit := harmless_commit ""
  have hassumptions : breakCode.assumptionValues = [] := by
    decide +kernel
  refine ⟨hcommit, rfl, rfl, hassumptions, verdict_ruledRun, ?_⟩
  rcases blocks_dressed hcommit {} codes ruledSession (i := 1) rfl rfl hassumptions
    verdict_ruledRun with ⟨name, t, u, v, first, last, hname, ht, hu, hv, hfound, hdressed, -⟩
  have hreached : upTo (Session.document (Command.commit "")) {} codes ruledSession (1 + 1) =
      ruledRun 2 := rfl
  rw [hreached] at hv
  rcases exists_template_ruledRun with ⟨t', ht', hfound', hwidth, hmerged, hcovered, -⟩
  rcases exists_target_ruledRun with ⟨u', hu', hlast⟩
  have hname' : (ruledRun 1).1.target = some "A" := by
    decide +kernel
  obtain rfl : "A" = name := Option.some.inj (hname'.symm.trans hname)
  obtain rfl : t' = t := Option.some.inj (ht'.symm.trans ht)
  obtain rfl : u' = u := Option.some.inj (hu'.symm.trans hu)
  cases hfound'.symm.trans hfound
  rw [hlast, hwidth] at hdressed
  have hplace : shifted 9 (1 + 1) ⟨9, 1⟩ = ⟨2, 1⟩ := rfl
  have hstyle := hdressed.style ⟨9, 1⟩ (by decide) hcovered
  have hheight := hdressed.height 9 (Nat.le_refl 9) (Nat.le_refl 9)
  rw [hplace, hmerged] at hstyle
  rw [Nat.sub_self] at hheight
  exact ⟨t', u', v, ht', hu', hv, hstyle nofun, hheight⟩

/-- The template leaves the look of the item open, and in the target the item does not look so. -/
theorem not_looksLike :
    breakCode.driver = "" ∧ breakCode.assumptionValues = [] ∧
      verdict (Session.document (Command.commit "")) {} (ruledRun 1).1 1 breakCode
        (ruledRun 1).2 = .ok .block ∧
      ∃ t u v, (ruledRun 1).2.workbook.titled? "Codes" = some t ∧
        (ruledRun 1).2.workbook.titled? "A" = some u ∧
        (ruledRun 2).2.workbook.titled? "A" = some v ∧
        t.tagged? 4 "BR" = some (9, 9) ∧
        ¬LooksLike 9 9 (min 102 t.maxColumn) (u.lastUsed + 1) t v := by
  refine ⟨rfl, by decide +kernel, verdict_ruledRun, ?_⟩
  rcases exists_template_ruledRun with ⟨t, ht, hfound, hwidth, -, hcovered, hplain⟩
  rcases exists_target_ruledRun with ⟨u, hu, hlast⟩
  have hbold : ((ruledRun 2).2.workbook.titled? "A").map
      (fun v => (v.cell ⟨2, 1⟩).style.font.isSome) = some true := by
    decide +kernel
  rcases Option.map_eq_some_iff.mp hbold with ⟨v, hv, hbold⟩
  refine ⟨t, u, v, ht, hu, hv, hfound, fun halike => ?_⟩
  rw [hlast, hwidth] at halike
  have hstyle : (v.cell ⟨2, 1⟩).style = (t.cell ⟨9, 1⟩).style :=
    halike.style ⟨9, 1⟩ (by decide) hcovered
  rw [hstyle, hplain] at hbold
  cases hbold

end Run

end Sheetwright
