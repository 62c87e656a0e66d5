import Sheetwright.Proofs.Run.Appending
import Sheetwright.Proofs.Run.Block
import Sheetwright.Proofs.Workbook.Landing
/-!
# How far down a block reaches

The next block goes below the last row in use, so it goes below all rows of a block only if
something is in use in the last of them or further down. `Held` lists what can be in use there: an
assumption, the driver of a block of one row, or something that the row shows in the template and
that is not lost in the copy. `block_reaches_iff` says that the block reaches its last row exactly
then, and that the type in that row is enough, unless it is the equals sign alone, a merged range
covers it, or an empty assumption is written over it.
-/

namespace Sheetwright

open Grid Operation

namespace Run

open Workbook Grid.Sheet

variable {ρ : Type} {layout : Layout} {commit : Session.Action ρ Unit} {target : String} {c : Code}
  {s : Session ρ} {p q first last start : Nat} {t t' u v w z : Sheet}

/-! ## What is written into a block -/

def driverEntries (layout : Layout) (start : Nat) (c : Code) : List (Position × Datum) :=
  if c.driver.isEmpty then [] else [(⟨start, layout.driverColumn⟩, .text c.driver)]

def assumptionEntries (layout : Layout) (start : Nat) (c : Code) : List (Position × Datum) :=
  downColumn start layout.assumptionsColumn (c.assumptionValues.map .text)

/-- What a code writes into its block from a row on. -/
def written (layout : Layout) (start : Nat) (c : Code) : List (Position × Datum) :=
  driverEntries layout start c ++ assumptionEntries layout start c

theorem lastAt_driverEntries (r : Position) :
    lastAt (driverEntries layout start c) r =
      if c.driver ≠ "" ∧ ⟨start, layout.driverColumn⟩ = r then some (.text c.driver) else none := by
  rw [driverEntries]
  by_cases hdriver : c.driver = ""
  · rw [if_pos (String.isEmpty_iff.mpr hdriver), if_neg fun h => h.1 hdriver]
    rfl
  · rw [if_neg (mt String.isEmpty_iff.mp hdriver), lastAt_singleton]
    simp only [ne_eq, hdriver, not_false_eq_true, true_and]
    rfl

theorem lastAt_assumptionEntries (i : Nat) :
    lastAt (assumptionEntries layout start c) ⟨start + i, layout.assumptionsColumn⟩ =
      c.assumptionValues[i]?.map .text := by
  rw [assumptionEntries, lastAt_downColumn, List.getElem?_map]
  cases c.assumptionValues[i]? <;> rfl

theorem exists_of_lastAt_assumptionEntries {r : Position} {d : Datum} (hrow : start ≤ r.row)
    (h : lastAt (assumptionEntries layout start c) r = some d) :
    ∃ i text, r = ⟨start + i, layout.assumptionsColumn⟩ ∧ c.assumptionValues[i]? = some text ∧
      d = .text text := by
  have hcolumn : r.column = layout.assumptionsColumn := by
    by_contra hne
    rw [assumptionEntries, lastAt_downColumn_of_ne hne] at h
    cases h
  have hplace : r = ⟨start + (r.row - start), layout.assumptionsColumn⟩ := by
    rw [← hcolumn, Nat.add_sub_cancel' hrow]
  rw [hplace, lastAt_assumptionEntries, Option.map_eq_some_iff] at h
  obtain ⟨text, htext, rfl⟩ := h
  exact ⟨r.row - start, text, hplace, htext, rfl⟩

/-- No assumption goes to a cell in another column or below the last assumption. -/
theorem lastAt_assumptionEntries_eq_none_iff {i column : Nat} :
    lastAt (assumptionEntries layout start c) ⟨start + i, column⟩ = none ↔
      (column = layout.assumptionsColumn → c.assumptionValues.length ≤ i) := by
  by_cases hcolumn : column = layout.assumptionsColumn
  · subst hcolumn
    rw [lastAt_assumptionEntries, Option.map_eq_none_iff, List.getElem?_eq_none_iff]
    exact ⟨fun h _ => h, fun h => h rfl⟩
  · exact iff_of_true (lastAt_downColumn_of_ne hcolumn) fun h => absurd h hcolumn

/-! ## Work that returns -/

theorem exists_of_onSheet_eq_ok {α : Type} {action : Sheet.Action α} {a : α} {b b' : Workbook}
    (h : (Workbook.onSheet q action).run b = .ok a b') :
    ∃ w, action.run (b.sheet q) = .ok a w ∧ b' = b.putSheet q w := by
  rw [EStateM.run, Workbook.onSheet] at h
  split at h
  next a' w hrun =>
    cases h
    exact ⟨w, hrun, rfl⟩
  next => cases h

theorem meets_ask_returning {α : Type} {A : Workbook → Prop} {B : α → Workbook → Prop}
    {x : Workbook.Action α} (h : ∀ b a b', A b → x.run b = .ok a b' → B a b') :
    Meets (fun s : Session ρ => A s.workbook) (ask (Session.onWorkbook x))
      (fun a s => B a s.workbook) fun _ _ => True := by
  refine ⟨fun s hs => ?_⟩
  rw [run_ask_onWorkbook]
  cases hrun : x.run s.workbook with
  | ok a b => exact h _ a b hs hrun
  | error fault b => trivial

/-- The sheet in a place is there and meets a condition. -/
def Holds (q : Nat) (R : Sheet → Prop) (b : Workbook) : Prop := q < b.sheets.length ∧ R (b.sheet q)

theorem meets_ask_onSheet {α : Type} {R : Sheet → Prop} {Q : α → Sheet → Prop}
    {action : Sheet.Action α} (h : ∀ v a w, R v → action.run v = .ok a w → Q a w) :
    Meets (fun s : Session ρ => Holds q R s.workbook) (ask (Session.onSheet q action))
      (fun a s => Holds q (Q a) s.workbook) fun _ _ => True := by
  refine meets_ask_returning fun b a b' hb hrun => ?_
  rcases exists_of_onSheet_eq_ok hrun with ⟨w, hw, rfl⟩
  refine ⟨?_, ?_⟩
  · rw [sheets_putSheet, List.length_set]
    exact hb.1
  · rw [sheet_putSheet_self hb.1]
    exact h _ a w hb.2 hw

theorem entered_fillIn (commit : Session.Action ρ Unit) (layout : Layout) (c : Code)
    (q start : Nat) (v : Sheet) :
    Meets (fun s : Session ρ => Holds q (· = v) s.workbook)
      (fillIn (Session.document commit) layout q start c)
      (fun _ s => Holds q (Entered (written layout start c) v) s.workbook) fun _ _ => True := by
  have hdriver : Meets (fun s : Session ρ => Holds q (· = v) s.workbook)
      (writeDriver (Session.document commit) layout q start c)
      (fun _ s => Holds q (Entered (driverEntries layout start c) v) s.workbook)
      fun _ _ => True := by
    refine Meets.ite (fun hgiven => ?_) fun hnone => Meets.done fun s hs => ⟨hs.1, ?_⟩
    · rw [Bool.not_eq_true'] at hgiven
      refine meets_ask_onSheet (R := (· = v)) fun w _ w' hw hrun => ?_
      subst hw
      rw [driverEntries, hgiven]
      exact entered_of_write hrun
    · rw [Bool.not_eq_true', Bool.not_eq_false] at hnone
      rw [hs.2, driverEntries, hnone]
      exact .of_cells_eq rfl rfl rfl
  refine Meets.bind hdriver fun _ => ?_
  refine Meets.ite (fun _ => ?_) fun hnone => Meets.done fun s hs => ⟨hs.1, ?_⟩
  · refine meets_ask_onSheet (R := Entered (driverEntries layout start c) v)
      fun w _ w' hw hrun => ?_
    exact hw.append (entered_of_writeColumn hrun)
  · rw [Bool.not_eq_true', Bool.not_eq_false, List.isEmpty_iff] at hnone
    rw [written, assumptionEntries, hnone]
    exact hs.2.append (.of_cells_eq rfl rfl rfl)

/-! ## What is placed -/

/-- Rows of the template were copied below what the target holds, and what a code writes into them
was written. -/
def Laid (layout : Layout) (c : Code) (t u : Sheet) (first last : Nat) (z : Sheet) : Prop :=
  ∃ t' v, t.Alike t' ∧
    Landed first (u.lastUsed + 1) (block first last (min layout.lastColumn t'.maxColumn))
      (copiedRanges first last layout.lastColumn (u.lastUsed + 1) t) t u v ∧
    Entered (written layout (u.lastUsed + 1) c) v z

/-- Two sheets are there, perhaps one and the same, and show what they showed. -/
structure Opened (p q : Nat) (t u : Sheet) (b : Workbook) : Prop where
  source_lt : p < b.sheets.length
  dest_lt : q < b.sheets.length
  source : t.Alike (b.sheet p)
  dest : u.Alike (b.sheet q)

/-- Replacing a sheet by one that shows the same changes nothing that is shown. -/
theorem alike_sheet_putSheet {b : Workbook} {i place : Nat} (hi : i < b.sheets.length)
    (hw : (b.sheet place).Alike w) : (b.sheet i).Alike ((b.putSheet place w).sheet i) := by
  by_cases heq : place = i
  · subst heq
    rwa [sheet_putSheet_self hi]
  · rw [sheet_putSheet_of_ne heq]
    exact .refl _

theorem Opened.putSheet {b : Workbook} {place : Nat} (h : Opened p q t u b)
    (hw : (b.sheet place).Alike w) : Opened p q t u (b.putSheet place w) where
  source_lt := by
    rw [sheets_putSheet, List.length_set]
    exact h.source_lt
  dest_lt := by
    rw [sheets_putSheet, List.length_set]
    exact h.dest_lt
  source := h.source.trans (alike_sheet_putSheet h.source_lt hw)
  dest := h.dest.trans (alike_sheet_putSheet h.dest_lt hw)

/-- Rows that are pasted are laid below the target as it was found, whatever cells were opened. -/
theorem laid_pasteRows (hfirst : 1 ≤ first) (hrows : first ≤ last)
    (hapart : p = q → last < u.lastUsed + 1) :
    Meets (fun s : Session ρ => Opened p q t u s.workbook)
      (pasteRows (Session.document commit) layout p q c (first, last))
      (fun _ s => Holds q (Laid layout c t u first last) s.workbook) fun _ _ => True := by
  have hlookup : Meets (fun s : Session ρ => Opened p q t u s.workbook)
      (ask ((Session.document commit).lastUsedRow q))
      (fun n s => n = u.lastUsed ∧ Opened p q t u s.workbook) fun _ _ => True := by
    refine ⟨fun s hs => ?_⟩
    rw [run_ask_lastUsedRow]
    exact ⟨hs.dest.sameContent.lastUsed_eq, hs.putSheet (Sheet.alike_allocateBlock _ _ _)⟩
  have hlimit : 1 ≤ layout.lastColumn := Nat.le_trans layout.tagColumn_pos layout.tagColumn_le
  have hcopy : Meets (fun s : Session ρ => Opened p q t u s.workbook)
      (ask ((Session.document commit).copyBlock p (first, last) q (u.lastUsed + 1)
        layout.lastColumn))
      (fun _ s => Holds q (fun v => ∃ t', t.Alike t' ∧
        Landed first (u.lastUsed + 1) (block first last (min layout.lastColumn t'.maxColumn))
          (copiedRanges first last layout.lastColumn (u.lastUsed + 1) t) t u v) s.workbook)
      fun _ _ => True := by
    refine meets_ask_returning (A := Opened p q t u) fun b _ b' hb hrun => ?_
    have hlanded := landed_of_copyBlock hapart hfirst hrows hlimit hb.source_lt hb.dest_lt hrun
    dsimp only at hlanded
    rw [copiedRanges_eq hb.source] at hlanded
    exact ⟨hlanded.1, b.sheet p, hb.source, hlanded.2.of_alike hb.source hb.dest⟩
  refine Meets.bind_fact hlookup fun n hn => ?_
  subst hn
  -- which sheet the copy has led to is known only when it is filled in
  refine Meets.bind hcopy fun _ => ⟨fun s hs => ?_⟩
  obtain ⟨hlt, t', ht', hv⟩ := hs
  have hfill := (entered_fillIn commit layout c q (u.lastUsed + 1) (s.workbook.sheet q)).ends s
    ⟨hlt, rfl⟩
  cases hrun : (fillIn (Session.document commit) layout q (u.lastUsed + 1) c).run s with
  | error failure s' => trivial
  | ok _ s' =>
    rw [hrun] at hfill
    exact ⟨hfill.1, t', _, ht', hv, hfill.2⟩

/-- A block that is placed is found, copied and filled in, also if the template is the target, as
long as the type that is looked for is not empty: then its rows are in use, and the copy goes below
them. -/
theorem laid_of_placed (ht : s.workbook.Stands layout.templateSheet p t)
    (hu : s.workbook.Stands target q u) (hself : target = layout.templateSheet → c.baseType ≠ "")
    (hplaced : outcome (placeBlock (Session.document commit) layout target c) s = .ok ()) :
    ∃ first last, t.tagged? layout.tagColumn c.baseType = some (first, last) ∧
      Laid layout c t u first last
        ((after (placeBlock (Session.document commit) layout target c) s).workbook.sheet q) := by
  have hplace := run_placeBlock commit ht hu (t.run_findTagged_eq layout.tagColumn_pos c.baseType)
  rw [outcome, hplace, ← outcome] at hplaced
  rw [after, hplace, ← after]
  cases hfound : t.tagged? layout.tagColumn c.baseType with
  | none =>
    rw [hfound] at hplaced
    cases hplaced
  | some rows =>
    obtain ⟨first, last⟩ := rows
    obtain ⟨hfirst, hrows, htag⟩ := of_tagged?_eq_some hfound
    rw [hfound] at hplaced
    have hopened : Opened p q t u s.workbook := by
      refine ⟨lt_length_of_getElem? ht.sheet_eq, lt_length_of_getElem? hu.sheet_eq, ?_, ?_⟩
      · rw [ht.sheet]
        exact .refl t
      · rw [hu.sheet]
        exact .refl u
    have hsearch : (s.workbook.sheet p).Alike (t.allocateBlock t.rows [layout.tagColumn]) := by
      rw [ht.sheet]
      exact t.alike_allocateBlock _ _
    have hapart : p = q → last < u.lastUsed + 1 := by
      rintro rfl
      obtain rfl : t = u := ht.sheet.symm.trans hu.sheet
      have hused := isUsed_of_isTagged htag (hself (hu.title_eq.symm.trans ht.title_eq))
      exact Nat.lt_succ_of_le (lastUsed_le_iff.mp (Nat.le_refl _) _ hused)
    have hpaste : Meets (fun s : Session ρ => Opened p q t u s.workbook)
        (pasteFound (Session.document commit) layout p q c (some (first, last)))
        (fun _ s => Holds q (Laid layout c t u first last) s.workbook) fun _ _ => True :=
      laid_pasteRows hfirst hrows hapart
    -- the state in which the search has left the session
    let s₁ : Session ρ :=
      { s with workbook := s.workbook.putSheet p (t.allocateBlock t.rows [layout.tagColumn]) }
    have hstart : Opened p q t u s₁.workbook := hopened.putSheet hsearch
    have hends := hpaste.outcome (s := s₁) hstart
    rw [hplaced] at hends
    exact ⟨first, last, rfl, hends.2⟩

/-! ## The last row of a block -/

/-- A cell in the last row of a block is in use and stays so in a copy of the block. -/
structure Carries (layout : Layout) (t : Sheet) (first last column : Nat) : Prop where
  column_pos : 1 ≤ column
  column_le : column ≤ layout.lastColumn
  used : (t.value ⟨last, column⟩).isUsed = true
  ne_sign : t.value ⟨last, column⟩ ≠ .text "="
  free : ∀ r ∈ t.merged, Inside first last layout.lastColumn r → ⟨last, column⟩ ∉ r.rest

/-- What keeps the last row of a block in use, or a row further down. -/
inductive Held (layout : Layout) (c : Code) (t : Sheet) (first last : Nat) : Prop
  /-- An assumption that goes there is not empty. -/
  | assumption (i : Nat) (text : String) (hi : last - first ≤ i)
    (htext : c.assumptionValues[i]? = some text) (hne : text ≠ "")
  /-- The block has one row, and no assumption goes over its driver. -/
  | driver (hne : c.driver ≠ "") (hrow : first = last)
    (hfree : layout.driverColumn = layout.assumptionsColumn → c.assumptionValues = [])
  /-- The row has something in the template, and no assumption goes over it. -/
  | cell (column : Nat) (h : Carries layout t first last column)
    (hfree : column = layout.assumptionsColumn → c.assumptionValues.length ≤ last - first)

section

variable (hrows : first ≤ last)
  (hv : Landed first (u.lastUsed + 1) (block first last (min layout.lastColumn t'.maxColumn))
    (copiedRanges first last layout.lastColumn (u.lastUsed + 1) t) t u v)

include hrows hv

/-- What copying alone has brought into use below the first rows of a copy comes from the last row
of the block. -/
theorem exists_carries_of_isUsed {r : Position} (hused : (v.value r).isUsed = true)
    (hrow : u.lastUsed + 1 + (last - first) ≤ r.row) :
    ∃ column, r = shifted first (u.lastUsed + 1) ⟨last, column⟩ ∧
      Carries layout t first last column := by
  have hold : (u.value r).isUsed = false := isUsed_of_lastUsed_lt (by omega)
  by_cases hplace : ∃ x, block first last (min layout.lastColumn t'.maxColumn) x ∧
      shifted first (u.lastUsed + 1) x = r
  · obtain ⟨⟨row, column⟩, hx, rfl⟩ := hplace
    obtain rfl : row = last := by
      have hlow : first ≤ row := hx.1.1
      have hhigh : row ≤ last := hx.1.2
      simp only [shifted] at hrow
      omega
    obtain ⟨hkept, hsign, hranges⟩ := (hv.isUsed_iff hx hold).mp hused
    rw [forall_copiedRanges_iff hrows] at hranges
    have hcolumn : column ≤ layout.lastColumn := Nat.le_trans hx.2.2 (Nat.min_le_left _ _)
    exact ⟨column, rfl, hx.2.1, hcolumn, hkept, hsign, hranges⟩
  · -- beside the copy nothing has come into use
    have hbeside := hv.isUsed_other (fun x hx heq => hplace ⟨x, hx, heq⟩) hused
    rw [hold] at hbeside
    cases hbeside

theorem Carries.isUsed {column : Nat} (h : Carries layout t first last column)
    (ht' : t.Alike t') :
    (v.value (shifted first (u.lastUsed + 1) ⟨last, column⟩)).isUsed = true := by
  -- a cell that is in use is within the extent that was copied
  have hcell : t'.cell ⟨last, column⟩ ≠ {} := by
    intro hempty
    have hused := h.used
    rw [Sheet.value, ← ht'.cell_eq, hempty] at hused
    cases hused
  have hwidth : column ≤ min layout.lastColumn t'.maxColumn :=
    Nat.le_min.mpr ⟨h.column_le, column_le_maxColumn (mem_of_cell_ne hcell)⟩
  have hold : (u.value (shifted first (u.lastUsed + 1) ⟨last, column⟩)).isUsed = false :=
    isUsed_of_lastUsed_lt (Nat.le_add_right _ _)
  refine (hv.isUsed_iff ⟨⟨hrows, Nat.le_refl _⟩, h.column_pos, hwidth⟩ hold).mpr ?_
  exact ⟨h.used, h.ne_sign, (forall_copiedRanges_iff hrows).mpr h.free⟩

variable (hz : Entered (written layout (u.lastUsed + 1) c) v z)

include hz

/-- What is in use below the first rows of a copy is an assumption, the driver, or a cell of the
last row of the block. -/
theorem held_of_isUsed {r : Position} (hused : (z.value r).isUsed = true)
    (hrow : u.lastUsed + 1 + (last - first) ≤ r.row) : Held layout c t first last := by
  rw [hz.value_eq, written, lastAt_append] at hused
  cases hassumption : lastAt (assumptionEntries layout (u.lastUsed + 1) c) r with
  | some d =>
    rw [hassumption] at hused
    obtain ⟨i, text, rfl, htext, rfl⟩ :=
      exists_of_lastAt_assumptionEntries (by omega) hassumption
    exact .assumption i text (by dsimp only at hrow; omega) htext
      (Value.isUsed_ofDatum_text.mp hused)
  | none =>
    rw [hassumption, Option.none_or, lastAt_driverEntries] at hused
    split at hused
    next hdriver =>
      obtain ⟨hne, rfl⟩ := hdriver
      refine .driver hne (by dsimp only at hrow; omega) fun hcolumn => ?_
      -- a first assumption would have gone over the driver
      have hfree := (lastAt_assumptionEntries_eq_none_iff (i := 0)).mp hassumption hcolumn
      exact List.eq_nil_of_length_eq_zero (Nat.le_zero.mp hfree)
    next =>
      obtain ⟨column, rfl, hcarries⟩ := exists_carries_of_isUsed hrows hv hused hrow
      exact .cell column hcarries (lastAt_assumptionEntries_eq_none_iff.mp hassumption)

/-- Whatever keeps the row in use is found in the copy. -/
theorem Held.exists_isUsed (h : Held layout c t first last) (ht' : t.Alike t') :
    ∃ r, (z.value r).isUsed = true ∧ u.lastUsed + 1 + (last - first) ≤ r.row := by
  cases h with
  | assumption i text hi htext hne =>
    refine ⟨⟨u.lastUsed + 1 + i, layout.assumptionsColumn⟩, ?_, by dsimp only; omega⟩
    rw [hz.value_eq, written, lastAt_append, lastAt_assumptionEntries, htext]
    exact Value.isUsed_ofDatum_text.mpr hne
  | driver hne hrow hfree =>
    refine ⟨⟨u.lastUsed + 1, layout.driverColumn⟩, ?_, by dsimp only; omega⟩
    have hnone : lastAt (assumptionEntries layout (u.lastUsed + 1) c)
        ⟨u.lastUsed + 1 + 0, layout.driverColumn⟩ = none :=
      lastAt_assumptionEntries_eq_none_iff.mpr fun hcolumn => by rw [hfree hcolumn]; rfl
    rw [hz.value_eq, written, lastAt_append, hnone, Option.none_or, lastAt_driverEntries,
      if_pos ⟨hne, rfl⟩]
    exact Value.isUsed_ofDatum_text.mpr hne
  | cell column hc hfree =>
    let r := shifted first (u.lastUsed + 1) ⟨last, column⟩
    have hrow : u.lastUsed + 1 + (last - first) ≤ r.row := Nat.le_refl _
    refine ⟨r, ?_, hrow⟩
    have hnone : lastAt (assumptionEntries layout (u.lastUsed + 1) c) r = none :=
      lastAt_assumptionEntries_eq_none_iff.mpr hfree
    rw [hz.value_eq, written, lastAt_append, hnone, Option.none_or, lastAt_driverEntries]
    -- the driver, where it goes there, is no less in use
    split
    next hdriver => exact Value.isUsed_ofDatum_text.mpr hdriver.1
    next => exact hc.isUsed hrows hv ht'

end

/-- A block reaches down to its last row if that row is held. -/
theorem Laid.reaches_iff (h : Laid layout c t u first last z) (hrows : first ≤ last) :
    u.lastUsed + 1 + (last - first) ≤ z.lastUsed ↔ Held layout c t first last := by
  rcases h with ⟨t', v, ht', hv, hz⟩
  rw [le_lastUsed_iff (by omega)]
  constructor
  · rintro ⟨r, hused, hrow⟩
    exact held_of_isUsed hrows hv hz hused hrow
  · exact fun hheld => hheld.exists_isUsed hrows hv hz ht'

/-- The type in the last row of a block holds it, unless it is the equals sign alone, or a range
covers it, or an empty assumption goes over it. -/
theorem held_of_tagged (hfound : t.tagged? layout.tagColumn c.baseType = some (first, last))
    (hne : c.baseType ≠ "") (hsign : c.baseType ≠ "=")
    (hfree : ∀ r ∈ t.merged, Inside first last layout.lastColumn r →
      ⟨last, layout.tagColumn⟩ ∉ r.rest)
    (hassumption : layout.tagColumn = layout.assumptionsColumn →
      c.assumptionValues[last - first]? ≠ some "") : Held layout c t first last := by
  obtain ⟨-, -, htag⟩ := of_tagged?_eq_some hfound
  by_cases hover : layout.tagColumn = layout.assumptionsColumn ∧
      last - first < c.assumptionValues.length
  · have htext := List.getElem?_eq_getElem hover.2
    refine .assumption (last - first) _ (Nat.le_refl _) htext fun hempty => ?_
    exact hassumption hover.1 (by rw [htext, hempty])
  · refine .cell layout.tagColumn ⟨layout.tagColumn_pos, layout.tagColumn_le,
      isUsed_of_isTagged htag hne, ?_, hfree⟩ fun hcolumn => ?_
    · obtain ⟨text, hvalue, htrimmed⟩ := exists_of_isTagged htag
      rw [hvalue, ne_eq, Value.text.injEq]
      rintro rfl
      exact hsign (htrimmed.symm.trans (by decide))
    · exact Nat.le_of_not_lt fun hlt => hover ⟨hcolumn, hlt⟩

/-! ## Blocks -/

theorem outcome_lastUsedRow (commit : Session.Action ρ Unit) (q : Nat) (s : Session ρ) :
    outcome ((Session.document commit).lastUsedRow q) s = .ok (s.workbook.sheet q).lastUsed := by
  have hask : outcome (ask ((Session.document commit).lastUsedRow q)) s = .ok _ :=
    outcome_of_run (run_ask_lastUsedRow q s)
  rw [ask, outcome_adaptExcept] at hask
  cases hrow : outcome ((Session.document commit).lastUsedRow q) s with
  | ok n =>
    rw [hrow] at hask
    cases hask
    rfl
  | error fault =>
    rw [hrow] at hask
    cases hask

/-- Whenever a block is placed, rows were found for it, and the target reaches down to the last row
of the copy exactly if that row is held. It is held in particular by the type in it, if this is
neither empty nor the equals sign alone, is not covered by a range of the block, and no empty
assumption goes over it. Where the template is the target the type must not be empty. -/
theorem block_reaches_iff (commit : Session.Action ρ Unit) (layout : Layout) (target : String)
    (c : Code) (s : Session ρ) (hself : target = layout.templateSheet → c.baseType ≠ "")
    (hplaced : outcome (placeBlock (Session.document commit) layout target c) s = .ok ()) :
    let doc := Session.document commit
    ∃ p q t first last before behind,
      s.workbook.Stands layout.templateSheet p t ∧ s.workbook.find? target = some q ∧
      t.tagged? layout.tagColumn c.baseType = some (first, last) ∧
      outcome (doc.lastUsedRow q) s = .ok before ∧
      outcome (doc.lastUsedRow q) (after (placeBlock doc layout target c) s) = .ok behind ∧
      (before + 1 + (last - first) ≤ behind ↔ Held layout c t first last) ∧
      (c.baseType ≠ "" → c.baseType ≠ "=" →
        (∀ r ∈ t.merged, Inside first last layout.lastColumn r →
          ⟨last, layout.tagColumn⟩ ∉ r.rest) →
        (layout.tagColumn = layout.assumptionsColumn →
          c.assumptionValues[last - first]? ≠ some "") →
        before + 1 + (last - first) ≤ behind) := by
  intro doc
  rcases stands_of_placed hplaced with ⟨p, q, t, u, ht, hu⟩
  rcases laid_of_placed ht hu hself hplaced with ⟨first, last, hfound, hlaid⟩
  have hreaches := hlaid.reaches_iff (of_tagged?_eq_some hfound).2.1
  refine ⟨p, q, t, first, last, u.lastUsed, _, ht, hu.find?_eq, hfound, ?_,
    outcome_lastUsedRow commit q _, hreaches, fun hne hsign hfree hassumption => ?_⟩
  · rw [outcome_lastUsedRow, hu.sheet]
  · exact hreaches.mpr (held_of_tagged hfound hne hsign hfree hassumption)

/-- A template with a break of two rows below its head. -/
def longBreaks (title : String) : Sheet :=
  (breaks title).putCell ⟨10, 4⟩ { content := .entry .text (.text "BR") }

/-- A break with one assumption and an empty one behind it. -/
def trailingCode : Code := { breakCode with assumptions := "x," }

/-- In the usual layout the types of a break of two rows stay, and it reaches down to the second row
although the second assumption is empty. -/
theorem block_reaches_iff_trailing :
    let doc := Session.document (Command.commit "")
    let s : Session Files.Tree := ⟨⟨[longBreaks "Codes", { title := "A" }]⟩, {}⟩
    let placed := placeBlock doc {} "A" trailingCode
    ("A" = ({} : Layout).templateSheet → trailingCode.baseType ≠ "") ∧
      outcome placed s = .ok () ∧ outcome (doc.lastUsedRow 1) s = .ok 0 ∧
      ∃ behind, outcome (doc.lastUsedRow 1) (after placed s) = .ok behind ∧ 2 ≤ behind := by
  intro doc s placed
  have hself : "A" = ({} : Layout).templateSheet → trailingCode.baseType ≠ "" := by
    decide
  have hplaced : outcome placed s = .ok () := by
    decide +kernel
  have hfind : s.workbook.find? "A" = some 1 := by
    decide +kernel
  have hsource : s.workbook.find? "Codes" = some 0 := by
    decide +kernel
  have hfound : (longBreaks "Codes").tagged? 4 "BR" = some (9, 10) := by
    decide +kernel
  have hbefore : outcome (doc.lastUsedRow 1) s = .ok 0 := by
    decide +kernel
  obtain ⟨p, q, t, first, last, before, behind, ht, hq, htagged, hstart, hend, -, hreaches⟩ :=
    block_reaches_iff (Command.commit "") {} "A" trailingCode s hself hplaced
  obtain rfl : q = 1 := Option.some.inj (hq.symm.trans hfind)
  obtain rfl : p = 0 := Option.some.inj (ht.find?_eq.symm.trans hsource)
  obtain rfl : longBreaks "Codes" = t := ht.sheet
  obtain ⟨rfl, rfl⟩ : first = 9 ∧ last = 10 := by
    have hrows : some (first, last) = some (9, 10) := htagged.symm.trans hfound
    cases hrows
    exact ⟨rfl, rfl⟩
  obtain rfl : before = 0 := by
    have hsame : Except.ok before = Except.ok (ε := Document.Fault) 0 := hstart.symm.trans hbefore
    cases hsame
    rfl
  refine ⟨hself, hplaced, hbefore, behind, hend, ?_⟩
  exact hreaches (by decide) (by decide) (by decide +kernel) (by decide)

/-- Where the assumptions go over the types, an empty one takes the second row of a break out of use
again: the break has two rows, but the target reaches down to the first one only. -/
theorem not_all_spaced :
    ¬∀ (layout : Layout) (target : String) (c : Code) (s : Session Files.Tree),
      let doc := Session.document (Command.commit "")
      outcome (placeBlock doc layout target c) s = .ok () →
        ∀ p q t first last before behind, s.workbook.Stands layout.templateSheet p t →
          s.workbook.find? target = some q →
          t.tagged? layout.tagColumn c.baseType = some (first, last) →
          outcome (doc.lastUsedRow q) s = .ok before →
          outcome (doc.lastUsedRow q) (after (placeBlock doc layout target c) s) = .ok behind →
          before + 1 + (last - first) ≤ behind := by
  intro h
  let layout : Layout := { assumptionsColumn := 4 }
  let s : Session Files.Tree := ⟨⟨[longBreaks "Codes", { title := "A" }]⟩, {}⟩
  have hplaced : outcome (placeBlock (Session.document (Command.commit "")) layout "A"
      trailingCode) s = .ok () := by
    decide +kernel
  have hbehind : outcome ((Session.document (Command.commit "")).lastUsedRow 1)
      (after (placeBlock (Session.document (Command.commit "")) layout "A" trailingCode) s) =
        .ok 1 := by
    decide +kernel
  have hstands : s.workbook.Stands "Codes" 0 (longBreaks "Codes") := ⟨rfl, rfl, nofun⟩
  have hreaches := h layout "A" trailingCode s hplaced 0 1 (longBreaks "Codes") 9 10 0 1 hstands
    (by decide +kernel) (by decide +kernel) (by decide +kernel) hbehind
  exact absurd hreaches (by decide)

end Run

end Sheetwright
