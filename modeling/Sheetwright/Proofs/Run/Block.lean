import Sheetwright.Proofs.Run.Abreast
import Sheetwright.Proofs.Run.Scope
import Sheetwright.Proofs.Template.Tagged
import Sheetwright.Proofs.Workbook.Imprinting
/-!
# Placing a block

A block is placed in three moves: its rows are looked up in the template, they are copied below what
the target holds, and the driver and the assumptions of the code are written into the copy.
`BlockRun` lists what can come of this for the target, one case for each move that may be the last
one; `blockRun_placeBlock` says that the list is complete.
-/

namespace Sheetwright

open Grid Operation

/-! ## Writing into a sheet -/

namespace Grid

/-- A cell that was not filled keeps its value; a covered one stays as it is. -/
theorem Cell.enter_error {d : Datum} {fault : Fault} {c c' : Cell}
    (h : (Cell.enter d).run c = .error fault c') :
    c'.value = c.value ∧ (c.isCovered = true → c' = c) := by
  rw [Cell.enter.eq_def, EStateM.run_bind, EStateM.run_get] at h
  dsimp only at h
  cases hc : c.isCovered with
  | true =>
    rw [hc] at h
    cases h
    exact ⟨rfl, fun _ => rfl⟩
  | false =>
    rw [hc] at h
    refine ⟨?_, fun hcovered => by cases hcovered⟩
    cases d with
    | text s =>
      change (if (Cell.cut s).toList.any Cell.isIllegal then Cell.refuse _ _ else Cell.set _ _ :
        EStateM Fault Cell Unit).run c = _ at h
      split at h
      · cases h
        rfl
      · cases h
    | list _ =>
      cases h
      rfl
    | map _ =>
      cases h
      rfl
    | _ => cases h

theorem Cell.isCovered_of_enter {d : Datum} {c c' : Cell}
    (h : (Cell.enter d).run c = .ok () c') : c.isCovered = false := by
  rw [Cell.enter.eq_def, EStateM.run_bind, EStateM.run_get] at h
  dsimp only at h
  cases hc : c.isCovered with
  | true =>
    rw [hc] at h
    cases h
  | false => rfl

namespace Sheet

variable {start row : Int} {column : Nat} {s t u : Sheet} {p : Position} {d : Datum}

/-- Data were written into a sheet from a row on. Covered cells stay as they are, and a cell that is
in use stays in use, except maybe in one column. -/
structure Annotated (start : Int) (column : Nat) (s t : Sheet) : Prop
    extends SameButCells s t where
  above : ∀ p : Position, (p.row : Int) < start → t.cell p = s.cell p
  covered : ∀ p, (s.cell p).isCovered = true → t.cell p = s.cell p
  used : ∀ p : Position, p.column ≠ column → (s.value p).isUsed = true → (t.value p).isUsed = true

theorem Alike.annotated (h : s.Alike t) (start : Int) (column : Nat) :
    s.Annotated start column t where
  toSameButCells := h.toSameButCells
  above p _ := h.cell_eq p
  covered p _ := h.cell_eq p
  used p _ hp := by rwa [value, h.cell_eq]

theorem Annotated.trans (hst : s.Annotated start column t) (htu : t.Annotated start column u) :
    s.Annotated start column u where
  toSameButCells := hst.toSameButCells.trans htu.toSameButCells
  above p hp := (htu.above p hp).trans (hst.above p hp)
  covered p hp := by
    have hcell := hst.covered p hp
    rw [← hcell] at hp
    exact (htu.covered p hp).trans hcell
  used p hp hused := htu.used p hp (hst.used p hp hused)

instance (start : Int) (column : Nat) : IsPreorder Sheet (Annotated start column) where
  refl s := (Alike.refl s).annotated start column
  trans _ _ _ := Annotated.trans

theorem annotated_putCell {c : Cell} (h : start ≤ (p.row : Int))
    (hfree : (s.cell p).isCovered = true → c = s.cell p)
    (hused : p.column ≠ column → (s.value p).isUsed = true → c.value.isUsed = true) :
    s.Annotated start column (s.putCell p c) where
  toSameButCells := ⟨rfl, rfl, rfl, rfl⟩
  above q hq := by
    rw [cell_putCell, if_neg]
    rintro rfl
    omega
  covered q hq := by
    rw [cell_putCell]
    split
    next heq =>
      subst heq
      exact hfree hq
    next => rfl
  used q hq hu := by
    rw [value, cell_putCell]
    split
    next heq =>
      subst heq
      exact hused hq hu
    next => exact hu

/-- A datum that puts a cell to use when it is entered. -/
def Fills (d : Datum) : Prop := (Value.ofDatum d).isUsed = true

theorem keeps_annotated_onCell (h : start ≤ (p.row : Int)) (hd : p.column = column ∨ Fills d) :
    Keeps (Annotated start column) (onCell p (Cell.enter d)) := by
  intro s
  rw [after, EStateM.run, onCell]
  cases hrun : (Cell.enter d).run (s.cell p) with
  | ok _ c =>
    have hfree := Cell.isCovered_of_enter hrun
    refine annotated_putCell h (fun hc => ?_) fun hcolumn _ => ?_
    · rw [hc] at hfree
      cases hfree
    · obtain ⟨-, rfl⟩ := Cell.enter_ok hrun
      rw [Cell.value_of_content rfl]
      exact hd.resolve_left hcolumn
  | error fault c =>
    obtain ⟨hvalue, hcovered⟩ := Cell.enter_error hrun
    exact annotated_putCell h hcovered fun _ hu => hvalue ▸ hu

theorem keeps_annotated_write {written : Nat} (h : start ≤ row) (hd : written = column ∨ Fills d) :
    Keeps (Annotated start column) (write row written d) := by
  have hopen : Keeps (Annotated start column) (openCell row written) :=
    (keeps_openCell row written).mono fun _ _ h => h.toAlike.annotated start column
  refine Keeps.bind_returning hopen (returns_openCell row written) ?_
  rintro p ⟨hrow, hcolumn⟩
  obtain rfl : p.column = written := Int.ofNat_inj.mp hcolumn
  split
  · exact Keeps.done ()
  · exact keeps_annotated_onCell (hrow ▸ h) hd

theorem keeps_annotated_writeColumn (h : start ≤ row) (data : List Datum) :
    Keeps (Annotated start column) (writeColumn row column data) := by
  induction data generalizing row with
  | nil => exact Keeps.done ()
  | cons d rest ih =>
    exact Keeps.bind (keeps_annotated_write h (Or.inl rfl)) fun _ => ih (by omega)

/-! ## Looking the rows up -/

theorem alike_allocateBlock (s : Sheet) (rows columns : List Nat) :
    s.Alike (s.allocateBlock rows columns) :=
  (s.widened_allocateBlock rows columns).toAlike

/-- A cell carries a tag as a text. -/
theorem exists_of_isTagged {p : Position} {tag : String} (h : s.isTagged p tag = true) :
    ∃ text, s.value p = .text text ∧ Text.trimmed text = tag := by
  rw [isTagged] at h
  split at h
  next text hvalue => exact ⟨text, hvalue, of_decide_eq_true h⟩
  next => cases h

/-- A cell that carries a tag other than the empty one is in use. -/
theorem isUsed_of_isTagged {p : Position} {tag : String} (h : s.isTagged p tag = true)
    (hne : tag ≠ "") : (s.value p).isUsed = true := by
  obtain ⟨text, hvalue, rfl⟩ := exists_of_isTagged h
  rw [hvalue, Value.isUsed_text]
  rintro rfl
  exact hne (by decide)

/-- The rows that are found begin and end with a row that carries the tag. -/
theorem of_tagged?_eq_some {tag : String} {first last : Nat}
    (h : s.tagged? column tag = some (first, last)) :
    1 ≤ first ∧ first ≤ last ∧ s.isTagged ⟨last, column⟩ tag = true := by
  rcases mem_rows_of_ends? h with ⟨hfirst, hlast⟩
  rw [rows, mem_span] at hfirst hlast
  obtain ⟨-, htag, hall⟩ := (Template.tagged?_eq_some_iff hfirst.1 hlast.1).mp h
  exact ⟨hfirst.1, (hall last hlast.1 htag).1, htag⟩

/-- Looking through a column opens no cell beyond the last row. -/
theorem run_findTagged_eq (hcolumn : 1 ≤ column) (tag : String) (s : Sheet) :
    (findTagged column tag).run s =
      .ok (s.tagged? column tag) (s.allocateBlock s.rows [column]) := by
  have hw := s.widened_allocateBlock s.rows [column]
  have hrow : (s.allocateBlock s.rows [column]).maxRow = s.maxRow := by
    refine Nat.le_antisymm (maxRow_le_iff.mpr ⟨s.one_le_maxRow, fun p hp => ?_⟩)
      (maxRow_mono hw.mem)
    rcases hw.within p hp with hp | ⟨hp, -⟩
    · exact row_le_maxRow hp
    · exact (mem_span.mp hp).2
  have hfound : (s.allocateBlock s.rows [column]).tagged? column tag = s.tagged? column tag := by
    have hrows : (s.allocateBlock s.rows [column]).rows = s.rows := by
      rw [rows, hrow]
      rfl
    rw [tagged?, hrows]
    simp only [hw.toAlike.sameContent.isTagged_eq]
    rfl
  rw [run_findTagged hcolumn, ← hfound]
  rfl

/-- A column in which anything was found lies within the sheet. -/
theorem column_le_of_tagged? {tag : String} {found : Nat × Nat}
    (h : s.tagged? column tag = some found) : column ≤ s.maxColumn := by
  obtain ⟨first, last⟩ := found
  obtain ⟨-, -, htag⟩ := of_tagged?_eq_some h
  refine column_le_maxColumn (p := ⟨last, column⟩) (mem_of_cell_ne fun hempty => ?_)
  rw [isTagged, value, hempty] at htag
  cases htag

/-- So looking through it has not made the sheet wider. -/
theorem maxColumn_of_tagged? {tag : String} {found : Nat × Nat}
    (h : s.tagged? column tag = some found) :
    (s.allocateBlock s.rows [column]).maxColumn = s.maxColumn := by
  have hw := s.widened_allocateBlock s.rows [column]
  have hcolumn := column_le_of_tagged? h
  refine Nat.le_antisymm (maxColumn_le_iff.mpr ⟨s.one_le_maxColumn, fun p hp => ?_⟩)
    (maxColumn_mono hw.mem)
  rcases hw.within p hp with hp | ⟨-, hp⟩
  · exact column_le_maxColumn hp
  · rwa [List.mem_singleton.mp hp]

end Sheet

end Grid

namespace Run

open Workbook

variable {ρ : Type} {layout : Layout} {commit : Session.Action ρ Unit} {target : String} {c : Code}
  {s : Session ρ} {p q : Nat} {t u v w : Sheet}

/-- The rows of a block were copied from the template to the target, up to some of its ranges. -/
abbrev CopiedOver (layout : Layout) (t u : Sheet) (first last : Nat) (ranges : List Range) :
    Sheet → Prop :=
  Overlaid first (u.lastUsed + 1) (block first last (min layout.lastColumn t.maxColumn))
    (fun row => first ≤ row ∧ row ≤ last) t u ranges

/-- The ranges inside a block of the template, at their place below what the target holds. -/
abbrev pastedRanges (layout : Layout) (t u : Sheet) (first last : Nat) : List Range :=
  copiedRanges first last layout.lastColumn (u.lastUsed + 1) t

/-- What can come of placing the block of a code, given the template and the target, and the target
that is left behind. -/
inductive BlockRun (layout : Layout) (c : Code) (t u : Sheet) : Except Failure Unit → Sheet → Prop
  /-- The template has no rows for the code. -/
  | unfound (h : t.tagged? layout.tagColumn c.baseType = none) :
    BlockRun layout c t u (.error (.noBlock c.baseType layout.templateSheet)) u
  /-- Not all of the rows can be copied. -/
  | stopped {first last : Nat} {fault : Document.Fault} {v : Sheet}
    (h : t.tagged? layout.tagColumn c.baseType = some (first, last))
    (hv : Stopped first last (min layout.lastColumn t.maxColumn) layout.lastColumn
      (u.lastUsed + 1) t u v) :
    BlockRun layout c t u (.error (.document fault)) v
  /-- The rows are copied, and what can be written into them is written. -/
  | copied {first last : Nat} {r : Except Failure Unit} {w v : Sheet}
    (h : t.tagged? layout.tagColumn c.baseType = some (first, last))
    (hw : CopiedOver layout t u first last (pastedRanges layout t u first last) w)
    (hv : w.Annotated (u.lastUsed + 1) layout.assumptionsColumn v)
    (hsame : c.driver = "" → c.assumptionValues = [] → v = w) :
    BlockRun layout c t u r v

/-- Only in the column of the assumptions may a cell fall out of use again. -/
theorem keeps_annotated_fillIn (hdriver : c.driver.isEmpty = false → Sheet.Fills (.text c.driver))
    (sheet start : Nat) :
    Keeps (OnWorkbooks (OnlySheet sheet (Sheet.Annotated start layout.assumptionsColumn)))
      (fillIn (Session.document commit) layout sheet start c) := by
  refine Keeps.bind ?_ fun _ => ?_
  · rw [writeDriver]
    split
    next h =>
      rw [Bool.not_eq_true'] at h
      exact keeps_ask (keeps_onSheet
        (Sheet.keeps_annotated_write (Int.le_refl _) (Or.inr (hdriver h))))
    next => exact Keeps.done ()
  · rw [writeAssumptions]
    split
    · exact keeps_ask (keeps_onSheet (Sheet.keeps_annotated_writeColumn (Int.le_refl _) _))
    · exact Keeps.done ()

theorem fills_text {text : String} (h : text.isEmpty = false) : Sheet.Fills (.text text) := by
  refine Value.isUsed_ofDatum_text.mpr ?_
  rintro rfl
  cases h

theorem fillIn_eq_pure (hdriver : c.driver = "") (hassumptions : c.assumptionValues = [])
    (sheet start : Nat) :
    fillIn (Session.document commit) layout sheet start c = pure () := by
  rw [fillIn, writeDriver, writeAssumptions, hdriver, hassumptions]
  rfl

/-- Copying the rows that were found, whatever cells of the two sheets were opened before. -/
theorem meets_copyFound (hne : p ≠ q) {first last : Nat}
    (hfound : t.tagged? layout.tagColumn c.baseType = some (first, last)) :
    Meets (Between p q (fun s => t.Alike s ∧ s.maxColumn = t.maxColumn) u.Alike)
      (copyBlock p first last q ((u.lastUsed + 1 : Nat) : Int) layout.lastColumn)
      (fun _ => Between p q t.Alike
        (CopiedOver layout t u first last (pastedRanges layout t u first last)))
      fun _ => Between p q t.Alike (Stopped first last (min layout.lastColumn t.maxColumn)
        layout.lastColumn (u.lastUsed + 1) t u) := by
  obtain ⟨hfirst, hrows, -⟩ := Sheet.of_tagged?_eq_some hfound
  have hlimit : 1 ≤ layout.lastColumn := Nat.le_trans layout.tagColumn_pos layout.tagColumn_le
  refine ⟨fun b hb => ?_⟩
  obtain ⟨ht, hcolumn⟩ := hb.source
  have hmeets : Meets (· = b)
      (copyBlock p first last q ((u.lastUsed + 1 : Nat) : Int) layout.lastColumn) _ _ :=
    meets_copyBlock_imprint hne hfirst hrows hlimit hb.source_lt hb.dest_lt
  have hcopy := hmeets.ends b rfl
  rw [hcolumn, copiedRanges_eq ht] at hcopy
  cases hends : (copyBlock p first last q ((u.lastUsed + 1 : Nat) : Int)
      layout.lastColumn).run b with
  | ok _ b' =>
    rw [hends] at hcopy
    exact hcopy.mono (fun _ hs => ht.trans hs) fun _ hv => hv.of_alike ht hb.dest
  | error fault b' =>
    rw [hends] at hcopy
    exact hcopy.mono (fun _ hs => ht.trans hs) fun _ hv => hv.of_alike ht hb.dest

/-- Looking the last row up opens cells, which show nothing new. -/
theorem meets_lastUsedRow (u : Sheet) :
    Meets (· = u) Sheet.lastUsedRow (fun n v => n = u.lastUsed ∧ u.Alike v) fun _ _ => False := by
  refine ⟨fun v hv => ?_⟩
  rw [hv, Sheet.run_lastUsedRow]
  exact ⟨rfl, u.alike_allocateBlock _ _⟩

/-- Copying the rows that were found and filling them in ends in one of the ways listed. -/
theorem meets_pasteRows (commit : Session.Action ρ Unit) (hne : p ≠ q) {rows : Nat × Nat}
    (hfound : t.tagged? layout.tagColumn c.baseType = some rows) :
    Meets (fun s : Session ρ => Between p q (fun s => t.Alike s ∧ s.maxColumn = t.maxColumn) (· = u)
        s.workbook)
      (pasteRows (Session.document commit) layout p q c rows)
      (fun _ s => BlockRun layout c t u (.ok ()) (s.workbook.sheet q))
      fun failure s => BlockRun layout c t u (.error failure) (s.workbook.sheet q) := by
  obtain ⟨first, last⟩ := rows
  have hlookup := meets_ask_onWorkbook (ρ := ρ)
    (meets_dest hne (P := fun s => t.Alike s ∧ s.maxColumn = t.maxColumn) (meets_lastUsedRow u))
  refine Meets.bind_fact (hlookup.conseq (fun _ hs => hs) (fun used s hs => ⟨hs.dest.1,
    hs.mono_dest fun _ hv => hv.2⟩) ?_) fun used hused => ?_
  · rintro _ _ ⟨_, _, hs⟩
    exact hs.dest.elim
  subst hused
  have hcopy := meets_ask_onWorkbook (ρ := ρ) (meets_copyFound (u := u) hne hfound)
  refine Meets.bind (hcopy.conseq_stop ?_) fun _ => ?_
  · rintro _ _ ⟨_, rfl, hs⟩
    exact .stopped hfound hs.dest
  -- whatever comes of filling the rows in, only the column of the assumptions may lose content
  by_cases hplain : c.driver = "" ∧ c.assumptionValues = []
  · rw [fillIn_eq_pure hplain.1 hplain.2]
    exact Meets.done fun s hs =>
      .copied hfound hs.dest (refl_of (Sheet.Annotated _ _) _) fun _ _ => rfl
  · have hkeeps : Keeps (OnWorkbooks (OnlySheet q
        (Sheet.Annotated (u.lastUsed + 1 : Nat) layout.assumptionsColumn)))
        (fillIn (Session.document commit) layout q (u.lastUsed + 1) c) :=
      keeps_annotated_fillIn fills_text q (u.lastUsed + 1)
    refine (hkeeps.meets (Q := fun s => ∀ r, BlockRun layout c t u r (s.workbook.sheet q))
      fun s s' hs hfill r => ?_).conseq (fun _ hs => hs) (fun _ _ h => h _) fun _ _ h => h _
    exact .copied hfound hs.dest hfill.changed fun hdriver hnone => absurd ⟨hdriver, hnone⟩ hplain

/-- Placing a block ends in one of the ways listed. -/
theorem blockRun_placeBlock (commit : Session.Action ρ Unit) (hne : layout.templateSheet ≠ target)
    (ht : s.workbook.Stands layout.templateSheet p t) (hu : s.workbook.Stands target q u)
    (c : Code) :
    BlockRun layout c t u (outcome (placeBlock (Session.document commit) layout target c) s)
      ((after (placeBlock (Session.document commit) layout target c) s).workbook.sheet q) := by
  have hplaces := ht.place_ne hu hne
  have hplace := run_placeBlock commit ht hu (t.run_findTagged_eq layout.tagColumn_pos c.baseType)
  rw [outcome, after, hplace, ← outcome, ← after]
  -- the search has opened cells of the template and done nothing to the target
  let searched := t.allocateBlock t.rows [layout.tagColumn]
  have hstart : Between p q (· = t) (· = u) s.workbook :=
    ⟨lt_length_of_getElem? ht.sheet_eq, lt_length_of_getElem? hu.sheet_eq, ht.sheet, hu.sheet⟩
  have hsearched : Between p q (· = searched) (· = u) (s.workbook.putSheet p searched) :=
    hstart.putSheet_source rfl (fun heq => absurd heq hplaces) fun _ => hu.sheet
  cases hfound : t.tagged? layout.tagColumn c.baseType with
  | none =>
    have hstays : ∀ v, v = u → BlockRun layout c t u
        (.error (.noBlock c.baseType layout.templateSheet)) v := by
      rintro _ rfl
      exact .unfound hfound
    exact hstays _ hsearched.dest
  | some rows =>
    refine Meets.outcome_after (σ := Session ρ)
      (F := fun r s => BlockRun layout c t u r (s.workbook.sheet q))
      (meets_pasteRows commit hplaces hfound) (hsearched.mono_source ?_)
    rintro _ rfl
    exact ⟨t.alike_allocateBlock _ _, Sheet.maxColumn_of_tagged? hfound⟩

/-! ## Blocks that were placed -/

theorem Harmless.workbook_step_block (hcommit : Harmless commit) (hc : IsBlock c) {x : Progress}
    (hx : x.target = some target) (index : Nat) :
    (step (Session.document commit) layout x index c s).2.workbook =
      (after (placeBlock (Session.document commit) layout target c) s).workbook := by
  rw [hcommit.workbook_step, hx, edit_block _ hc, after_bind_pure]

/-- A code that comes to a block has placed it in the target. -/
theorem of_verdict_block {σ κ : Type} (doc : Document σ κ) (layout : Layout) {x : Progress}
    {index : Nat} {state : σ} (h : verdict doc layout x index c state = .ok .block) :
    IsBlock c ∧ ∃ target, x.target = some target ∧
      outcome (placeBlock doc layout target c) state = .ok () := by
  rcases isTab_or_isBlock c with hmodel | htab | hblock
  · rw [verdict, carryOut_model doc hmodel] at h
    cases h
  · rw [verdict_tab doc layout htab] at h
    dsimp only at h
    split at h
    · cases (committed_eq_ok_iff doc).mp h |>.2
    · cases h
  · refine ⟨hblock, ?_⟩
    cases hx : x.target with
    | none =>
      rw [verdict, hx, carryOut_noTarget doc hblock] at h
      cases h
    | some target =>
      refine ⟨target, rfl, ?_⟩
      rw [verdict_block doc layout hblock hx] at h
      dsimp only at h
      split at h
      next hplace => exact hplace
      next => cases h

/-- A block is placed only if the template and the target are there. -/
theorem stands_of_placed
    (h : outcome (placeBlock (Session.document commit) layout target c) s = .ok ()) :
    ∃ p q t u, s.workbook.Stands layout.templateSheet p t ∧ s.workbook.Stands target q u := by
  rw [placeBlock_eq, outcome_bind, outcome_require, after_require] at h
  cases hfind : s.workbook.find? layout.templateSheet with
  | none =>
    rw [hfind] at h
    cases h
  | some p =>
    rw [hfind] at h
    dsimp only at h
    rw [outcome_bind, outcome_require, after_require] at h
    cases hfind' : s.workbook.find? target with
    | none =>
      rw [hfind'] at h
      cases h
    | some q =>
      rcases find?_eq_some_iff.mp hfind with ⟨t, ht⟩
      rcases find?_eq_some_iff.mp hfind' with ⟨u, hu⟩
      exact ⟨p, q, t, u, ht, hu⟩

end Run

end Sheetwright
