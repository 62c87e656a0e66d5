import Sheetwright.Proofs.Formula.Relocation
import Sheetwright.Proofs.Template.Building
/-!
# Templates in the default layout

What a template of the default layout holds, whatever row its blocks begin in: the header names the
column of the types, each row of a block carries its type there, each row of formulas refers to its
own row, and no other text begins as a formula does (`exists_prepared`). Looking cells up changes
none of this.
-/

namespace Sheetwright

open Grid Grid.Sheet

/-- The default layout with the blocks beginning in some row. -/
def Layout.startingAt (row : Nat) (h : 1 ≤ row) : Layout :=
  { (default : Layout) with dataStartRow := row, dataStartRow_pos := h }

/-! ## Formulas -/

/-- The datum is a text that begins as a formula does. -/
def Datum.beginsFormula : Datum → Bool
  | .text s => s.toList.head? == some '='
  | _ => false

def Grid.Value.beginsFormula (v : Value) : Bool := v.datum.beginsFormula

theorem Grid.Value.beginsFormula_ofDatum (d : Datum) :
    (Value.ofDatum d).beginsFormula = d.beginsFormula := by
  cases d with
  | text s =>
    change ((Cell.cut s).toList.head? == some '=') = (s.toList.head? == some '=')
    rw [Cell.cut]
    split
    next => rfl
    next => rw [String.toList_ofList, List.head?_take, if_neg (by decide)]
  | _ => rfl

namespace Template

/-- The formula that refers to the column of assumptions in its own row. -/
def ownRow (row : Nat) : String := "=$E" ++ toString row

theorem toList_ownRow (row : Nat) : (ownRow row).toList = '=' :: Formula.fixedColumn ['E'] row := by
  have hdigits : (toString row).toList = Text.decimal row := by
    rw [Nat.toString_eq_ofList_toDigits, String.toList_ofList]
    rfl
  rw [ownRow, String.toList_append, hdigits]
  rfl

/-- The formula fits into a cell. -/
theorem storable_ownRow {row : Nat} (hlast : row ≤ lastRow) :
    (Value.text (ownRow row)).Storable := by
  have hlength : (Text.decimal row).length ≤ 7 := by
    refine (Nat.length_toDigits_le_iff (by decide) (by decide)).mpr ?_
    exact Nat.lt_of_le_of_lt hlast (by decide)
  constructor
  · rw [← String.length_toList, toList_ownRow, Formula.fixedColumn]
    simp only [List.length_cons, List.length_append, List.length_nil, Cell.textLimit]
    omega
  · rw [toList_ownRow, List.any_eq_false]
    intro c hc
    simp only [Formula.fixedColumn, List.mem_cons, List.mem_append, List.not_mem_nil,
      or_false] at hc
    -- three signs in front of the digits of the row
    rcases hc with rfl | rfl | rfl | hc
    · decide
    · decide
    · decide
    · have hdigit : c.isDigit = true := Nat.isDigit_of_mem_toDigits (by decide) (by decide) hc
      have hlow : 48 ≤ c.toNat := by
        rw [Char.isDigit, Bool.and_eq_true, decide_eq_true_eq] at hdigit
        exact hdigit.1
      simp only [Cell.isIllegal, Bool.or_eq_true, beq_iff_eq, decide_eq_true_eq,
        Bool.and_eq_true, not_or]
      omega

variable {d : Nat} {hd : 1 ≤ d} {p : Position} {datum : Datum}

theorem periodDatum_startingAt (row : Nat) {kind : RowKind} (h : kind ≠ .input) :
    periodDatum (.startingAt d hd) row kind = .text (ownRow row) := by
  have hname : String.ofList (columnName 5) = "E" := by
    simp [columnName, columnLetter]
  have hformula : Datum.text ("=$" ++ String.ofList (columnName 5) ++ toString row) =
      .text (ownRow row) := by
    rw [hname, ownRow]
    rfl
  cases kind with
  | input => exact absurd rfl h
  | _ => exact hformula

/-! ## Entries -/

/-- The row of the header. -/
def headRow (d : Nat) : Nat := max 1 (d - 2)

theorem headEntries_startingAt : headEntries (.startingAt d hd) =
    (⟨1, 1⟩, .text "Model calculations") ::
      [(1, "ID"), (2, "Label"), (4, "Code"), (5, "Assumption"), (6, "M1"), (7, "M2"), (8, "M3"),
        (9, "M4"), (10, "M5"), (11, "M6")].map fun entry : Nat × String =>
          (⟨headRow d, entry.1⟩, .text entry.2) := rfl

/-- The data above the blocks stand in the row of the header or above it, and only the name of the
column of types stands in that column. -/
theorem of_mem_headEntries (h : (p, datum) ∈ headEntries (.startingAt d hd)) :
    p.row ≤ headRow d ∧ p.column ≤ 11 ∧
      (p.column = 4 → p = ⟨headRow d, 4⟩ ∧ datum = .text "Code") := by
  rw [headEntries_startingAt] at h
  simp only [List.map_cons, List.map_nil, List.mem_cons, List.not_mem_nil, or_false,
    Prod.mk.injEq] at h
  rcases h with ⟨rfl, rfl⟩ | ⟨rfl, rfl⟩ | ⟨rfl, rfl⟩ | ⟨rfl, rfl⟩ | ⟨rfl, rfl⟩ | ⟨rfl, rfl⟩ |
    ⟨rfl, rfl⟩ | ⟨rfl, rfl⟩ | ⟨rfl, rfl⟩ | ⟨rfl, rfl⟩ | ⟨rfl, rfl⟩
  · exact ⟨Nat.le_max_left _ _, (by decide : 1 ≤ 11), nofun⟩
  all_goals simp

/-- The data of a row of a block, by columns. -/
theorem of_mem_rowEntries {row : Nat} {type : String} {r : Row}
    (h : (p, datum) ∈ rowEntries (.startingAt d hd) row type r) :
    p.row = row ∧ p.column ≤ 11 ∧ (p.column = 4 → datum = .text type) ∧
      (6 ≤ p.column → datum = periodDatum (.startingAt d hd) row r.kind) ∧
      (datum = .text type ∨ datum = r.id ∨ datum = r.label ∨
        datum = periodDatum (.startingAt d hd) row r.kind) := by
  have htag : (Layout.startingAt d hd).tagColumn = 4 := rfl
  have hcolumns : periodColumns = [6, 7, 8, 9, 10, 11] := rfl
  rw [rowEntries, htag, List.mem_cons] at h
  -- tag, then id, then label, then one entry per period
  rcases h with h | h
  · cases h
    simp
  split at h
  · cases h
  rw [List.mem_append, List.mem_cons] at h
  rcases h with h | h | h
  · split at h
    · cases List.mem_singleton.mp h
      simp
    · cases h
  · cases h
    simp
  split at h
  · cases h
  · rcases List.mem_map.mp h with ⟨column, hcolumn, heq⟩
    cases heq
    have hbounds : 6 ≤ column ∧ column ≤ 11 := by
      rw [hcolumns] at hcolumn
      simp only [List.mem_cons, List.not_mem_nil, or_false] at hcolumn
      omega
    refine ⟨rfl, hbounds.2, ?_, fun _ => rfl, Or.inr (Or.inr (Or.inr rfl))⟩
    intro hfour
    simp only at hfour
    omega

/-! ## Templates -/

/-- What a template with blocks from some row on holds. -/
structure Prepared (d : Nat) (items : List (String × List Datum)) (t : Sheet) : Prop where
  merged_eq : t.merged = []
  header_mem : ⟨headRow d, 11⟩ ∈ t.cells
  column_le : ∀ p ∈ t.cells, p.column ≤ 11
  row_lt : ∀ p ∈ t.cells, p.row < d + items.length
  fits : items ≠ [] → d + items.length ≤ lastRow + 1
  head : t.value ⟨headRow d, 4⟩ = .text "Code"
  above : ∀ row, row < d → row ≠ headRow d → t.value ⟨row, 4⟩ = .blank
  gap : ∀ p, headRow d < p.row → p.row < d → t.cell p = {}
  tag : ∀ i type data, items[i]? = some (type, data) → t.value ⟨d + i, 4⟩ = .text type
  period : ∀ i type data r, items[i]? = some (type, data) → Row.ofData data = .ok r →
    r.kind = .formula → ∀ column ∈ periodColumns,
      t.value ⟨d + i, column⟩ = .text (ownRow (d + i))
  enterable : ∀ p, ∃ v : Value, (t.cell p).content = v.entered ∧ v.Storable ∧
    (d ≤ p.row → v.beginsFormula = true → v = .text (ownRow p.row))

/-- Blocks whose types can be told apart, as words in one cell each that differ from the name of
their column, and whose texts begin no formulas. -/
structure Legible (blocks : Blocks) : Prop where
  nodup : blocks.keys.Nodup
  rows_ne : ∀ block ∈ blocks, block.2 ≠ []
  type_ne : ∀ block ∈ blocks, block.1 ≠ "" ∧ block.1 ≠ "Code"
  type_trimmed : ∀ block ∈ blocks, Text.trimmed block.1 = block.1
  type_le : ∀ block ∈ blocks, block.1.length ≤ Cell.textLimit
  type_text : ∀ block ∈ blocks, (Datum.text block.1).beginsFormula = false
  data_text : ∀ block ∈ blocks, ∀ data ∈ block.2, ∀ datum ∈ data.take 2,
    datum.beginsFormula = false

theorem legible_defaultBlocks : Legible defaultBlocks where
  nodup := by decide +kernel
  rows_ne := by simp [defaultBlocks]
  type_ne := by decide +kernel
  type_trimmed := by decide +kernel
  type_le := by decide +kernel
  type_text := by decide +kernel
  data_text := by decide +kernel

theorem mem_taggedRows {blocks : Blocks} {type : String} {data : List Datum} :
    (type, data) ∈ taggedRows blocks ↔ ∃ rows, (type, rows) ∈ blocks ∧ data ∈ rows := by
  simp only [taggedRows, List.mem_flatMap, List.mem_map, Prod.mk.injEq]
  constructor
  · rintro ⟨⟨type, rows⟩, hblock, data, hdata, rfl, rfl⟩
    exact ⟨rows, hblock, hdata⟩
  · rintro ⟨rows, hblock, hdata⟩
    exact ⟨(type, rows), hblock, data, hdata, rfl, rfl⟩

theorem Row.eq_of_ofData {data : List Datum} {r : Row} (h : Row.ofData data = .ok r) :
    ∃ kind, data = [r.id, r.label, kind] ∧ r.kind = .ofDatum kind := by
  match data, h with
  | [id, label, kind], rfl => exact ⟨kind, rfl, rfl⟩

section

variable {blocks : Blocks} {t : Sheet} {title : String}

theorem mem_entries {e : Position × Datum} : e ∈ entries (.startingAt d hd) blocks ↔
    e ∈ headEntries (.startingAt d hd) ∨ ∃ i type data r,
      (taggedRows blocks)[i]? = some (type, data) ∧ Row.ofData data = .ok r ∧
        e ∈ rowEntries (.startingAt d hd) (d + i) type r := by
  rw [entries, List.mem_append, mem_rowsEntries]
  rfl

theorem headRow_lt (hd2 : 2 ≤ d) : headRow d < d := by
  rw [headRow]
  omega

/-- Below the header each datum belongs to a row of a block. -/
theorem exists_item_of_mem (hp : headRow d < p.row)
    (h : (p, datum) ∈ entries (.startingAt d hd) blocks) :
    ∃ i type data r, (taggedRows blocks)[i]? = some (type, data) ∧ Row.ofData data = .ok r ∧
      (p, datum) ∈ rowEntries (.startingAt d hd) (d + i) type r := by
  refine (mem_entries.mp h).resolve_left fun hhead => ?_
  exact Nat.not_le_of_lt hp (of_mem_headEntries hhead).1

/-- The row is the one that stands in this place of the list. -/
theorem mem_rowEntries_of_mem {i column : Nat} {type : String} {data : List Datum} {r : Row}
    (hd2 : 2 ≤ d) (hitem : (taggedRows blocks)[i]? = some (type, data))
    (hr : Row.ofData data = .ok r)
    (h : (⟨d + i, column⟩, datum) ∈ entries (.startingAt d hd) blocks) :
    (⟨d + i, column⟩, datum) ∈ rowEntries (.startingAt d hd) (d + i) type r := by
  have hbelow : headRow d < d + i := Nat.lt_of_lt_of_le (headRow_lt hd2) (Nat.le_add_right d i)
  rcases exists_item_of_mem hbelow h with ⟨j, type', data', r', hitem', hr', hmem⟩
  have hj : d + i = d + j := (of_mem_rowEntries hmem).1
  obtain rfl : i = j := Nat.add_left_cancel hj
  obtain ⟨rfl, rfl⟩ := Prod.mk.inj (Option.some.inj (hitem.symm.trans hitem'))
  obtain rfl := Except.ok.inj (hr.symm.trans hr')
  exact hmem

/-- Entered texts are not cut if they fit into a cell. -/
theorem value_of_content_text {s : String} (hs : s.length ≤ Cell.textLimit)
    (h : (t.cell p).content = (Value.ofDatum (.text s)).entered) : t.value p = .text s := by
  have hvalue := Cell.value_of_content h
  rwa [Value.ofDatum, Cell.cut_of_le hs] at hvalue

section

variable (h : Entered (entries (.startingAt d hd) blocks) { title } t)

include h

theorem row_le_lastRow {i : Nat} {item : String × List Datum}
    (hrows : ∀ item ∈ taggedRows blocks, ∃ r, Row.ofData item.2 = .ok r)
    (hitem : (taggedRows blocks)[i]? = some item) : d + i ≤ lastRow := by
  obtain ⟨type, data⟩ := item
  rcases hrows _ (List.mem_of_getElem? hitem) with ⟨r, hr⟩
  have hmem : (⟨d + i, 4⟩, .text type) ∈ entries (.startingAt d hd) blocks :=
    mem_entries.mpr (Or.inr ⟨i, type, data, r, hitem, hr, List.mem_cons_self⟩)
  exact (h.bounds _ hmem).2

/-- Where nothing was entered the sheet is empty. -/
theorem cell_of_forall_ne (hp : ∀ datum, (p, datum) ∉ entries (.startingAt d hd) blocks) :
    t.cell p = {} := by
  refine (h.other p ?_).trans Std.ExtTreeMap.getD_empty
  rintro ⟨q, datum⟩ hmem rfl
  exact hp datum hmem

theorem mem_cells_cases (hp : p ∈ t.cells) :
    p.column ≤ 11 ∧ (p.row ≤ headRow d ∨ p.row < d + (taggedRows blocks).length) := by
  rcases (h.mem_iff p).mp hp with ⟨⟨q, datum⟩, hmem, rfl⟩ | hnone
  · rcases mem_entries.mp hmem with hhead | ⟨i, type, data, r, hitem, -, hmem'⟩
    · have hspec := of_mem_headEntries hhead
      exact ⟨hspec.2.1, Or.inl hspec.1⟩
    · have hspec := of_mem_rowEntries hmem'
      have hi := (List.getElem?_eq_some_iff.mp hitem).1
      have hrow : q.row = d + i := hspec.1
      exact ⟨hspec.2.1, Or.inr (show q.row < _ by omega)⟩
  · exact absurd hnone Std.ExtTreeMap.not_mem_empty

theorem value_header (hd2 : 2 ≤ d) : t.value ⟨headRow d, 4⟩ = .text "Code" := by
  have hcode : (⟨headRow d, 4⟩, .text "Code") ∈ headEntries (.startingAt d hd) := by
    simp [headEntries_startingAt]
  refine value_of_content_text (by decide) (h.content _ _ nofun
    (mem_entries.mpr (Or.inl hcode)) fun datum hmem => ?_)
  rcases mem_entries.mp hmem with hhead | ⟨i, type, data, r, -, -, hmem'⟩
  · exact ((of_mem_headEntries hhead).2.2 rfl).2
  · have hrow : headRow d = d + i := (of_mem_rowEntries hmem').1
    have := headRow_lt hd2
    omega

theorem value_tag (hd2 : 2 ≤ d) (hrows : ∀ item ∈ taggedRows blocks, ∃ r, Row.ofData item.2 = .ok r)
    (hlegible : Legible blocks) {i : Nat} {type : String} {data : List Datum}
    (hitem : (taggedRows blocks)[i]? = some (type, data)) : t.value ⟨d + i, 4⟩ = .text type := by
  have hitem' := List.mem_of_getElem? hitem
  rcases hrows _ hitem' with ⟨r, hr⟩
  rcases mem_taggedRows.mp hitem' with ⟨rows, hblock, -⟩
  refine value_of_content_text (hlegible.type_le _ hblock) (h.content _ _ nofun
    (mem_entries.mpr (Or.inr ⟨i, type, data, r, hitem, hr, List.mem_cons_self⟩))
      fun datum hmem => ?_)
  exact (of_mem_rowEntries (mem_rowEntries_of_mem hd2 hitem hr hmem)).2.2.1 rfl

theorem value_period (hd2 : 2 ≤ d)
    (hrows : ∀ item ∈ taggedRows blocks, ∃ r, Row.ofData item.2 = .ok r) {i column : Nat}
    {type : String} {data : List Datum} {r : Row}
    (hitem : (taggedRows blocks)[i]? = some (type, data)) (hr : Row.ofData data = .ok r)
    (hkind : r.kind = .formula) (hcolumn : column ∈ periodColumns) :
    t.value ⟨d + i, column⟩ = .text (ownRow (d + i)) := by
  have hdatum : periodDatum (.startingAt d hd) (d + i) r.kind = .text (ownRow (d + i)) :=
    periodDatum_startingAt (d + i) (by rw [hkind]; exact nofun)
  have hmem : (⟨d + i, column⟩, .text (ownRow (d + i))) ∈ entries (.startingAt d hd) blocks := by
    refine mem_entries.mpr (Or.inr ⟨i, type, data, r, hitem, hr, ?_⟩)
    -- periods are written in rows that neither pause nor head others
    have hpause : r.kind ≠ .pause := by
      rw [hkind]
      exact nofun
    have hheading : r.kind ≠ .heading := by
      rw [hkind]
      exact nofun
    rw [rowEntries, if_neg hpause, if_neg hheading, ← hdatum]
    refine List.mem_cons_of_mem _ (List.mem_append_right _ (List.mem_cons_of_mem _ ?_))
    exact List.mem_map_of_mem hcolumn
  have hfits := (storable_ownRow (row_le_lastRow h hrows hitem)).1
  refine value_of_content_text hfits (h.content _ _ nofun hmem fun datum hother => ?_)
  have hsix : 6 ≤ column := (List.mem_range'_1.mp hcolumn).1
  rw [← hdatum]
  exact (of_mem_rowEntries (mem_rowEntries_of_mem hd2 hitem hr hother)).2.2.2.1 hsix

/-- Only the rows of formulas begin as formulas do. -/
theorem eq_ownRow_of_beginsFormula
    (hlegible : Legible blocks) (hp : d ≤ p.row) (hd2 : 2 ≤ d)
    (hmem : (p, datum) ∈ entries (.startingAt d hd) blocks)
    (hformula : datum.beginsFormula = true) : Value.ofDatum datum = .text (ownRow p.row) := by
  have hbelow := Nat.lt_of_lt_of_le (headRow_lt hd2) hp
  rcases exists_item_of_mem hbelow hmem with ⟨i, type, data, r, hitem, hr, hmem'⟩
  rcases mem_taggedRows.mp (List.mem_of_getElem? hitem) with ⟨rows, hblock, hdata⟩
  have hrow := (of_mem_rowEntries hmem').1
  rcases Row.eq_of_ofData hr with ⟨kind, rfl, -⟩
  -- neither the type nor the two data in front of the kind begin a formula
  rcases (of_mem_rowEntries hmem').2.2.2.2 with rfl | rfl | rfl | rfl
  · rw [hlegible.type_text _ hblock] at hformula
    cases hformula
  · rw [hlegible.data_text _ hblock _ hdata _ (by simp)] at hformula
    cases hformula
  · rw [hlegible.data_text _ hblock _ hdata _ (by simp)] at hformula
    cases hformula
  · by_cases hkind : r.kind = .input
    · rw [hkind] at hformula
      cases hformula
    · rw [periodDatum_startingAt _ hkind, hrow, Value.ofDatum, Cell.cut_of_le]
      exact (storable_ownRow (hrow ▸ (h.bounds _ hmem).2)).1

theorem prepared_of_entered (hd2 : 2 ≤ d)
    (hrows : ∀ item ∈ taggedRows blocks, ∃ r, Row.ofData item.2 = .ok r)
    (hlegible : Legible blocks) : Prepared d (taggedRows blocks) t where
  merged_eq := h.merged_eq
  header_mem := by
    refine (h.mem_iff _).mpr (Or.inl ⟨(_, .text "M6"), mem_entries.mpr (Or.inl ?_), rfl⟩)
    simp [headEntries_startingAt]
  column_le p hp := (mem_cells_cases h hp).1
  row_lt p hp := by
    have := headRow_lt hd2
    rcases (mem_cells_cases h hp).2 with hrow | hrow <;> omega
  fits hne := by
    -- the last row was written to, so it is a row of a sheet
    have hpos := List.length_pos_iff.mpr hne
    have hrow := row_le_lastRow h hrows
      (List.getElem?_eq_getElem (i := (taggedRows blocks).length - 1) (by omega))
    omega
  head := value_header h hd2
  above row hrow hne := by
    refine congrArg Cell.value (cell_of_forall_ne h fun datum hmem => ?_)
    rcases mem_entries.mp hmem with hhead | ⟨i, type, data, r, -, -, hmem'⟩
    · exact hne (congrArg Position.row ((of_mem_headEntries hhead).2.2 rfl).1)
    · have hrow' : row = d + i := (of_mem_rowEntries hmem').1
      omega
  gap p hlow hhigh := by
    refine cell_of_forall_ne h fun datum hmem => ?_
    rcases exists_item_of_mem hlow hmem with ⟨i, type, data, r, -, -, hmem'⟩
    have hrow := (of_mem_rowEntries hmem').1
    omega
  tag i type data hitem := value_tag h hd2 hrows hlegible hitem
  period i type data r hitem hr hkind column hcolumn :=
    value_period h hd2 hrows hitem hr hkind hcolumn
  enterable p := by
    -- a cell is as it was on the empty sheet, or it holds what was entered last
    rcases h.cases p with hsame | ⟨datum, hne, hmem, hcontent⟩
    · have hempty : ({ title } : Sheet).cell p = {} := Std.ExtTreeMap.getD_empty
      rw [hempty] at hsame
      exact ⟨.blank, hsame, trivial, fun _ => nofun⟩
    · refine ⟨.ofDatum datum, hcontent, h.storable _ hmem hne, fun hp hformula => ?_⟩
      rw [Grid.Value.beginsFormula_ofDatum] at hformula
      exact eq_ownRow_of_beginsFormula h hlegible hp hd2 hmem hformula

end

/-- Looking cells up allocates empty ones, which changes nothing within the extent. -/
theorem Prepared.widened {items : List (String × List Datum)} {u : Sheet}
    {area : Position → Prop} (h : Prepared d items t) (hw : Widened area t u)
    (harea : ∀ p, area p → p.row < d + items.length ∧ p.column ≤ 11) : Prepared d items u := by
  have hvalue (p : Position) : u.value p = t.value p := congrArg Cell.value (hw.cell_eq p)
  exact
    { merged_eq := hw.merged_eq.trans h.merged_eq
      header_mem := hw.mem _ h.header_mem
      column_le := fun p hp => (hw.within p hp).elim (h.column_le p) fun hin => (harea p hin).2
      row_lt := fun p hp => (hw.within p hp).elim (h.row_lt p) fun hin => (harea p hin).1
      fits := h.fits
      head := (hvalue _).trans h.head
      above := fun row hrow hne => (hvalue _).trans (h.above row hrow hne)
      gap := fun p hlow hhigh => (hw.cell_eq p).trans (h.gap p hlow hhigh)
      tag := fun i type data hitem => (hvalue _).trans (h.tag i type data hitem)
      period := fun i type data r hitem hr hkind column hcolumn =>
        (hvalue _).trans (h.period i type data r hitem hr hkind column hcolumn)
      enterable := fun p => by
        rw [hw.cell_eq]
        exact h.enterable p }

/-- A template of the default layout that was built is prepared. -/
theorem exists_prepared {b : Workbook} (hd2 : 2 ≤ d) (hlegible : Legible blocks)
    (h : build (.startingAt d hd) blocks = .ok b) :
    ∃ t, b = ⟨[t]⟩ ∧ t.title = "Codes" ∧ Prepared d (taggedRows blocks) t ∧
      ∀ item ∈ taggedRows blocks, ∃ r, Row.ofData item.2 = .ok r := by
  rcases exists_of_build h with ⟨title, t, htitle, rfl, hentered, hrows⟩
  have hcodes : sheetTitle (.startingAt d hd) = .ok "Codes" := by
    have hname : (Layout.startingAt d hd).templateSheet = "Codes" := rfl
    rw [sheetTitle, hname]
    decide +kernel
  obtain rfl : title = "Codes" := Except.ok.inj (htitle.symm.trans hcodes)
  exact ⟨t, rfl, hentered.title_eq, prepared_of_entered hentered hd2 hrows hlegible, hrows⟩

end

end Template

end Sheetwright
