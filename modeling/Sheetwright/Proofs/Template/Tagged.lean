import Sheetwright.Proofs.Template.Placed
import Sheetwright.Proofs.Workbook.Numbering
/-!
# Blocks found by their types

A search for the type of a block gives the rows that were written for it if the type stands in the
first and in the last of them once all is written, and in no other row of the tag column. The tag
column is any column: a row may put its identifier, its label or a period where its type stood, and
the header puts a name there. `agrees_iff` says for every layout and all blocks when all of them are
found, and the sheet under its title; where nothing else is written in the tag column and the types
are not the name of that column they are (`Findable.of_free`).
-/

namespace Sheetwright.Template

open Grid Grid.Sheet

variable {layout : Layout} {blocks before after : Blocks} {s t : Sheet} {type : String}
  {rows : List (List Datum)} {row column : Nat}

/-! ## Searching a column -/

theorem ends?_eq_some_iff {rows : List Nat} (h : rows.Pairwise (· < ·)) {first last : Nat} :
    ends? rows = some (first, last) ↔
      first ∈ rows ∧ last ∈ rows ∧ ∀ row ∈ rows, first ≤ row ∧ row ≤ last := by
  cases rows with
  | nil => simp [ends?]
  | cons head rest =>
    -- in ascending order the first row is the least and the last one the greatest
    have hlow : ∀ row ∈ head :: rest, head ≤ row := by
      rw [List.pairwise_cons] at h
      exact List.forall_mem_cons.mpr ⟨Nat.le_refl head, fun row hrow => Nat.le_of_lt (h.1 row hrow)⟩
    have hne : head :: rest ≠ [] := List.cons_ne_nil _ _
    have hhigh : ∀ row ∈ head :: rest, row ≤ (head :: rest).getLast hne := by
      intro row hrow
      rw [← List.dropLast_append_getLast hne] at h hrow
      rcases List.mem_append.mp hrow with hfront | hlast
      · have hbelow := (List.pairwise_append.mp h).2.2
        exact Nat.le_of_lt (hbelow row hfront _ (List.mem_singleton_self _))
      · exact Nat.le_of_eq (List.mem_singleton.mp hlast)
    rw [ends?, Option.some.injEq, Prod.mk.injEq]
    constructor
    · rintro ⟨rfl, rfl⟩
      refine ⟨List.mem_cons_self, List.getLast_mem hne, fun row hrow => ?_⟩
      exact ⟨hlow row hrow, hhigh row hrow⟩
    · rintro ⟨hfirst, hlast, hall⟩
      have hhead := hall head List.mem_cons_self
      have htail := hall _ (List.getLast_mem hne)
      exact ⟨Nat.le_antisymm (hlow _ hfirst) hhead.1, Nat.le_antisymm htail.2 (hhigh _ hlast)⟩

/-- The rows that a search gives are the outermost ones that carry the tag. -/
theorem tagged?_eq_some_iff {tag : String} {first last : Nat} (hfirst : 1 ≤ first)
    (hlast : 1 ≤ last) : t.tagged? column tag = some (first, last) ↔
      t.isTagged ⟨first, column⟩ tag = true ∧ t.isTagged ⟨last, column⟩ tag = true ∧
        ∀ row, 1 ≤ row → t.isTagged ⟨row, column⟩ tag = true → first ≤ row ∧ row ≤ last := by
  -- the rows are searched from the top, so first and last found are smallest and largest
  have hsorted : (t.rows.filter fun row => t.isTagged ⟨row, column⟩ tag).Pairwise (· < ·) := by
    refine List.Pairwise.filter _ ?_
    rw [Sheet.rows, Range.span]
    exact List.pairwise_lt_range'
  have hmem : ∀ row, 1 ≤ row → (row ∈ (t.rows.filter fun row => t.isTagged ⟨row, column⟩ tag) ↔
      t.isTagged ⟨row, column⟩ tag = true) := by
    intro row hrow
    rw [List.mem_filter, Sheet.rows, mem_span]
    exact ⟨And.right, fun htag => ⟨⟨hrow, le_maxRow_of_isTagged htag⟩, htag⟩⟩
  rw [tagged?, ends?_eq_some_iff hsorted, hmem first hfirst, hmem last hlast]
  refine and_congr_right fun _ => and_congr_right fun _ => ?_
  constructor
  · exact fun h row hrow htag => h row ((hmem row hrow).mpr htag)
  · intro h row hrow
    have hpos : 1 ≤ row := by
      rw [List.mem_filter, Sheet.rows, mem_span] at hrow
      exact hrow.1.1
    exact h row hpos ((hmem row hpos).mp hrow)

/-- Looking through a column opens cells and changes no value, so what is found was there before. -/
theorem exists_run_findTagged_iff {tag : String} {first last : Nat} (hcolumn : 1 ≤ column)
    (hfirst : 1 ≤ first) (hlast : 1 ≤ last) :
    (∃ u, (findTagged column tag).run t = .ok (some (first, last)) u) ↔
      t.tagged? column tag = some (first, last) := by
  have hrun := run_findTagged hcolumn tag t
  rw [← tagged?] at hrun
  have hsame (p : Position) :
      (t.allocateBlock t.rows [column]).isTagged p tag = t.isTagged p tag := by
    rw [isTagged, isTagged, value, value, (t.widened_allocateBlock t.rows [column]).cell_eq]
  have hfound : (t.allocateBlock t.rows [column]).tagged? column tag = some (first, last) ↔
      t.tagged? column tag = some (first, last) := by
    rw [tagged?_eq_some_iff hfirst hlast, tagged?_eq_some_iff hfirst hlast]
    simp only [hsame]
  rw [hrun, ← hfound]
  constructor
  · rintro ⟨u, hu⟩
    exact (EStateM.Result.ok.inj hu).1
  · intro h
    exact ⟨_, by rw [h]⟩

/-! ## What stands in the tag column -/

/-- A text in the tag column reads as a type, blanks around it aside. -/
def reads (type : String) : Datum → Bool
  | .text text => Text.trimmed (Cell.cut text) = type
  | _ => false

/-- A cell carries a tag if the datum that was entered last reads as the tag. -/
theorem isTagged_of_entered {entries : List (Position × Datum)} {title : String} {p : Position}
    (h : Entered entries { title } t) (tag : String) :
    t.isTagged p tag = ((lastAt entries p).map (reads tag)).getD false := by
  have hempty : (({ title } : Sheet).cell p).content = .entry .number .blank :=
    congrArg Cell.content Std.ExtTreeMap.getD_empty
  have hcontent := h.content_eq p
  rw [hempty] at hcontent
  cases hlast : lastAt entries p with
  | none =>
    rw [hlast] at hcontent
    have hvalue : t.value p = .blank := Cell.value_of_content (v := .blank) hcontent
    rw [isTagged, hvalue]
    rfl
  | some d =>
    rw [hlast] at hcontent
    have hvalue : t.value p = .ofDatum d := Cell.value_of_content hcontent
    rw [isTagged, hvalue, Option.map_some, Option.getD_some]
    cases d <;> simp only [Value.ofDatum, reads]

theorem lastAt_map_same {columns : List Nat} {d : Datum} (hne : d ≠ .null) :
    lastAt (columns.map fun c => (⟨row, c⟩, d)) ⟨row, column⟩ =
      if column ∈ columns then some d else none := by
  induction columns with
  | nil => rfl
  | cons c columns ih =>
    rw [List.map_cons, lastAt, ih, present?_of_ne hne]
    by_cases hmem : column ∈ columns
    · simp [hmem]
    · by_cases hc : c = column <;> simp [hmem, hc, Ne.symm]

/-- What is left in the tag column of a row of a block: its type, unless the row puts something else
there. -/
def tagDatum (layout : Layout) (row : Nat) (type : String) (r : Row) : Datum :=
  if r.kind = .pause then .text type
  else if layout.tagColumn = 1 ∧ r.id.isGiven = true then r.id
  else if layout.tagColumn = 2 then (present? r.label).getD (.text type)
  else if r.kind ≠ .heading ∧ layout.tagColumn ∈ periodColumns then periodDatum layout row r.kind
  else .text type

theorem position_inj {c : Nat} : (⟨row, c⟩ : Position) = ⟨row, column⟩ ↔ column = c := by
  rw [Position.mk.injEq]
  exact ⟨fun h => h.2.symm, fun h => ⟨rfl, h.symm⟩⟩

theorem present?_of_isGiven {d : Datum} (h : d.isGiven = true) : present? d = some d := by
  refine present?_of_ne ?_
  rintro rfl
  cases h

theorem lastAt_id (r : Row) :
    lastAt (if r.id.isGiven = true then [(⟨row, 1⟩, r.id)] else []) ⟨row, column⟩ =
      if column = 1 ∧ r.id.isGiven = true then some r.id else none := by
  by_cases hgiven : r.id.isGiven = true
  · rw [if_pos hgiven, lastAt_singleton, present?_of_isGiven hgiven]
    simp only [position_inj, hgiven, and_true]
  · rw [if_neg hgiven, if_neg fun h => hgiven h.2]
    rfl

theorem lastAt_periods (r : Row) :
    lastAt (if r.kind = .heading then [] else
        periodColumns.map fun column => (⟨row, column⟩, periodDatum layout row r.kind))
      ⟨row, column⟩ =
        if r.kind ≠ .heading ∧ column ∈ periodColumns then
          some (periodDatum layout row r.kind) else none := by
  have hne : periodDatum layout row r.kind ≠ .null := by
    intro hnull
    cases hkind : r.kind <;> rw [hkind] at hnull <;> cases hnull
  by_cases hheading : r.kind = .heading
  · rw [if_pos hheading, if_neg fun h => h.1 hheading]
    rfl
  · rw [if_neg hheading, lastAt_map_same hne]
    simp only [hheading, ne_eq, not_false_eq_true, true_and]

/-- The type is entered first; at most one of the identifier, the label and the periods comes into
its place. -/
theorem lastAt_rowEntries (layout : Layout) (row : Nat) (type : String) (r : Row) :
    lastAt (rowEntries layout row type r) ⟨row, layout.tagColumn⟩ =
      some (tagDatum layout row type r) := by
  have htype : present? (.text type) = some (.text type) := rfl
  rw [rowEntries, lastAt, if_pos rfl, tagDatum, htype]
  by_cases hpause : r.kind = .pause
  · rw [if_pos hpause, if_pos hpause]
    rfl
  rw [if_neg hpause, if_neg hpause, lastAt_append, lastAt, lastAt_id, lastAt_periods]
  simp only [position_inj]
  -- the three columns differ, so one of these data at most is there
  have hfirst : 1 ∉ periodColumns := by decide
  have hsecond : 2 ∉ periodColumns := by decide
  by_cases hone : layout.tagColumn = 1
  · by_cases hgiven : r.id.isGiven = true <;> simp [hone, hfirst, hgiven]
  by_cases htwo : layout.tagColumn = 2
  · cases hlabel : present? r.label <;> simp [htwo, hsecond]
  by_cases hperiod : r.kind ≠ .heading ∧ layout.tagColumn ∈ periodColumns <;>
    simp [hone, htwo, hperiod]

/-- The name that the header has over the tag column: a period, or else the name of the types. -/
def heading (layout : Layout) : String :=
  ((periodColumns.zip periods).lookup layout.tagColumn).getD "Code"

theorem nodup_keys_headers (layout : Layout) : (headers layout).keys.Nodup := by
  have hnone : (Entries.keys ([] : Entries Nat String)).Nodup := List.nodup_nil
  have hnamed : (Entries.keys
      (Entries.ofPairs [(1, "ID"), (2, "Label"), (layout.tagColumn, "Code")])).Nodup :=
    Entries.nodup_keys_foldl_put hnone _
  rw [headers]
  dsimp only
  refine Entries.nodup_keys_foldl_put ?_ _
  split
  · exact hnamed
  · exact Entries.nodup_keys_put hnamed _ _

theorem get?_headers (layout : Layout) :
    (headers layout).get? layout.tagColumn = some (heading layout) := by
  have hperiods : Entries.keys (periodColumns.zip periods) = periodColumns := rfl
  have hcode : (Entries.ofPairs [(1, "ID"), (2, "Label"), (layout.tagColumn, "Code")]).get?
      layout.tagColumn = some "Code" := Entries.get?_put_self _ _ _
  rw [headers]
  dsimp only
  rw [Entries.get?_foldl_put (by rw [hperiods]; decide), heading, Entries.get?]
  generalize hnamed : Entries.ofPairs [(1, "ID"), (2, "Label"), (layout.tagColumn, "Code")] = named
    at hcode ⊢
  split
  next => rw [hcode]; cases List.lookup layout.tagColumn (periodColumns.zip periods) <;> rfl
  next hfree =>
    -- the column of the types has its name already, so the other one is not the same
    have hne : layout.tagColumn ≠ layout.assumptionsColumn := by
      intro heq
      rw [← heq, Entries.has, hcode] at hfree
      exact hfree rfl
    rw [Entries.get?_put_of_ne hne, hcode]
    cases List.lookup layout.tagColumn (periodColumns.zip periods) <;> rfl

theorem lastAt_map_entries {entries : Entries Nat String} (h : entries.keys.Nodup)
    (row column : Nat) :
    lastAt (entries.map fun (column, name) => (⟨row, column⟩, .text name)) ⟨row, column⟩ =
      (entries.get? column).map .text := by
  induction entries with
  | nil => rfl
  | cons entry entries ih =>
    obtain ⟨c, name⟩ := entry
    rw [Entries.keys, List.map_cons, List.nodup_cons] at h
    rw [List.map_cons, lastAt, ih h.2]
    by_cases hc : column = c
    · subst hc
      rw [Entries.get?_cons_self, Entries.get?_eq_none_iff.mpr h.1, if_pos rfl]
      rfl
    · rw [if_neg (mt position_inj.mp hc), Entries.get?_cons_of_ne hc, Option.or_none]

/-- The text above the blocks in the tag column. -/
def textAbove? (layout : Layout) (row : Nat) : Option String :=
  if row = headerRow layout then some (heading layout)
  else if row = 1 ∧ layout.tagColumn = 1 then some "Model calculations"
  else none

theorem lastAt_headEntries (layout : Layout) (row : Nat) :
    lastAt (headEntries layout) ⟨row, layout.tagColumn⟩ = (textAbove? layout row).map .text := by
  rw [headEntries, lastAt, textAbove?]
  by_cases hrow : row = headerRow layout
  · subst hrow
    rw [lastAt_map_entries (nodup_keys_headers layout), get?_headers, if_pos rfl]
    rfl
  · rw [lastAt_of_forall_ne, if_neg hrow, Option.none_or]
    · by_cases htitle : row = 1 ∧ layout.tagColumn = 1
      · rw [if_pos htitle, htitle.1, htitle.2, if_pos rfl]
        rfl
      · rw [if_neg htitle, if_neg]
        · rfl
        · intro heq
          obtain ⟨hone, htag⟩ := Position.mk.inj heq
          exact htitle ⟨hone.symm, htag.symm⟩
    · intro e he heq
      rcases List.mem_map.mp he with ⟨entry, -, rfl⟩
      exact hrow (Position.mk.inj heq).1.symm

theorem row_of_mem_rowEntries {r : Row} {e : Position × Datum}
    (h : e ∈ rowEntries layout row type r) : e.1.row = row := by
  rw [rowEntries, List.mem_cons] at h
  rcases h with rfl | h
  · rfl
  split at h
  · cases h
  rw [List.mem_append, List.mem_cons] at h
  rcases h with h | rfl | h
  · split at h
    · rw [List.mem_singleton.mp h]
    · cases h
  · rfl
  split at h
  · cases h
  · rcases List.mem_map.mp h with ⟨column, -, rfl⟩
    rfl

/-- What a row leaves in the tag column stays there, for all other rows are further down. -/
theorem lastAt_rowsEntries {items : List (String × List Datum)} {i : Nat} {data : List Datum}
    {r : Row} (hitem : items[i]? = some (type, data)) (hr : Row.ofData data = .ok r) :
    lastAt (rowsEntries layout row items) ⟨row + i, layout.tagColumn⟩ =
      some (tagDatum layout (row + i) type r) := by
  induction items generalizing row i with
  | nil => cases hitem
  | cons item items ih =>
    obtain ⟨type', data'⟩ := item
    rw [rowsEntries, lastAt_append]
    -- the entries of the later items stand in later rows, so the tag of the first one stays
    cases i with
    | zero =>
      cases hitem
      rw [hr, lastAt_of_forall_ne, Option.none_or]
      · exact lastAt_rowEntries layout row type r
      · intro e he heq
        rcases mem_rowsEntries.mp he with ⟨j, _, _, _, -, -, hmem⟩
        have hrow := row_of_mem_rowEntries hmem
        rw [heq] at hrow
        dsimp only at hrow
        omega
    | succ i =>
      have hrest : lastAt (rowsEntries layout (row + 1) items)
          ⟨row + 1 + i, layout.tagColumn⟩ = some (tagDatum layout (row + 1 + i) type r) :=
        ih hitem
      rw [Nat.add_right_comm] at hrest
      rw [← Nat.add_assoc, hrest, Option.some_or]

theorem heading_mem (layout : Layout) : heading layout ∈ "Code" :: periods := by
  rw [heading]
  cases hperiod : (periodColumns.zip periods).lookup layout.tagColumn with
  | none => exact List.mem_cons_self
  | some name =>
    have hmem : (layout.tagColumn, name) ∈ periodColumns.zip periods := Entries.mem_of_get? hperiod
    exact List.mem_cons_of_mem _ (List.of_mem_zip hmem).2

/-- The texts of the header are short and have no blanks around them. -/
theorem reads_textAbove {text : String} (h : textAbove? layout row = some text) (tag : String) :
    reads tag (.text text) = decide (text = tag) := by
  have hplain : ∀ text ∈ "Model calculations" :: "Code" :: periods,
      Text.trimmed (Cell.cut text) = text := by
    decide +kernel
  have hmem : text ∈ "Model calculations" :: "Code" :: periods := by
    rw [textAbove?] at h
    split at h
    · rw [← Option.some.inj h]
      exact List.mem_cons_of_mem _ (heading_mem layout)
    · split at h
      · rw [← Option.some.inj h]
        exact List.mem_cons_self
      · cases h
  rw [reads, hplain text hmem]

/-! ## The rows of a template -/

section

variable {title : String} (h : Entered (entries layout blocks) { title } t)

include h

/-- In a row of no block the tag column holds the text of the header. -/
theorem isTagged_other (row : Nat)
    (hrow : ∀ i, i < (taggedRows blocks).length → row ≠ layout.dataStartRow + i) (tag : String) :
    t.isTagged ⟨row, layout.tagColumn⟩ tag = decide (textAbove? layout row = some tag) := by
  rw [isTagged_of_entered h, entries, lastAt_append, lastAt_of_forall_ne, Option.none_or,
    lastAt_headEntries]
  · cases htext : textAbove? layout row with
    | none => rfl
    | some text =>
      rw [Option.map_some, Option.map_some, Option.getD_some, reads_textAbove htext]
      simp
  · intro e he heq
    rcases mem_rowsEntries.mp he with ⟨i, _, _, _, hitem, -, hmem⟩
    refine hrow i (List.getElem?_eq_some_iff.mp hitem).1 ?_
    rw [← row_of_mem_rowEntries hmem, heq]

theorem isTagged_item {i : Nat} {data : List Datum} {r : Row}
    (hitem : (taggedRows blocks)[i]? = some (type, data)) (hr : Row.ofData data = .ok r)
    (tag : String) : t.isTagged ⟨layout.dataStartRow + i, layout.tagColumn⟩ tag =
      reads tag (tagDatum layout (layout.dataStartRow + i) type r) := by
  rw [isTagged_of_entered h, entries, lastAt_append, lastAt_rowsEntries hitem hr, Option.some_or]
  rfl

end

/-- The header ends above the blocks or in their first row. -/
theorem textAbove?_eq_none (hrow : layout.dataStartRow < row) : textAbove? layout row = none := by
  have hpos := layout.dataStartRow_pos
  rw [textAbove?, headerRow, if_neg (by omega), if_neg (by omega)]

/-! ## The rows of one block -/

/-- The first of the rows that are written for a block. -/
def firstRow (layout : Layout) (before : Blocks) : Nat :=
  layout.dataStartRow + (taggedRows before).length

theorem taggedRows_split (before after : Blocks) (type : String) (rows : List (List Datum)) :
    taggedRows (before ++ (type, rows) :: after) =
      taggedRows before ++ (rows.map (fun data => (type, data)) ++ taggedRows after) := by
  rw [taggedRows, taggedRows, taggedRows, List.flatMap_append, List.flatMap_cons]

theorem getElem?_taggedRows (before after : Blocks) (type : String) {rows : List (List Datum)}
    {j : Nat} {data : List Datum} (h : rows[j]? = some data) :
    (taggedRows (before ++ (type, rows) :: after))[(taggedRows before).length + j]? =
      some (type, data) := by
  have hj := (List.getElem?_eq_some_iff.mp h).1
  rw [taggedRows_split, List.getElem?_append_right (Nat.le_add_right _ _), Nat.add_sub_cancel_left,
    List.getElem?_append_left (by rwa [List.length_map]), List.getElem?_map, h]
  rfl

theorem mem_keys_of_tagged {blocks : Blocks} {i : Nat} {other : String} {data : List Datum}
    (h : (taggedRows blocks)[i]? = some (other, data)) : other ∈ blocks.keys := by
  rcases mem_taggedRows.mp (List.mem_of_getElem? h) with ⟨rows, hblock, -⟩
  exact List.mem_map.mpr ⟨_, hblock, rfl⟩

/-- The rows with the type of a block are those of the block. -/
theorem eq_type_iff (hnodup : (Entries.keys (before ++ (type, rows) :: after)).Nodup) {i : Nat}
    {other : String} {data : List Datum}
    (hitem : (taggedRows (before ++ (type, rows) :: after))[i]? = some (other, data)) :
    other = type ↔
      (taggedRows before).length ≤ i ∧ i < (taggedRows before).length + rows.length := by
  rw [Entries.keys, List.map_append, List.map_cons, List.nodup_append, List.nodup_cons] at hnodup
  obtain ⟨-, ⟨hafter, -⟩, hbefore⟩ := hnodup
  rw [taggedRows_split] at hitem
  rcases getElem?_append_cases hitem with ⟨hi, hfront⟩ | ⟨j, rfl, hback⟩
  · exact iff_of_false (hbefore other (mem_keys_of_tagged hfront) type List.mem_cons_self)
      (by omega)
  · rcases getElem?_append_cases hback with ⟨hj, hown⟩ | ⟨k, rfl, hrest⟩
    · rw [List.length_map] at hj
      rcases List.mem_map.mp (List.mem_of_getElem? hown) with ⟨_, -, heq⟩
      exact iff_of_true (congrArg Prod.fst heq).symm (by omega)
    · rw [List.length_map]
      refine iff_of_false ?_ (by omega)
      rintro rfl
      exact hafter (mem_keys_of_tagged hrest)

/-! ## Finding a block -/

/-- The type of a block can be found: it stands in the first and the last row of the block, and in
no row of another block and of the header. -/
structure Findable (layout : Layout) (before : Blocks) (type : String) (rows : List (List Datum))
    (after : Blocks) : Prop where
  above : ∀ row, 1 ≤ row → row < layout.dataStartRow → textAbove? layout row ≠ some type
  first : ∀ data r, rows.head? = some data → Row.ofData data = .ok r →
    reads type (tagDatum layout (firstRow layout before) type r) = true
  last : ∀ data r, rows.getLast? = some data → Row.ofData data = .ok r →
    reads type (tagDatum layout (firstRow layout before + rows.length - 1) type r) = true
  others : ∀ i other data r, other ≠ type →
    (taggedRows (before ++ (type, rows) :: after))[i]? = some (other, data) →
      Row.ofData data = .ok r →
        reads type (tagDatum layout (layout.dataStartRow + i) other r) = false

section

variable {title : String}
  (hrows : ∀ item ∈ taggedRows (before ++ (type, rows) :: after), ∃ r, Row.ofData item.2 = .ok r)
  (h : Entered (entries layout (before ++ (type, rows) :: after)) { title } t)

include hrows h

/-- A row of the block carries the type if this is what the row leaves in the tag column. -/
theorem isTagged_own {j : Nat} (hj : j < rows.length) :
    t.isTagged ⟨firstRow layout before + j, layout.tagColumn⟩ type = true ↔
      ∀ data r, rows[j]? = some data → Row.ofData data = .ok r →
        reads type (tagDatum layout (firstRow layout before + j) type r) = true := by
  have hdata : rows[j]? = some rows[j] := List.getElem?_eq_getElem hj
  have hitem := getElem?_taggedRows before after type hdata
  rcases hrows _ (List.mem_of_getElem? hitem) with ⟨r, hr⟩
  have htag := isTagged_item h hitem hr type
  rw [← Nat.add_assoc] at htag
  rw [firstRow, htag]
  constructor
  · intro hreads data' r' hdata' hr'
    obtain rfl := Option.some.inj (hdata.symm.trans hdata')
    obtain rfl := Except.ok.inj (hr.symm.trans hr')
    exact hreads
  · exact fun hreads => hreads _ r hdata hr

/-- Where the type can be found, the rows that carry it are rows of the block. -/
theorem row_of_isTagged (hnodup : (Entries.keys (before ++ (type, rows) :: after)).Nodup)
    (hne : rows ≠ []) (hfindable : Findable layout before type rows after) (hrow : 1 ≤ row)
    (htag : t.isTagged ⟨row, layout.tagColumn⟩ type = true) :
    firstRow layout before ≤ row ∧ row ≤ firstRow layout before + rows.length - 1 := by
  have hlength := List.length_pos_iff.mpr hne
  have hstart : firstRow layout before = layout.dataStartRow + (taggedRows before).length := rfl
  by_cases hblock : ∃ i, i < (taggedRows (before ++ (type, rows) :: after)).length ∧
      row = layout.dataStartRow + i
  · obtain ⟨i, hi, rfl⟩ := hblock
    obtain ⟨⟨other, data⟩, hitem⟩ : ∃ item,
        (taggedRows (before ++ (type, rows) :: after))[i]? = some item :=
      ⟨_, List.getElem?_eq_getElem hi⟩
    rcases hrows _ (List.mem_of_getElem? hitem) with ⟨r, hr⟩
    have hown : other = type := by
      by_contra hother
      rw [isTagged_item h hitem hr, hfindable.others i other data r hother hitem hr] at htag
      cases htag
    have hrange := (eq_type_iff hnodup hitem).mp hown
    omega
  · -- a row of no block carries no type, be it above the blocks or below them
    have hother := isTagged_other h row (fun i hi heq => hblock ⟨i, hi, heq⟩) type
    rw [hother, decide_eq_true_eq] at htag
    have habove : row < layout.dataStartRow := by
      by_contra hbelow
      have hitem := getElem?_taggedRows before after type (List.getElem?_eq_getElem hlength)
      have hcount := (List.getElem?_eq_some_iff.mp hitem).1
      have hfirst : row ≠ layout.dataStartRow := fun heq => hblock ⟨0, by omega, heq⟩
      rw [textAbove?_eq_none (by omega)] at htag
      cases htag
    exact absurd htag (hfindable.above row hrow habove)

theorem tagged?_eq_iff (hnodup : (Entries.keys (before ++ (type, rows) :: after)).Nodup)
    (hne : rows ≠ []) : t.tagged? layout.tagColumn type =
        some (firstRow layout before, firstRow layout before + rows.length - 1) ↔
      Findable layout before type rows after := by
  have hpos := layout.dataStartRow_pos
  have hlength := List.length_pos_iff.mpr hne
  have hstart : firstRow layout before = layout.dataStartRow + (taggedRows before).length := rfl
  have hhead := isTagged_own hrows h hlength
  have hend := isTagged_own hrows h (Nat.sub_one_lt_of_lt hlength)
  rw [Nat.add_zero, ← List.head?_eq_getElem?] at hhead
  rw [← Nat.add_sub_assoc hlength, ← List.getLast?_eq_getElem?] at hend
  -- by the rows that carry the type: the two ends do, and none outside of the block
  rw [tagged?_eq_some_iff (by omega) (by omega), hhead, hend]
  constructor
  · rintro ⟨hfirst, hlast, hall⟩
    refine ⟨fun row hrow habove htext => ?_, hfirst, hlast,
      fun i other data r hother hitem hr => ?_⟩
    · have htag := isTagged_other h row (fun i _ => by omega) type
      rw [htext, decide_eq_true rfl] at htag
      have hlow := (hall row hrow htag).1
      omega
    · rw [← isTagged_item h hitem hr, Bool.eq_false_iff]
      intro htag
      have hrange := hall _ (by omega) htag
      exact hother ((eq_type_iff hnodup hitem).mpr (by omega))
  · intro hfindable
    refine ⟨hfindable.first, hfindable.last, fun row hrow htag => ?_⟩
    exact row_of_isTagged hrows h hnodup hne hfindable hrow htag

end

/-- Every block is found by its type in exactly the rows that were written for it, and the sheet
under the title of the layout. -/
structure Agrees (layout : Layout) (blocks : Blocks) (b : Workbook) : Prop where
  sheet : b.find? layout.templateSheet = some 0
  tagged : ∀ before type rows after, blocks = before ++ (type, rows) :: after →
    ∃ u, (findTagged layout.tagColumn type).run (b.sheet 0) =
      .ok (some (firstRow layout before, firstRow layout before + rows.length - 1)) u

/-- The sheet keeps the title that the layout gives it, unless this differs only in case from the
one that a new sheet has. -/
theorem sheetTitle_eq_iff {title : String} (h : sheetTitle layout = .ok title) :
    title = layout.templateSheet ↔
      (Title.same layout.templateSheet "Sheet" = true → layout.templateSheet = "Sheet") := by
  rw [sheetTitle] at h
  split at h
  next => cases h
  next =>
    split at h
    next hsheet =>
      cases h
      exact iff_of_true hsheet.symm fun _ => hsheet
    next hother =>
      -- the one title that is there is far too short to exhaust the numbers
      have hshort : ∀ title ∈ ["Sheet"], title.length < Text.digitLimit := by
        decide
      rw [Title.unused_eq, Title.numberFault?_eq_none_iff.mpr
        (Title.not_exhausted_of_short hshort _)] at h
      cases h
      -- it is plain, so a title that differs from it in case alone gets a number
      have hall : (Text.lower "Sheet".toList).all (fun c => c.toNat < 128) = true := by
        decide +kernel
      have hplain : ∀ c ∈ Text.lower "Sheet".toList, c.toNat < 128 :=
        fun c hc => of_decide_eq_true (List.all_eq_true.mp hall c hc)
      constructor
      · exact fun heq hsame =>
          absurd heq (Title.numbered_ne_of_same layout.templateSheet_ne hplain hsame)
      · intro hkept
        refine Title.numbered_eq_self_iff.mpr (Title.digitsBehind_of_forall_not_same ?_)
        intro title htitle
        rw [List.mem_singleton.mp htitle, Bool.eq_false_iff]
        exact fun hsame => hother (hkept hsame)

/-- In a template that was built a block is found in the rows that were written for it exactly if
its type can be found. -/
theorem found_iff {b : Workbook} (hnodup : (Entries.keys (before ++ (type, rows) :: after)).Nodup)
    (hne : rows ≠ []) (hbuild : build layout (before ++ (type, rows) :: after) = .ok b) :
    (∃ u, (findTagged layout.tagColumn type).run (b.sheet 0) =
      .ok (some (firstRow layout before, firstRow layout before + rows.length - 1)) u) ↔
        Findable layout before type rows after := by
  rcases exists_of_build hbuild with ⟨title, t, -, rfl, hentered, hrows⟩
  have hlength := List.length_pos_iff.mpr hne
  have hstart : 1 ≤ firstRow layout before :=
    Nat.le_trans layout.dataStartRow_pos (Nat.le_add_right _ _)
  have hsheet : Workbook.sheet ⟨[t]⟩ 0 = t := rfl
  rw [hsheet, exists_run_findTagged_iff layout.tagColumn_pos hstart (by omega),
    tagged?_eq_iff hrows hentered hnodup hne]

theorem Agrees.findable {b : Workbook} (h : Agrees layout blocks b) (hnodup : blocks.keys.Nodup)
    (hne : ∀ block ∈ blocks, block.2 ≠ []) (hbuild : build layout blocks = .ok b)
    (hsplit : blocks = before ++ (type, rows) :: after) :
    Findable layout before type rows after := by
  have htagged := h.tagged before type rows after hsplit
  subst hsplit
  exact (found_iff hnodup (hne (type, rows) (by simp)) hbuild).mp htagged

/-- A template that was built agrees with the search for its blocks exactly if its sheet keeps its
title and the type of each block can be found. -/
theorem agrees_iff {b : Workbook} (hnodup : blocks.keys.Nodup)
    (hne : ∀ block ∈ blocks, block.2 ≠ []) (hbuild : build layout blocks = .ok b) :
    Agrees layout blocks b ↔
      (Title.same layout.templateSheet "Sheet" = true → layout.templateSheet = "Sheet") ∧
        ∀ before type rows after, blocks = before ++ (type, rows) :: after →
          Findable layout before type rows after := by
  have hsheet : b.find? layout.templateSheet = some 0 ↔
      (Title.same layout.templateSheet "Sheet" = true → layout.templateSheet = "Sheet") := by
    rcases exists_of_build hbuild with ⟨title, t, htitle, rfl, hentered, -⟩
    have hname : t.title = title := hentered.title_eq
    rw [← sheetTitle_eq_iff htitle]
    by_cases heq : title = layout.templateSheet <;>
      simp [Workbook.find?, List.findIdx?_cons, hname, heq]
  constructor
  · exact fun h => ⟨hsheet.mp h.sheet, fun _ _ _ _ => h.findable hnodup hne hbuild⟩
  · rintro ⟨hkept, hfindable⟩
    refine ⟨hsheet.mpr hkept, ?_⟩
    rintro before type rows after rfl
    exact (found_iff hnodup (hne (type, rows) (by simp)) hbuild).mpr (hfindable _ _ _ _ rfl)

/-! ## Columns that only types are written in -/

/-- The tag column is none of the identifiers, the labels and the periods. -/
def Free (layout : Layout) : Prop :=
  layout.tagColumn ≠ 1 ∧ layout.tagColumn ≠ 2 ∧ layout.tagColumn ∉ periodColumns

instance (layout : Layout) : Decidable (Free layout) := inferInstanceAs (Decidable (_ ∧ _))

/-- In a free column every row keeps its type, so types that fit into a cell are found unless they
are the name of the column. -/
theorem Findable.of_free (hfree : Free layout)
    (hkeys : ∀ key ∈ Entries.keys (before ++ (type, rows) :: after),
      Text.trimmed key = key ∧ key.length ≤ Cell.textLimit)
    (hcode : type = "Code" → layout.dataStartRow = 1) :
    Findable layout before type rows after := by
  obtain ⟨hone, htwo, hperiods⟩ := hfree
  have hkept (row : Nat) (other : String) (r : Row) :
      tagDatum layout row other r = .text other := by
    simp [tagDatum, hone, htwo, hperiods]
  have hreads (row : Nat) (r : Row) {other : String}
      (hother : other ∈ Entries.keys (before ++ (type, rows) :: after)) :
      reads type (tagDatum layout row other r) = decide (other = type) := by
    rw [hkept, reads, Cell.cut_of_le (hkeys other hother).2, (hkeys other hother).1]
  have htype : type ∈ Entries.keys (before ++ (type, rows) :: after) := by
    simp [Entries.keys]
  have hheading : heading layout = "Code" := by
    have hnone : Entries.get? layout.tagColumn (periodColumns.zip periods) = none :=
      Entries.get?_eq_none_iff.mpr hperiods
    rw [Entries.get?] at hnone
    rw [heading, hnone, Option.getD_none]
  exact
    { above := fun row hrow habove htext => by
        rw [textAbove?, hheading] at htext
        split at htext
        next hrow =>
          -- blocks that begin in the first row have no header above them
          rw [headerRow] at hrow
          have hstart := hcode (Option.some.inj htext).symm
          omega
        next => rw [if_neg fun h => hone h.2] at htext; cases htext
      first := fun _ r _ _ => by rw [hreads _ r htype, decide_eq_true rfl]
      last := fun _ r _ _ => by rw [hreads _ r htype, decide_eq_true rfl]
      others := fun i other data r hother hitem _ => by
        rw [hreads _ r (mem_keys_of_tagged hitem), decide_eq_false hother] }

/-- A layout that begins in the first row and keeps the types in the column behind the periods. -/
def wideLayout : Layout :=
  { (default : Layout) with
    templateSheet := "Sheet"
    templateSheet_ne := by decide
    dataStartRow := 1
    dataStartRow_pos := Nat.one_pos
    tagColumn := 12
    tagColumn_pos := by decide
    tagColumn_le := by decide }

/-- Blocks of which one is called as the column of the types is. -/
def codeBlocks : Blocks :=
  [("BR", [[.text "Code", .text "BR", .text "calc"], [.null, .null, .text "break"]]),
    ("Code", [[.text "BR", .text "Code", .text "input"]])]

/-- Neither the header nor the identifiers and labels that read as types are taken for types. -/
theorem agrees_iff_wide :
    ∃ b, codeBlocks.keys.Nodup ∧ (∀ block ∈ codeBlocks, block.2 ≠ []) ∧
      build wideLayout codeBlocks = .ok b ∧ Agrees wideLayout codeBlocks b := by
  have hbuilt : (build wideLayout codeBlocks).isOk = true := by
    decide +kernel
  have hnodup : codeBlocks.keys.Nodup := by
    decide +kernel
  have hne : ∀ block ∈ codeBlocks, block.2 ≠ [] := by
    simp [codeBlocks]
  have hkeys : ∀ key ∈ codeBlocks.keys, Text.trimmed key = key ∧ key.length ≤ Cell.textLimit := by
    decide +kernel
  obtain ⟨b, hbuild⟩ := exists_of_isOk hbuilt
  refine ⟨b, hnodup, hne, hbuild, (agrees_iff hnodup hne hbuild).mpr ⟨fun _ => rfl, ?_⟩⟩
  intro before type rows after hsplit
  exact .of_free (by decide) (hsplit ▸ hkeys) fun _ => rfl

/-- A layout that keeps the types in the column of the labels. -/
def labelLayout : Layout :=
  { (default : Layout) with
    tagColumn := 2
    tagColumn_pos := Nat.two_pos
    tagColumn_le := by decide }

/-- Where types and labels share a column the labels take the place of the types. -/
theorem not_all_agree : ¬∀ (layout : Layout) (blocks : Blocks) (b : Workbook), blocks.keys.Nodup →
    (∀ block ∈ blocks, block.2 ≠ [] ∧ block.1 ≠ "" ∧ Text.trimmed block.1 = block.1) →
      build layout blocks = .ok b → Agrees layout blocks b := by
  intro hall
  have hbuilt : (build labelLayout defaultBlocks).isOk = true := by
    decide +kernel
  obtain ⟨b, hbuild⟩ := exists_of_isOk hbuilt
  have hlegible := legible_defaultBlocks
  have hagrees : Agrees labelLayout defaultBlocks b := by
    refine hall _ _ b hlegible.nodup (fun block hblock => ?_) hbuild
    exact ⟨hlegible.rows_ne block hblock, (hlegible.type_ne block hblock).1,
      hlegible.type_trimmed block hblock⟩
  have hfindable : Findable labelLayout [] _ _ _ :=
    hagrees.findable hlegible.nodup hlegible.rows_ne hbuild rfl
  -- the first row of the first block is left with its label
  have hfirst := hfindable.first _ ⟨.text "", .text "Units", .heading⟩ rfl rfl
  revert hfirst
  decide +kernel

end Sheetwright.Template
