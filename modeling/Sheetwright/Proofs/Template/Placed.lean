import Sheetwright.Proofs.Entries
import Sheetwright.Proofs.Grid.Grown
import Sheetwright.Proofs.Grid.Separable
import Sheetwright.Proofs.Template.Prepared
import Sheetwright.Proofs.Workbook.Copying
/-!
# Blocks copied from a template

The rows of a block stand together in the template and are found by their type. Copied below what a
target holds they carry the type again, and each row of formulas refers to the row it has come to.
A target that holds such rows one below the other, and nothing else below its head, holds one block
more after a block was copied: `succeeds_copyBlock`.
-/

namespace Sheetwright.Template

open Grid Grid.Sheet Operation

variable {d : Nat} {blocks : Blocks} {items placed block : List (String × List Datum)}
  {t u v : Sheet} {type : String}

/-! ## The rows of a block -/

/-- The rows of the block of a type, each with the type. -/
def blockRows (blocks : Blocks) (type : String) : List (String × List Datum) :=
  ((blocks.get? type).getD []).map fun data => (type, data)

/-- An item of two lists, one behind the other, is an item of one of them. -/
theorem getElem?_append_cases {α : Type} {front back : List α} {i : Nat} {a : α}
    (h : (front ++ back)[i]? = some a) :
    (i < front.length ∧ front[i]? = some a) ∨ ∃ j, i = front.length + j ∧ back[j]? = some a := by
  rcases Nat.lt_or_ge i front.length with hi | hi
  · rw [List.getElem?_append_left hi] at h
    exact Or.inl ⟨hi, h⟩
  · obtain ⟨j, rfl⟩ := Nat.exists_eq_add_of_le hi
    rw [List.getElem?_append_right hi, Nat.add_sub_cancel_left] at h
    exact Or.inr ⟨j, rfl, h⟩

/-- The rows of a block stand together. -/
theorem exists_taggedRows_eq (h : blocks.keys.Nodup) (type : String) :
    ∃ before after, taggedRows blocks = before ++ (blockRows blocks type ++ after) ∧
      ∀ item ∈ before ++ after, item.1 ≠ type := by
  induction blocks with
  | nil => exact ⟨[], [], rfl, nofun⟩
  | cons entry blocks ih =>
    obtain ⟨key, rows⟩ := entry
    rw [Entries.keys, List.map_cons, List.nodup_cons] at h
    have htagged : taggedRows ((key, rows) :: blocks) =
        rows.map (fun data => (key, data)) ++ taggedRows blocks := List.flatMap_cons
    -- keys do not repeat, so the block of the first one does not go on further down
    by_cases hkey : type = key
    · subst hkey
      refine ⟨[], taggedRows blocks, ?_, fun item hitem heq => h.1 ?_⟩
      · simp [htagged, blockRows, Entries.get?_cons_self]
      · obtain ⟨found, data⟩ := item
        rcases mem_taggedRows.mp hitem with ⟨found', hmem, -⟩
        exact List.mem_map.mpr ⟨_, hmem, heq⟩
    · rcases ih h.2 with ⟨before, after, hsplit, hother⟩
      have hrows : blockRows ((key, rows) :: blocks) type = blockRows blocks type := by
        rw [blockRows, Entries.get?_cons_of_ne hkey, blockRows]
      refine ⟨rows.map (fun data => (key, data)) ++ before, after, ?_, ?_⟩
      · rw [htagged, hsplit, hrows, List.append_assoc]
      · rw [List.append_assoc, List.forall_mem_append]
        refine ⟨fun item hitem => ?_, hother⟩
        rcases List.mem_map.mp hitem with ⟨data, -, rfl⟩
        exact Ne.symm hkey

/-! ## Finding a block -/

theorem ends?_range' {first count : Nat} (h : 0 < count) :
    ends? (List.range' first count) = some (first, first + count - 1) := by
  cases count with
  | zero => cases h
  | succ count =>
    have hlast := List.getLast_range' (s := first) (n := count + 1) (by simp)
    simp only [List.range'_succ] at hlast ⊢
    rw [ends?, hlast]

/-- The rows that meet a condition, if these are the rows from a first one on. -/
theorem filter_range' {f : Nat → Bool} {first count total : Nat} (hfirst : 1 ≤ first)
    (hfits : first + count ≤ total + 1)
    (h : ∀ row, 1 ≤ row → row ≤ total → (f row = true ↔ first ≤ row ∧ row < first + count)) :
    (List.range' 1 total).filter f = List.range' first count := by
  obtain ⟨before, rfl⟩ := Nat.exists_eq_add_of_le hfirst
  obtain ⟨after, rfl⟩ : ∃ after, total = before + (count + after) :=
    ⟨total - before - count, by omega⟩
  have hrow {start n row : Nat} (hmem : row ∈ List.range' start n) :
      start ≤ row ∧ row < start + n := List.mem_range'_1.mp hmem
  rw [← List.range'_append_1, ← List.range'_append_1, List.filter_append, List.filter_append,
    List.filter_eq_nil_iff.mpr, List.filter_eq_self.mpr, List.filter_eq_nil_iff.mpr,
    List.append_nil, List.nil_append]
  · intro row hmem
    have := hrow hmem
    rw [h row (by omega) (by omega)]
    omega
  · intro row hmem
    have := hrow hmem
    exact (h row (by omega) (by omega)).mpr this
  · intro row hmem
    have := hrow hmem
    rw [h row (by omega) (by omega)]
    omega

theorem Prepared.maxRow_eq (h : Prepared d (taggedRows blocks) t) (hd : 2 ≤ d)
    (hne : taggedRows blocks ≠ []) : t.maxRow = d + (taggedRows blocks).length - 1 := by
  have hpos := List.length_pos_iff.mpr hne
  refine Nat.le_antisymm (maxRow_le_iff.mpr ⟨by omega, fun p hp => ?_⟩) ?_
  · have := h.row_lt p hp
    omega
  · -- the last row carries its type
    obtain ⟨⟨type, data⟩, hlast⟩ : ∃ item, (taggedRows blocks)[(taggedRows blocks).length - 1]? =
        some item := ⟨_, List.getElem?_eq_getElem (by omega)⟩
    have htag := h.tag _ type data hlast
    have hmem : (⟨d + ((taggedRows blocks).length - 1), 4⟩ : Position) ∈ t.cells := by
      refine mem_of_cell_ne fun hempty => ?_
      rw [value, hempty] at htag
      cases htag
    have hrow := row_le_maxRow hmem
    dsimp only at hrow
    omega

theorem isTagged_iff_of_value {p : Position} {s tag : String} (h : t.value p = .text s)
    (htrimmed : Text.trimmed s = s) : t.isTagged p tag = true ↔ s = tag := by
  rw [isTagged, h]
  dsimp only
  rw [htrimmed, decide_eq_true_eq]

/-- The rows of a block are those that its type is found in. -/
theorem Prepared.isTagged_iff (h : Prepared d (taggedRows blocks) t) (hlegible : Legible blocks)
    (hcode : type ≠ "Code") {before after : List (String × List Datum)}
    (hsplit : taggedRows blocks = before ++ (blockRows blocks type ++ after))
    (hother : ∀ item ∈ before ++ after, item.1 ≠ type) {row : Nat} (hpos : 1 ≤ d)
    (hlast : row ≤ d + (taggedRows blocks).length - 1) : t.isTagged ⟨row, 4⟩ type = true ↔
      d + before.length ≤ row ∧ row < d + before.length + (blockRows blocks type).length := by
  rcases Nat.lt_or_ge row d with habove | hbelow
  · -- above the blocks the column holds its name at most
    refine iff_of_false (fun htag => ?_) (by omega)
    by_cases hrow : row = headRow d
    · have htrimmed : Text.trimmed "Code" = "Code" := by
        decide +kernel
      rw [hrow, isTagged_iff_of_value h.head htrimmed] at htag
      exact hcode htag.symm
    · rw [isTagged, h.above row habove hrow] at htag
      cases htag
  · obtain ⟨i, rfl⟩ := Nat.exists_eq_add_of_le hbelow
    obtain ⟨⟨found, data⟩, hitem⟩ : ∃ item, (taggedRows blocks)[i]? = some item :=
      ⟨_, List.getElem?_eq_getElem (by omega)⟩
    rcases mem_taggedRows.mp (List.mem_of_getElem? hitem) with ⟨rows, hblock, -⟩
    have htrimmed : Text.trimmed found = found := hlegible.type_trimmed (found, rows) hblock
    rw [isTagged_iff_of_value (h.tag i found data hitem) htrimmed]
    rw [hsplit] at hitem
    -- the row is one before the block, of the block or behind it
    rcases getElem?_append_cases hitem with ⟨hi, hfront⟩ | ⟨j, rfl, hback⟩
    · have hfound := hother _ (List.mem_append_left _ (List.mem_of_getElem? hfront))
      exact iff_of_false hfound (by omega)
    · rcases getElem?_append_cases hback with ⟨hj, hblock⟩ | ⟨k, rfl, hrest⟩
      · rcases List.mem_map.mp (List.mem_of_getElem? hblock) with ⟨_, -, heq⟩
        exact iff_of_true (congrArg Prod.fst heq).symm (by omega)
      · have hfound := hother _ (List.mem_append_right _ (List.mem_of_getElem? hrest))
        exact iff_of_false hfound (by omega)

/-- A block is found where its rows stand. -/
theorem Prepared.tagged?_eq (h : Prepared d (taggedRows blocks) t) (hd : 2 ≤ d)
    (hlegible : Legible blocks) (hcode : type ≠ "Code") {before after : List (String × List Datum)}
    (hsplit : taggedRows blocks = before ++ (blockRows blocks type ++ after))
    (hother : ∀ item ∈ before ++ after, item.1 ≠ type) (hne : blockRows blocks type ≠ []) :
    t.tagged? 4 type =
      some (d + before.length, d + before.length + (blockRows blocks type).length - 1) := by
  have hpos := List.length_pos_iff.mpr hne
  have hlength := congrArg List.length hsplit
  rw [List.length_append, List.length_append] at hlength
  have hrows : t.rows = List.range' 1 (d + (taggedRows blocks).length - 1) := by
    rw [rows, Range.span, h.maxRow_eq hd (List.ne_nil_of_length_pos (by omega)),
      Nat.add_sub_cancel]
  have hfilter := filter_range' (f := fun row => t.isTagged ⟨row, 4⟩ type) (by omega) (by omega)
    fun row _ hlast => h.isTagged_iff hlegible hcode hsplit hother (by omega) hlast
  rw [tagged?, hrows, hfilter, ends?_range' hpos]

theorem succeeds_findTagged (hd : 2 ≤ d) (hlegible : Legible blocks) (hcode : type ≠ "Code")
    {before after : List (String × List Datum)}
    (hsplit : taggedRows blocks = before ++ (blockRows blocks type ++ after))
    (hother : ∀ item ∈ before ++ after, item.1 ≠ type) (hne : blockRows blocks type ≠ []) :
    Succeeds (Prepared d (taggedRows blocks)) (findTagged ((4 : Nat) : Int) type) fun found s =>
      found = some (d + before.length, d + before.length + (blockRows blocks type).length - 1) ∧
        Prepared d (taggedRows blocks) s := by
  refine ⟨fun s hs => ?_⟩
  have hlength := congrArg List.length hsplit
  rw [List.length_append, List.length_append] at hlength
  have hpos := List.length_pos_iff.mpr hne
  have hbottom := hs.maxRow_eq hd (List.ne_nil_of_length_pos (by omega))
  have hcolumn : 1 ≤ 4 := by decide
  have hopened : Prepared d (taggedRows blocks) (s.allocateBlock s.rows [4]) := by
    refine hs.widened (s.widened_allocateBlock s.rows [4]) fun p hp => ?_
    rw [rows, mem_span, hbottom, List.mem_singleton] at hp
    omega
  rw [run_findTagged hcolumn]
  exact ⟨hopened.tagged?_eq hd hlegible hcode hsplit hother hne, hopened⟩

/-! ## What a copied cell holds -/

/-- The value that a cell of a block has once it was copied into a row. -/
def moved (row : Nat) (v : Value) : Value := if v.beginsFormula then .text (ownRow row) else v

theorem storable_moved {row : Nat} {v : Value} (hv : v.Storable) (hrow : row ≤ lastRow) :
    (moved row v).Storable := by
  rw [moved]
  split
  · exact storable_ownRow hrow
  · exact hv

theorem moved_of_not {row : Nat} {v : Value} (h : v.beginsFormula = false) : moved row v = v := by
  rw [moved, h]
  rfl

theorem moved_ownRow (row row' : Nat) : moved row (.text (ownRow row')) = .text (ownRow row) := by
  have hformula : (Value.text (ownRow row')).beginsFormula = true := by
    change ((ownRow row').toList.head? == some '=') = true
    rw [toList_ownRow]
    rfl
  rw [moved, if_pos hformula]

theorem entered_ownRow (row : Nat) :
    (Value.text (ownRow row)).entered = .entry .formula (.text (ownRow row)) := by
  have hkind : Cell.textKind (ownRow row) = .formula := by
    rw [Cell.textKind, toList_ownRow]
    rfl
  rw [Value.entered, hkind]

/-- A formula that refers to its own row is carried to one that refers to its new row. -/
theorem carried_eq_moved {origin target : Position} {v : Value}
    (hv : v.beginsFormula = true → v = .text (ownRow origin.row)) (hpos : 1 ≤ origin.row)
    (hlast : origin.row ≤ lastRow) (hcolumn : origin.column ≤ 11) (htarget : 1 ≤ target.row) :
    Workbook.carried origin target v = .ok (moved target.row v).datum := by
  have hnamed : ¬lastColumn < origin.column := by
    rw [lastColumn]
    omega
  rw [Workbook.carried.eq_def, if_neg hnamed, moved]
  -- the only formula of a template names its own row; any other value is carried unchanged
  by_cases hformula : v.beginsFormula = true
  · rw [if_pos hformula, hv hformula]
    dsimp only
    rw [toList_ownRow, Formula.relocate_ownRow (by decide) hpos hlast htarget, ← toList_ownRow]
    dsimp only
    rw [String.ofList_toList]
    rfl
  · rw [if_neg hformula]
    cases v with
    | text s =>
      have hhead : s.toList.head? ≠ some '=' := by
        simpa [Value.beginsFormula, Datum.beginsFormula, Value.datum] using hformula
      dsimp only
      rw [Formula.relocate_of_ne hhead]
      dsimp only
      rw [String.ofList_toList]
      rfl
    | _ => rfl

/-! ## Targets -/

/-- Below its head the target holds these rows of blocks and nothing else. -/
structure Placed (top : Nat) (items : List (String × List Datum)) (u : Sheet) : Prop where
  head : u.value ⟨top, 4⟩ = .text "Code"
  tag : ∀ i type data, items[i]? = some (type, data) → u.value ⟨top + 1 + i, 4⟩ = .text type
  period : ∀ i type data r, items[i]? = some (type, data) → Row.ofData data = .ok r →
    r.kind = .formula → ∀ column ∈ periodColumns,
      (u.cell ⟨top + 1 + i, column⟩).content =
        .entry .formula (.text (ownRow (top + 1 + i)))
  below : ∀ p, top + items.length < p.row → u.cell p = {}

theorem Placed.congr {top : Nat} (h : Placed top items u) (hcell : ∀ p, v.cell p = u.cell p) :
    Placed top items v := by
  have hvalue (p : Position) : v.value p = u.value p := congrArg Cell.value (hcell p)
  exact
    { head := (hvalue _).trans h.head
      tag := fun i type data hitem => (hvalue _).trans (h.tag i type data hitem)
      period := fun i type data r hitem hr hkind column hcolumn => by
        rw [hcell]
        exact h.period i type data r hitem hr hkind column hcolumn
      below := fun p hp => (hcell p).trans (h.below p hp) }

/-- The rows end where the target does. -/
theorem Placed.lastUsed_eq {top : Nat} (h : Placed top items u)
    (htype : ∀ item ∈ items, item.1 ≠ "") : u.lastUsed = top + items.length := by
  refine Nat.le_antisymm (lastUsed_le_iff.mpr fun p hp => ?_) ?_
  · by_contra hbelow
    rw [value, h.below p (by omega)] at hp
    cases hp
  · -- the type in the last row is in use, or the name of the column if there is no row
    have hused : (u.value ⟨top + items.length, 4⟩).isUsed = true := by
      rcases List.eq_nil_or_concat' items with rfl | ⟨front, ⟨type, data⟩, rfl⟩
      · rw [List.length_nil, Nat.add_zero, h.head]
        decide
      · have htag := h.tag front.length type data (by simp)
        have hlength : top + (front ++ [(type, data)]).length = top + 1 + front.length := by
          simp only [List.length_append, List.length_singleton]
          omega
        rw [hlength, htag]
        have hne := htype (type, data) (by simp)
        simpa [Value.isUsed] using hne
    exact lastUsed_le_iff.mp (Nat.le_refl _) _ hused

theorem succeeds_lastUsedRow {top : Nat} (htype : ∀ item ∈ items, item.1 ≠ "") :
    Succeeds (Placed top items) lastUsedRow fun last u =>
      last = top + items.length ∧ Placed top items u := by
  refine ⟨fun u hu => ?_⟩
  rw [run_lastUsedRow]
  exact ⟨hu.lastUsed_eq htype, hu.congr (u.widened_allocateBlock u.rows u.columns).cell_eq⟩

/-- A copy of the template without its blocks is a target that holds nothing yet. -/
theorem Prepared.exists_clearFrom (h : Prepared d items t) (hd : 2 ≤ d)
    (hcell : ∀ p, u.cell p = t.cell p) (hmerged : u.merged = []) :
    ∃ v, (clearFrom d).run u = .ok () v ∧ Placed (headRow d) [] v := by
  have hseparable : u.Separable := by
    rw [Separable, hmerged]
    exact ⟨List.forall_mem_nil _, .nil⟩
  rcases hseparable.clearFrom d with ⟨v, hrun⟩
  have hcleared : Lacking (fun p => d ≤ p.row) u v := by
    rw [clearFrom, EStateM.run_bind, EStateM.run_get] at hrun
    dsimp only at hrun
    split at hrun
    next hlow =>
      refine (clearRows_ok hlow hrun).1.congr fun p => ?_
      rw [touched, hmerged]
      simp
    -- a sheet that ends above the first data row has no cell to lose
    next hhigh =>
      cases hrun
      refine ⟨fun p hp => ?_, fun _ _ => rfl, fun _ hp => hp⟩
      by_contra hne
      have hrow := row_le_maxRow (mem_of_cell_ne hne)
      omega
  have hhead := headRow_lt hd
  refine ⟨v, hrun, ?_, by simp, by simp, fun p hp => ?_⟩
  · rw [value, hcleared.kept _ (by dsimp only; omega), hcell]
    exact h.head
  · rcases Nat.lt_or_ge p.row d with habove | hbelow
    · rw [hcleared.kept p (by omega), hcell]
      exact h.gap p hp habove
    · exact hcleared.blank p hbelow

/-! ## Copying a block -/

/-- What the cells of a copy hold that begins in the row `start`. -/
def copiedValue (t : Sheet) (first start : Nat) (q : Position) : Value :=
  moved q.row (t.value ⟨first + (q.row - start), q.column⟩)

theorem copiedValue_eq {first start i column : Nat} :
    copiedValue t first start ⟨start + i, column⟩ =
      moved (start + i) (t.value ⟨first + i, column⟩) := by
  rw [copiedValue, Nat.add_sub_cancel_left]

theorem mem_pasteArea {first count start width : Nat} {q : Position} (hcount : 0 < count) :
    Workbook.pasteArea first (first + count - 1) start width q ↔
      start ≤ q.row ∧ q.row < start + count ∧ 1 ≤ q.column ∧ q.column ≤ width := by
  constructor
  · rintro ⟨origin, hlow, hhigh, hleft, hright, rfl⟩
    simp only [Workbook.shifted]
    omega
  · rintro ⟨hlow, hhigh, hleft, hright⟩
    refine ⟨⟨first + (q.row - start), q.column⟩, ?_, ?_, hleft, hright, ?_⟩
    · exact Nat.le_add_right _ _
    · dsimp only
      omega
    · rw [Workbook.shifted, Nat.add_sub_cancel_left, Nat.add_sub_cancel' hlow]

/-- The target `u` becomes `v` when rows of the template `t` are copied to it: `count` rows from
`first` on come to the rows from `start` on. -/
structure Extended (first count start : Nat) (t u v : Sheet) : Prop where
  above : ∀ p, p.row < start → v.cell p = u.cell p
  copied : ∀ j column, j < count → 1 ≤ column → column ≤ 11 →
    (v.cell ⟨start + j, column⟩).content =
      (moved (start + j) (t.value ⟨first + j, column⟩)).entered
  below : ∀ p, start + count ≤ p.row → v.cell p = u.cell p

theorem extended_of_filled {first count start : Nat} (hcount : 0 < count)
    (h : Filled (Workbook.pasteArea first (first + count - 1) start 11)
      (copiedValue t first start) u v) : Extended first count start t u v := by
  have hout (p : Position) (hp : p.row < start ∨ start + count ≤ p.row) : v.cell p = u.cell p := by
    refine h.outside p fun hin => ?_
    have hrows := (mem_pasteArea hcount).mp hin
    omega
  refine ⟨fun p hp => hout p (Or.inl hp), fun j column hj hleft hright => ?_,
    fun p hp => hout p (Or.inr hp)⟩
  rw [← copiedValue_eq]
  refine h.inside _ ((mem_pasteArea hcount).mpr ⟨Nat.le_add_right start j, ?_, hleft, hright⟩)
  exact Nat.add_lt_add_left hj start

section

variable {top : Nat} {before after : List (String × List Datum)}

/-- A target that a block was copied to holds the rows of the block behind the others. -/
theorem Placed.append (hu : Placed top placed u) (ht : Prepared d (taggedRows blocks) t)
    (hlegible : Legible blocks)
    (hsplit : taggedRows blocks = before ++ (blockRows blocks type ++ after))
    (h : Extended (d + before.length) (blockRows blocks type).length (top + 1 + placed.length)
      t u v) : Placed top (placed ++ blockRows blocks type) v := by
  -- a row of the block is one of the template, and holds there what it holds here, moved
  have hitem {j : Nat} {item : String × List Datum}
      (hj : (blockRows blocks type)[j]? = some item) :
      (taggedRows blocks)[before.length + j]? = some item := by
    have hlength := (List.getElem?_eq_some_iff.mp hj).1
    rw [hsplit, List.getElem?_append_right (Nat.le_add_right _ _), Nat.add_sub_cancel_left,
      List.getElem?_append_left hlength, hj]
  have hcopied {j column : Nat} {item : String × List Datum}
      (hj : (blockRows blocks type)[j]? = some item) (hleft : 1 ≤ column) (hright : column ≤ 11) :
      (v.cell ⟨top + 1 + (placed.length + j), column⟩).content =
        (moved (top + 1 + (placed.length + j))
          (t.value ⟨d + (before.length + j), column⟩)).entered := by
    rw [← Nat.add_assoc, ← Nat.add_assoc]
    exact h.copied j column (List.getElem?_eq_some_iff.mp hj).1 hleft hright
  refine ⟨?_, fun i found data hi => ?_, fun i found data r hi hr hkind column hcolumn => ?_,
    fun p hp => ?_⟩
  · exact (congrArg Cell.value (h.above _ (by dsimp only; omega))).trans hu.head
  · rcases getElem?_append_cases hi with ⟨hlt, hfront⟩ | ⟨j, rfl, hback⟩
    · rw [value, h.above _ (by dsimp only; omega)]
      exact hu.tag i found data hfront
    · rcases mem_taggedRows.mp (List.mem_of_getElem? (hitem hback)) with ⟨rows, hblock, -⟩
      have htext : (Value.text found).beginsFormula = false := hlegible.type_text _ hblock
      have htag := ht.tag _ found data (hitem hback)
      rw [value, Cell.value_of_content (hcopied hback (by decide) (by decide)), htag,
        moved_of_not htext]
  · rcases getElem?_append_cases hi with ⟨hlt, hfront⟩ | ⟨j, rfl, hback⟩
    · rw [h.above _ (by dsimp only; omega)]
      exact hu.period i found data r hfront hr hkind column hcolumn
    · have hbounds : 6 ≤ column ∧ column < 6 + 6 := List.mem_range'_1.mp hcolumn
      have hperiod := ht.period _ found data r (hitem hback) hr hkind column hcolumn
      rw [hcopied hback (by omega) (by omega), hperiod, moved_ownRow, entered_ownRow]
  · rw [List.length_append] at hp
    rw [h.below p (by omega)]
    exact hu.below p (by omega)

/-- The cells of a block can be carried below what the target holds. -/
theorem movable (hu : Placed top placed u) (ht : Prepared d (taggedRows blocks) t)
    {first start : Nat} (hstart : start = top + 1 + placed.length) (hd : d ≤ first) (hpos : 1 ≤ d)
    {origin : Position} (hfirst : first ≤ origin.row) (hlast : origin.row ≤ lastRow)
    (hleft : 1 ≤ origin.column) (hright : origin.column ≤ 11)
    (hfits : start + (origin.row - first) ≤ lastRow) :
    Workbook.Movable t u ((start : Int) - first) (copiedValue t first start) origin
      (Workbook.shifted first start origin) := by
  rcases ht.enterable origin with ⟨v, hcontent, hstorable, hformula⟩
  have hvalue : t.value origin = v := Cell.value_of_content hcontent
  have hback : first + (origin.row - first) = origin.row := by
    omega
  have hcopied : copiedValue t first start (Workbook.shifted first start origin) =
      moved (start + (origin.row - first)) v := by
    rw [Workbook.shifted, copiedValue_eq, hback, hvalue]
  exact
    { locate_eq := by
        have hrow : (origin.row : Int) + ((start : Int) - first) =
            ((start + (origin.row - first) : Nat) : Int) := by
          omega
        rw [hrow]
        exact Workbook.locate_natCast (by omega) hfits hleft
      uncovered := Cell.isCovered_of_content hcontent
      free := by
        rw [hu.below _ (by simp only [Workbook.shifted]; omega)]
        rfl
      enters := by
        rw [hcopied, hvalue]
        refine ⟨_, carried_eq_moved (hformula (by omega)) (by omega) hlast hright ?_,
          Cell.enters_datum (storable_moved hstorable hfits)⟩
        simp only [Workbook.shifted]
        omega }

theorem Prepared.maxColumn_eq (h : Prepared d items t) : t.maxColumn = 11 :=
  Nat.le_antisymm (maxColumn_le_iff.mpr ⟨by decide, h.column_le⟩) (column_le_maxColumn h.header_mem)

/-- A block that stands in the template is copied below what the target holds. -/
theorem succeeds_copyBlock {source dest start : Nat} (hne : source ≠ dest) (hd : 2 ≤ d)
    (hlegible : Legible blocks)
    (hsplit : taggedRows blocks = before ++ (blockRows blocks type ++ after))
    (hrows : blockRows blocks type ≠ []) (hstart : start = top + 1 + placed.length)
    (hfits : top + placed.length + (blockRows blocks type).length ≤ lastRow) :
    Succeeds (Workbook.Between source dest (Prepared d (taggedRows blocks)) (Placed top placed))
      (Workbook.copyBlock source ((d + before.length : Nat) : Int)
        ((d + before.length + (blockRows blocks type).length - 1 : Nat) : Int) dest start
        ((102 : Nat) : Int))
      fun _ => Workbook.Between source dest (Prepared d (taggedRows blocks))
        (Placed top (placed ++ blockRows blocks type)) := by
  refine ⟨fun b hb => ?_⟩
  subst hstart
  have hpos := List.length_pos_iff.mpr hrows
  have hlength := congrArg List.length hsplit
  rw [List.length_append, List.length_append] at hlength
  have hwithin := hb.source.fits (List.ne_nil_of_length_pos (by omega))
  have hbottom := hb.source.maxRow_eq hd (List.ne_nil_of_length_pos (by omega))
  -- the template is narrower than the layout allows, so its own width counts
  have hwidth : 11 = min 102 (b.sheet source).maxColumn := by
    rw [hb.source.maxColumn_eq]
    rfl
  have hmovable (origin : Position) (hlow : d + before.length ≤ origin.row)
      (hhigh : origin.row ≤ d + before.length + (blockRows blocks type).length - 1)
      (hleft : 1 ≤ origin.column) (hright : origin.column ≤ 11) :=
    movable hb.dest hb.source rfl (Nat.le_add_right d before.length) (by omega) hlow (by omega)
      hleft hright (by omega)
  rcases Workbook.exists_copyBlock hne hb.source_lt hb.dest_lt (by omega) (by omega) (by omega)
    (by decide) hwidth hb.source.merged_eq hmovable with ⟨b', hrun, hb'⟩
  have hopened := Workbook.widened_of_copyBlock hne (by omega) (by omega) hrun
  rw [hrun]
  refine ⟨hb'.source_lt, hb'.dest_lt, ?_, ?_⟩
  · refine hb.source.widened hopened fun p hp => ?_
    rw [hbottom, hb.source.maxColumn_eq] at hp
    omega
  · exact hb.dest.append hb.source hlegible hsplit (extended_of_filled hpos hb'.dest)

end

end Sheetwright.Template
