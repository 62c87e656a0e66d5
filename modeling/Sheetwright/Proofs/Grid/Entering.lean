import Sheetwright.Proofs.Grid.Actions
/-!
# Data entered into cells

What a cell holds when a datum has been entered is a value that can be entered again: its text is
not too long and has no illegal character. Entering a list of data one after another changes the
cells of these data and no others (`Entered`). A cell holds in the end what was entered last
(`lastAt`), null aside; often it is enough to know that all data entered into it are the same.
-/

namespace Sheetwright.Grid

/-! ## Values -/

/-- The value that a cell holds after a datum has been entered. -/
def Value.ofDatum : Datum → Value
  | .bool b => .bool b
  | .int n => .int n
  | .float x => .float x
  | .text s => .text (Cell.cut s)
  | .null | .list _ | .map _ => .blank

/-- The content of a cell into which a value has been entered. -/
def Value.entered : Value → Content
  | .blank => .entry .number .blank
  | .text s => .entry (Cell.textKind s) (.text s)
  | .int n => .entry .number (.int n)
  | .float x => .entry .number (.float x)
  | .bool b => .entry .boolean (.bool b)

/-- The value can be entered as it is. -/
def Value.Storable : Value → Prop
  | .text s => s.length ≤ Cell.textLimit ∧ s.toList.any Cell.isIllegal = false
  | _ => True

theorem Cell.value_of_content {c : Cell} {v : Value} (h : c.content = v.entered) : c.value = v := by
  rw [Cell.value, h]
  cases v <;> rfl

theorem Cell.isCovered_of_content {c : Cell} {v : Value} (h : c.content = v.entered) :
    c.isCovered = false := by
  rw [Cell.isCovered, h]
  cases v <;> rfl

theorem Cell.cut_of_le {s : String} (h : s.length ≤ Cell.textLimit) : Cell.cut s = s := if_pos h

/-- Cutting leaves something of any text. -/
theorem Cell.cut_eq_empty_iff {s : String} : Cell.cut s = "" ↔ s = "" := by
  rw [Cell.cut]
  split
  next => exact Iff.rfl
  next hlong =>
    constructor
    · intro hcut
      have hlength := congrArg String.length hcut
      rw [String.length_ofList, List.length_take, String.length_toList] at hlength
      simp only [textLimit, String.length_empty] at hlength hlong
      omega
    · rintro rfl
      exact absurd (by decide) hlong

theorem Value.isUsed_text {s : String} : (Value.text s).isUsed = true ↔ s ≠ "" := by
  rw [isUsed, Bool.not_eq_true', ← Bool.not_eq_true, String.isEmpty_iff]

/-- A text that is entered is in use unless it is empty. -/
theorem Value.isUsed_ofDatum_text {s : String} :
    (ofDatum (.text s)).isUsed = true ↔ s ≠ "" := by
  rw [ofDatum, isUsed_text, ne_eq, Cell.cut_eq_empty_iff]

theorem Cell.length_cut_le (s : String) : (Cell.cut s).length ≤ Cell.textLimit := by
  rw [Cell.cut]
  split
  next h => exact h
  next h =>
    rw [String.length_ofList, List.length_take]
    exact Nat.min_le_left _ _

/-- What is left of a text is legal if the text is. -/
theorem Cell.any_isIllegal_cut {s : String} (h : ∀ c ∈ s.toList, Cell.isIllegal c = false) :
    (Cell.cut s).toList.any Cell.isIllegal = false := by
  rw [List.any_eq_false]
  intro c hc
  rw [Bool.not_eq_true]
  refine h c ?_
  rw [Cell.cut] at hc
  split at hc
  next => exact hc
  next =>
    rw [String.toList_ofList] at hc
    exact List.mem_of_mem_take hc

/-- A datum that is entered into a cell that is not covered becomes a value. -/
def Cell.Enters (d : Datum) (v : Value) : Prop :=
  ∀ c : Cell, c.isCovered = false → (Cell.enter d).run c = .ok () { c with content := v.entered }

/-- A text is entered as far as a cell holds it, if what is left of it is legal. -/
theorem Cell.enters_text {s : String} (h : (Cell.cut s).toList.any Cell.isIllegal = false) :
    Cell.Enters (.text s) (.text (Cell.cut s)) := by
  intro c hc
  rw [Cell.enter.eq_def, EStateM.run_bind, EStateM.run_get]
  dsimp only
  rw [hc]
  change (if (Cell.cut s).toList.any Cell.isIllegal then _ else _ : EStateM Fault Cell Unit).run c
    = _
  rw [h]
  rfl

/-- A value that can be entered is. -/
theorem Cell.enters_datum {v : Value} (hv : v.Storable) : Cell.Enters v.datum v := by
  cases v with
  | text s =>
    obtain ⟨hlength, hlegal⟩ := hv
    have hcut := Cell.cut_of_le hlength
    have henters : Cell.Enters (.text s) (.text (Cell.cut s)) := Cell.enters_text (by rwa [hcut])
    rwa [hcut] at henters
  | _ =>
    intro c hc
    rw [Value.datum, Cell.enter.eq_def, EStateM.run_bind, EStateM.run_get]
    dsimp only
    rw [hc]
    rfl

/-- What has been entered is a value that can be entered again. -/
theorem Cell.enter_ok {d : Datum} {c c' : Cell} (h : (Cell.enter d).run c = .ok () c') :
    (Value.ofDatum d).Storable ∧ c' = { c with content := (Value.ofDatum d).entered } := by
  rw [Cell.enter.eq_def, EStateM.run_bind, EStateM.run_get] at h
  dsimp only at h
  cases hc : c.isCovered with
  | true =>
    rw [hc] at h
    cases h
  | false =>
    rw [hc] at h
    -- texts are the only data that can be refused for what they hold
    cases d with
    | text s =>
      change (if (Cell.cut s).toList.any Cell.isIllegal then Cell.refuse _ _ else Cell.set _ _ :
        EStateM Fault Cell Unit).run c = _ at h
      cases hlegal : (Cell.cut s).toList.any Cell.isIllegal with
      | true =>
        rw [hlegal] at h
        cases h
      | false =>
        rw [hlegal] at h
        cases h
        exact ⟨⟨Cell.length_cut_le s, hlegal⟩, rfl⟩
    | list _ => cases h
    | map _ => cases h
    | _ =>
      cases h
      exact ⟨trivial, rfl⟩

namespace Sheet

variable {s t u : Sheet} {p q : Position} {d : Datum}
  {entries more : List (Position × Datum)}

/-! ## The last of several data -/

/-- The datum, unless it is null. -/
def present? : Datum → Option Datum
  | .null => none
  | d => some d

theorem present?_of_ne (h : d ≠ .null) : present? d = some d := by
  cases d <;> first | rfl | exact absurd rfl h

theorem present?_eq_some_iff {d' : Datum} : present? d = some d' ↔ d = d' ∧ d ≠ .null := by
  cases d <;> simp [present?]

/-- The datum that comes last at a position, null aside. -/
def lastAt : List (Position × Datum) → Position → Option Datum
  | [], _ => none
  | (p, d) :: rest, q => (lastAt rest q).or (if p = q then present? d else none)

theorem lastAt_singleton (p : Position) (d : Datum) (q : Position) :
    lastAt [(p, d)] q = if p = q then present? d else none := by
  rw [lastAt, lastAt, Option.none_or]

theorem lastAt_append (entries more : List (Position × Datum)) (q : Position) :
    lastAt (entries ++ more) q = (lastAt more q).or (lastAt entries q) := by
  induction entries with
  | nil => simp [lastAt]
  | cons e entries ih =>
    rw [List.cons_append, lastAt, lastAt, ih, Option.or_assoc]

theorem lastAt_of_forall_ne (h : ∀ e ∈ entries, e.1 ≠ q) : lastAt entries q = none := by
  induction entries with
  | nil => rfl
  | cons e entries ih =>
    rw [List.forall_mem_cons] at h
    rw [lastAt, ih h.2, if_neg h.1]
    rfl

theorem mem_of_lastAt (h : lastAt entries q = some d) : d ≠ .null ∧ (q, d) ∈ entries := by
  induction entries with
  | nil => cases h
  | cons e entries ih =>
    obtain ⟨p, d'⟩ := e
    rw [lastAt, Option.or_eq_some_iff] at h
    rcases h with hrest | ⟨-, hfirst⟩
    · exact (ih hrest).imp_right (List.mem_cons_of_mem _)
    · split at hfirst
      next hp =>
        obtain ⟨rfl, hne⟩ := present?_eq_some_iff.mp hfirst
        exact ⟨hne, hp ▸ List.mem_cons_self⟩
      next => cases hfirst

theorem exists_lastAt (hne : d ≠ .null) (h : (q, d) ∈ entries) :
    ∃ d', lastAt entries q = some d' := by
  induction entries with
  | nil => cases h
  | cons e entries ih =>
    rw [lastAt]
    rcases List.mem_cons.mp h with rfl | hmem
    · rw [if_pos rfl, present?_of_ne hne]
      cases lastAt entries q <;> exact ⟨_, rfl⟩
    · rcases ih hmem with ⟨d', hd'⟩
      exact ⟨d', by rw [hd', Option.some_or]⟩

/-! ## Data one after another -/

/-- Data were entered at positions one after another. Null leaves a cell as it was; how the cells
look and how wide the columns are is left aside. -/
structure Entered (entries : List (Position × Datum)) (s t : Sheet) : Prop where
  title_eq : t.title = s.title
  merged_eq : t.merged = s.merged
  bounds : ∀ e ∈ entries, 1 ≤ e.1.row ∧ e.1.row ≤ lastRow
  storable : ∀ e ∈ entries, e.2 ≠ .null → (Value.ofDatum e.2).Storable
  mem_iff : ∀ q, q ∈ t.cells ↔ (∃ e ∈ entries, e.1 = q) ∨ q ∈ s.cells
  other : ∀ q, (∀ e ∈ entries, e.1 ≠ q) → t.cell q = s.cell q
  content_eq : ∀ q, (t.cell q).content =
    ((lastAt entries q).map fun d => (Value.ofDatum d).entered).getD (s.cell q).content

/-- A cell holds what it held or what was entered last. -/
theorem Entered.cases (h : Entered entries s t) (q : Position) :
    (t.cell q).content = (s.cell q).content ∨
      ∃ d, d ≠ .null ∧ (q, d) ∈ entries ∧ (t.cell q).content = (Value.ofDatum d).entered := by
  have hcontent := h.content_eq q
  cases hlast : lastAt entries q with
  | none =>
    rw [hlast] at hcontent
    exact Or.inl hcontent
  | some d =>
    rw [hlast] at hcontent
    obtain ⟨hne, hmem⟩ := mem_of_lastAt hlast
    exact Or.inr ⟨d, hne, hmem, hcontent⟩

/-- Where all data are the same it does not matter which one comes last. -/
theorem Entered.content (h : Entered entries s t) (q : Position) (d : Datum) (hne : d ≠ .null)
    (hmem : (q, d) ∈ entries) (hall : ∀ d', (q, d') ∈ entries → d' = d) :
    (t.cell q).content = (Value.ofDatum d).entered := by
  rcases exists_lastAt hne hmem with ⟨d', hlast⟩
  obtain rfl := hall d' (mem_of_lastAt hlast).2
  rw [h.content_eq, hlast]
  rfl

/-- A cell shows what was entered last, or what it showed. -/
theorem Entered.value_eq (h : Entered entries s t) (q : Position) :
    t.value q = ((lastAt entries q).map Value.ofDatum).getD (s.value q) := by
  have hcontent := h.content_eq q
  cases hlast : lastAt entries q with
  | none =>
    rw [hlast] at hcontent
    exact value_of_content_eq hcontent
  | some d =>
    rw [hlast] at hcontent
    exact Cell.value_of_content hcontent

theorem Entered.of_cells_eq (htitle : t.title = s.title) (hmerged : t.merged = s.merged)
    (hcells : t.cells = s.cells) : Entered [] s t where
  title_eq := htitle
  merged_eq := hmerged
  bounds := nofun
  storable := nofun
  mem_iff q := by simp [hcells]
  other q _ := by rw [cell, cell, hcells]
  content_eq q := by
    rw [cell, cell, hcells]
    rfl

theorem Entered.append (h : Entered entries s t) (h' : Entered more t u) :
    Entered (entries ++ more) s u where
  title_eq := h'.title_eq.trans h.title_eq
  merged_eq := h'.merged_eq.trans h.merged_eq
  bounds := List.forall_mem_append.mpr ⟨h.bounds, h'.bounds⟩
  storable := List.forall_mem_append.mpr ⟨h.storable, h'.storable⟩
  mem_iff q := by
    rw [h'.mem_iff, h.mem_iff, ← or_assoc]
    simp only [List.mem_append, or_and_right, exists_or]
    rw [or_comm (a := ∃ e ∈ more, e.1 = q)]
  other q hq := by
    rw [List.forall_mem_append] at hq
    rw [h'.other q hq.2, h.other q hq.1]
  content_eq q := by
    rw [h'.content_eq, h.content_eq, lastAt_append]
    cases lastAt more q <;> rfl

/-- Another look changes nothing of what was entered. -/
theorem Entered.restyle (h : Entered entries s t) (hp : ∃ e ∈ entries, e.1 = p)
    (change : Style → Style) : Entered entries s (t.restyle p change) := by
  have hcontent (q : Position) : ((t.restyle p change).cell q).content = (t.cell q).content := by
    rw [cell_restyle]
    split
    next heq => rw [heq]
    next => rfl
  exact
    { title_eq := h.title_eq
      merged_eq := h.merged_eq
      bounds := h.bounds
      storable := h.storable
      mem_iff := fun q => by
        rw [mem_restyle, h.mem_iff]
        refine or_iff_right_of_imp ?_
        rintro rfl
        exact Or.inl hp
      other := fun q hq => by
        rw [cell_restyle, if_neg, h.other q hq]
        rintro rfl
        rcases hp with ⟨e, he, heq⟩
        exact hq e he heq
      content_eq := fun q => by
        rw [hcontent]
        exact h.content_eq q }

/-! ## One datum -/

theorem bounds_of_locate {row column : Nat} (h : locate row column = .ok p) :
    p = ⟨row, column⟩ ∧ 1 ≤ row ∧ row ≤ lastRow := by
  rw [locate] at h
  split at h
  · cases h
  · split at h
    · cases h
    next hfirst hlast =>
      cases h
      simp only [Bool.or_eq_true, decide_eq_true_eq, not_or] at hfirst
      exact ⟨rfl, by omega, by omega⟩

theorem run_openCell {row column : Int} (h : locate row column = .ok p) (s : Sheet) :
    (openCell row column).run s = .ok p (s.allocate p) := by
  rw [openCell, h]
  rfl

theorem entered_allocate (s : Sheet) (hpos : 1 ≤ p.row) (hlast : p.row ≤ lastRow) :
    Entered [(p, .null)] s (s.allocate p) where
  title_eq := rfl
  merged_eq := rfl
  bounds := List.forall_mem_singleton.mpr ⟨hpos, hlast⟩
  storable := List.forall_mem_singleton.mpr fun hne => absurd rfl hne
  mem_iff q := by simp [mem_allocate]
  other q _ := s.cell_allocate p q
  content_eq q := by
    rw [s.cell_allocate]
    by_cases hq : p = q <;> simp [lastAt, hq, present?]

theorem entered_of_onCell (hpos : 1 ≤ p.row) (hlast : p.row ≤ lastRow) (hne : d ≠ .null)
    (h : (onCell p (Cell.enter d)).run (s.allocate p) = .ok () t) : Entered [(p, d)] s t := by
  rw [EStateM.run, onCell] at h
  split at h
  next c henter =>
    cases h
    obtain ⟨hstorable, hc⟩ := Cell.enter_ok henter
    have hself : (((s.allocate p).putCell p c).cell p).content = (Value.ofDatum d).entered := by
      rw [cell_putCell, if_pos rfl, hc]
    have hother (q : Position) (hq : p ≠ q) : ((s.allocate p).putCell p c).cell q = s.cell q := by
      rw [cell_putCell, if_neg hq, cell_allocate]
    exact
      { title_eq := rfl
        merged_eq := rfl
        bounds := List.forall_mem_singleton.mpr ⟨hpos, hlast⟩
        storable := List.forall_mem_singleton.mpr fun _ => hstorable
        mem_iff := fun q => by simp [mem_putCell, mem_allocate]
        other := fun q hq => hother q (hq _ (List.mem_singleton_self _))
        content_eq := fun q => by
          by_cases hq : p = q
          · subst hq
            simpa [lastAt, present?_of_ne hne] using hself
          · rw [hother q hq]
            simp [lastAt, hq] }
  next => cases h

theorem entered_of_write {row column : Nat} (h : (write row column d).run s = .ok () t) :
    Entered [(⟨row, column⟩, d)] s t := by
  rw [write, EStateM.run_bind] at h
  cases hlocate : locate row column with
  | error fault =>
    rw [openCell, hlocate] at h
    cases h
  | ok p =>
    obtain ⟨rfl, hpos, hlast⟩ := bounds_of_locate hlocate
    rw [run_openCell hlocate] at h
    -- null is passed over, any other datum is entered
    cases d with
    | null =>
      cases h
      exact entered_allocate s hpos hlast
    | _ => exact entered_of_onCell hpos hlast (by simp) h

/-! ## A column of data -/

/-- Data that stand below one another. -/
def downColumn (row column : Nat) : List Datum → List (Position × Datum)
  | [] => []
  | d :: data => (⟨row, column⟩, d) :: downColumn (row + 1) column data

theorem lastAt_downColumn_of_ne {row column : Nat} {data : List Datum} (h : q.column ≠ column) :
    lastAt (downColumn row column data) q = none := by
  induction data generalizing row with
  | nil => rfl
  | cons d data ih =>
    rw [downColumn, lastAt, ih, if_neg, Option.or_none]
    rintro rfl
    exact h rfl

theorem lastAt_downColumn_of_lt {row row' column : Nat} {data : List Datum} (h : row' < row) :
    lastAt (downColumn row column data) ⟨row', column⟩ = none := by
  induction data generalizing row with
  | nil => rfl
  | cons d data ih =>
    rw [downColumn, lastAt, ih (by omega), if_neg, Option.or_none]
    rintro ⟨⟩
    omega

/-- Each datum of a column is the only one in its row. -/
theorem lastAt_downColumn {row column i : Nat} {data : List Datum} :
    lastAt (downColumn row column data) ⟨row + i, column⟩ = data[i]?.bind present? := by
  induction data generalizing row i with
  | nil => rfl
  | cons d data ih =>
    cases i with
    | zero =>
      rw [downColumn, lastAt, Nat.add_zero, lastAt_downColumn_of_lt (by omega), Option.none_or]
      exact if_pos rfl
    | succ i =>
      have hrow : row + (i + 1) = row + 1 + i := by omega
      rw [downColumn, lastAt, hrow, ih, if_neg, Option.or_none]
      · rfl
      · intro heq
        have hsame := congrArg Position.row heq
        dsimp only at hsame
        omega

theorem entered_of_writeColumn {row column : Nat} {data : List Datum}
    (h : (writeColumn row column data).run s = .ok () t) :
    Entered (downColumn row column data) s t := by
  induction data generalizing row s with
  | nil =>
    cases h
    exact .of_cells_eq rfl rfl rfl
  | cons d data ih =>
    rw [writeColumn, EStateM.run_bind] at h
    cases hwrite : (write row column d).run s with
    | error fault s' =>
      rw [hwrite] at h
      cases h
    | ok _ s' =>
      rw [hwrite] at h
      exact (entered_of_write hwrite).append (ih h)

end Sheet

end Sheetwright.Grid
