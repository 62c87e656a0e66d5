import Sheetwright.Proofs.Grid.Entering
import Sheetwright.Template
/-!
# What building a template enters

A template is built by entering data into an empty sheet. `entries` lists these data with their
positions, for any layout and any blocks: the title, the header, and the rows one below the other,
each with the type of its block, its identifier, its label and the formulas of its periods. If a
template is built then every row of every block is well-formed, and exactly these data were entered:
`exists_of_build`.
-/

namespace Sheetwright.Template

open Grid Grid.Sheet Operation

variable {layout : Layout} {α β : Type}

/-! ## Operations that enter data -/

/-- If the operation returns, it has entered these data. -/
def Enters (entries : List (Position × Datum)) (x : Build α) : Prop :=
  ∀ s a t, x.run s = .ok a t → Entered entries s t

theorem Enters.done (a : α) : Enters [] (pure a : Build α) := by
  intro s _ t h
  cases h
  exact .of_cells_eq rfl rfl rfl

theorem Enters.stop (entries : List (Position × Datum)) (fault : Fault) :
    Enters entries (throw fault : Build α) := by
  intro s _ t h
  cases h

theorem Enters.bind {entries more : List (Position × Datum)} {x : Build α} {f : α → Build β}
    (hx : Enters entries x) (hf : ∀ a, Enters more (f a)) : Enters (entries ++ more) (x >>= f) := by
  intro s b u h
  rw [EStateM.run_bind] at h
  cases hrun : x.run s with
  | error fault t =>
    rw [hrun] at h
    cases h
  | ok a t =>
    rw [hrun] at h
    exact (hx s a t hrun).append (hf a t b u h)

theorem Enters.forM {l : List α} {f : α → Build Unit} {entry : α → Position × Datum}
    (h : ∀ a ∈ l, Enters [entry a] (f a)) : Enters (l.map entry) (l.forM f) := by
  induction l with
  | nil => exact .done ()
  | cons a l ih =>
    rw [List.forM_eq_forM, List.forM_cons, List.map_cons]
    exact (h a List.mem_cons_self).bind fun _ => ih fun b hb => h b (List.mem_cons_of_mem a hb)

theorem enters_write (row column : Nat) (d : Datum) :
    Enters [(⟨row, column⟩, d)] (onSheet (Sheet.write row column d)) := by
  intro s a t h
  rw [onSheet, EStateM.run_adaptExcept] at h
  cases hrun : (Sheet.write row column d).run s with
  | error fault u =>
    rw [hrun] at h
    cases h
  | ok _ u =>
    rw [hrun] at h
    cases h
    exact entered_of_write hrun

theorem enters_put (row column : Nat) (d : Datum) (look : Style → Style) :
    Enters [(⟨row, column⟩, d)] (put row column d look) := by
  intro s a u h
  rw [put, EStateM.run_bind] at h
  cases hrun : (onSheet (Sheet.write row column d)).run s with
  | error fault t =>
    rw [hrun] at h
    cases h
  | ok _ t =>
    rw [hrun] at h
    cases h
    exact (enters_write row column d s () t hrun).restyle ⟨_, List.mem_singleton_self _, rfl⟩ look

theorem enters_setWidth (column : List Char) (width : Float) :
    Enters [] (modify fun s => s.setWidth column width : Build Unit) := by
  intro s _ t h
  cases h
  exact .of_cells_eq rfl rfl rfl

/-! ## Rows -/

/-- What a row of some kind holds under a period. -/
def periodDatum (layout : Layout) (row : Nat) : RowKind → Datum
  | .input => .int 0
  | _ => .text ("=$" ++ String.ofList (columnName layout.assumptionsColumn) ++ toString row)

/-- The data of a row of a block. -/
def rowEntries (layout : Layout) (row : Nat) (type : String) (r : Row) : List (Position × Datum) :=
  (⟨row, layout.tagColumn⟩, .text type) ::
    if r.kind = .pause then []
    else (if r.id.isGiven then [(⟨row, 1⟩, r.id)] else []) ++ (⟨row, 2⟩, r.label) ::
      if r.kind = .heading then []
      else periodColumns.map fun column => (⟨row, column⟩, periodDatum layout row r.kind)

theorem enters_letters (column : Nat) : Enters [] (letters column) := by
  rw [letters]
  split
  · exact .done _
  · exact .stop _ _

theorem enters_writePeriods (layout : Layout) (row : Nat) (kind : RowKind) :
    Enters (periodColumns.map fun column => (⟨row, column⟩, periodDatum layout row kind))
      (writePeriods layout row kind) := by
  rw [writePeriods, letters]
  cases hname : nameOfColumn? layout.assumptionsColumn with
  | none => exact Enters.stop _ _
  | some name =>
    have hletters : name = columnName layout.assumptionsColumn := by
      rw [nameOfColumn?] at hname
      split at hname
      · exact (Option.some.inj hname).symm
      · cases hname
    dsimp only
    rw [pure_bind, hletters]
    refine Enters.forM fun column _ => ?_
    cases kind <;> exact enters_put row column _ _

/-- A condition decides whether more data are entered. -/
theorem Enters.ite {c : Prop} [Decidable c] {entries more : List (Position × Datum)}
    {x y : Build α} (hx : c → Enters entries x) (hy : ¬c → Enters more y) :
    Enters (if c then entries else more) (if c then x else y) := by
  by_cases h : c
  · rw [if_pos h, if_pos h]
    exact hx h
  · rw [if_neg h, if_neg h]
    exact hy h

theorem enters_writeRow (layout : Layout) (row : Nat) (type : String) {data : List Datum} {r : Row}
    (h : Row.ofData data = .ok r) :
    Enters (rowEntries layout row type r) (writeRow layout row type data) := by
  rw [writeRow, h]
  dsimp only
  rw [pure_bind]
  have htag : Enters [(⟨row, layout.tagColumn⟩, .text type)]
      (onSheet (Sheet.write row layout.tagColumn (.text type))) :=
    enters_write row layout.tagColumn (.text type)
  refine Enters.bind htag fun _ => ?_
  refine Enters.ite (fun _ => Enters.done ()) fun _ => ?_
  -- the label and the periods follow, whether there is an identifier or not
  have hrest : Enters ((⟨row, 2⟩, r.label) :: if r.kind = .heading then [] else
        periodColumns.map fun column => (⟨row, column⟩, periodDatum layout row r.kind))
      (if r.kind = .heading then
        put row 2 r.label fun look => { look with font := headingFont, fill := headingFill }
      else do
        put row 2 r.label fun look => { look with font := labelFont }
        writePeriods layout row r.kind) := by
    by_cases hheading : r.kind = .heading
    · rw [if_pos hheading, if_pos hheading]
      exact enters_put row 2 r.label _
    · rw [if_neg hheading, if_neg hheading]
      exact Enters.bind (enters_put row 2 r.label _) fun _ => enters_writePeriods layout row r.kind
  by_cases hid : r.id.isGiven = true
  · rw [if_pos hid, if_pos hid]
    exact Enters.bind (enters_write row 1 r.id) fun _ => hrest
  · rw [if_neg hid, if_neg hid]
    exact hrest

/-- A row that is written is well-formed. -/
theorem exists_row_of_writeRow {row : Nat} {type : String} {data : List Datum} {s t : Sheet}
    (h : (writeRow layout row type data).run s = .ok () t) : ∃ r, Row.ofData data = .ok r := by
  cases hrow : Row.ofData data with
  | ok r => exact ⟨r, rfl⟩
  | error fault =>
    rw [writeRow, hrow] at h
    cases h

/-- The data of rows one below the other, as far as they are well-formed. -/
def rowsEntries (layout : Layout) (row : Nat) :
    List (String × List Datum) → List (Position × Datum)
  | [] => []
  | (type, data) :: rest =>
    (match Row.ofData data with
      | .ok r => rowEntries layout row type r
      | .error _ => []) ++ rowsEntries layout (row + 1) rest

theorem enters_writeRows (layout : Layout) (row : Nat) (items : List (String × List Datum)) :
    Enters (rowsEntries layout row items) (writeRows layout row items) := by
  induction items generalizing row with
  | nil => exact .done ()
  | cons item items ih =>
    obtain ⟨type, data⟩ := item
    rw [rowsEntries, writeRows]
    refine Enters.bind ?_ fun _ => ih (row + 1)
    cases hrow : Row.ofData data with
    | ok r => exact enters_writeRow layout row type hrow
    | error fault =>
      rw [writeRow, hrow]
      exact Enters.stop _ fault

theorem exists_row_of_writeRows {row : Nat} {items : List (String × List Datum)} {s t : Sheet}
    (h : (writeRows layout row items).run s = .ok () t) :
    ∀ item ∈ items, ∃ r, Row.ofData item.2 = .ok r := by
  induction items generalizing row s with
  | nil => exact nofun
  | cons item items ih =>
    obtain ⟨type, data⟩ := item
    rw [writeRows, EStateM.run_bind] at h
    cases hrun : (writeRow layout row type data).run s with
    | error fault u =>
      rw [hrun] at h
      cases h
    | ok _ u =>
      rw [hrun] at h
      exact List.forall_mem_cons.mpr ⟨exists_row_of_writeRow hrun, ih h⟩

/-- An entry of the rows belongs to one of them. -/
theorem mem_rowsEntries {row : Nat} {items : List (String × List Datum)}
    {entry : Position × Datum} :
    entry ∈ rowsEntries layout row items ↔ ∃ i type data r, items[i]? = some (type, data) ∧
      Row.ofData data = .ok r ∧ entry ∈ rowEntries layout (row + i) type r := by
  induction items generalizing row with
  | nil => simp [rowsEntries]
  | cons item items ih =>
    obtain ⟨type, data⟩ := item
    rw [rowsEntries, List.mem_append, ih]
    constructor
    · rintro (hfirst | ⟨i, type', data', r, hitem, hrow, hmem⟩)
      · cases hrow : Row.ofData data with
        | error fault => simp [hrow] at hfirst
        | ok r =>
          rw [hrow] at hfirst
          exact ⟨0, type, data, r, rfl, hrow, hfirst⟩
      · refine ⟨i + 1, type', data', r, hitem, hrow, ?_⟩
        rwa [Nat.add_assoc, Nat.add_comm 1 i] at hmem
    · rintro ⟨_ | i, type', data', r, hitem, hrow, hmem⟩
      · cases hitem
        rw [hrow]
        exact Or.inl hmem
      · refine Or.inr ⟨i, type', data', r, hitem, hrow, ?_⟩
        rwa [Nat.add_assoc, Nat.add_comm 1 i]

/-! ## The whole template -/

/-- The title and the header. -/
def headEntries (layout : Layout) : List (Position × Datum) :=
  (⟨1, 1⟩, .text "Model calculations") ::
    (headers layout).map fun (column, name) => (⟨headerRow layout, column⟩, .text name)

theorem enters_writeHeader (layout : Layout) :
    Enters (headEntries layout) (writeHeader layout) := by
  have hheaders : Enters ((headers layout).map fun entry : Nat × String =>
      ((⟨headerRow layout, entry.1⟩ : Position), Datum.text entry.2)) ((headers layout).forM
        fun (column, name) => put (headerRow layout) column (.text name) fun look =>
          { look with font := headerFont, fill := headerFill }) :=
    Enters.forM fun _ _ => enters_put _ _ _ _
  have hwidths : Enters [] (do
      modify fun s => s.setWidth ['B'] 28
      let tag ← letters layout.tagColumn
      modify fun s => s.setWidth tag 14 : Build Unit) :=
    Enters.bind (enters_setWidth ['B'] 28) fun _ =>
      Enters.bind (enters_letters layout.tagColumn) fun tag => enters_setWidth tag 14
  have hall := Enters.bind (enters_put 1 1 (.text "Model calculations") fun look =>
    { look with font := titleFont, fill := headerFill }) fun _ => hheaders.bind fun _ => hwidths
  rw [List.append_nil] at hall
  exact hall

/-- All data of a template. -/
def entries (layout : Layout) (blocks : Blocks) : List (Position × Datum) :=
  headEntries layout ++ rowsEntries layout layout.dataStartRow (taggedRows blocks)

theorem exists_of_isOk {ε : Type} {x : Except ε α} (h : x.isOk = true) : ∃ a, x = .ok a := by
  cases x with
  | ok a => exact ⟨a, rfl⟩
  | error e => cases h

/-- A template that was built is one sheet, and its data were entered into it. -/
theorem exists_of_build {blocks : Blocks} {b : Workbook} (h : build layout blocks = .ok b) :
    ∃ title t, sheetTitle layout = .ok title ∧ b = ⟨[t]⟩ ∧
      Entered (entries layout blocks) { title } t ∧
      ∀ item ∈ taggedRows blocks, ∃ r, Row.ofData item.2 = .ok r := by
  rw [build] at h
  cases htitle : sheetTitle layout with
  | error fault =>
    rw [htitle] at h
    cases h
  | ok title =>
    rw [htitle] at h
    change (pure title >>= _) = _ at h
    rw [pure_bind] at h
    dsimp only at h
    have henters := Enters.bind (enters_writeHeader layout) fun _ =>
      enters_writeRows layout layout.dataStartRow (taggedRows blocks)
    rw [EStateM.run_bind] at h
    cases hhead : (writeHeader layout).run { title } with
    | error fault u =>
      rw [hhead] at h
      cases h
    | ok _ u =>
      rw [hhead] at h
      dsimp only at h
      cases hrows : (writeRows layout layout.dataStartRow (taggedRows blocks)).run u with
      | error fault v =>
        rw [hrows] at h
        cases h
      | ok _ v =>
        rw [hrows] at h
        refine ⟨title, v, rfl, (Except.ok.inj h).symm, henters _ () v ?_,
          exists_row_of_writeRows hrows⟩
        rw [EStateM.run_bind, hhead]
        exact hrows

end Sheetwright.Template
