import Sheetwright.Code.Arguments
import Sheetwright.Proofs.Entries
/-!
# Codes of arguments, field by field

The check of a code goes on after a field that is refused, so that all problems are reported
together, and the errors so far are handed from field to field. Still no field depends on another:
a check only adds errors of its own to the ones it is given (`Settled.adds`), so a code is made
exactly when every field is read on its own (`ofArguments_eq_ok_iff`).
-/

namespace Sheetwright

/-- The name under which the arguments have a group. -/
def Group.field : Group → String
  | label => "labels"
  | fincode => "fincodes"
  | driver => "drivers"
  | row => "rows"

namespace Code

variable {α β : Type}

/-! ## Checks -/

/-- A check with nothing but errors of its own to add, and the values it passes with. -/
structure Settled (check : GroupCheck α) (P : α → Prop) : Prop where
  adds : ∃ result more, ∀ errors, check.run.run errors = (result, errors ++ more)
  passes : ∀ value, check.run.run [] = (.ok value, []) ↔ P value

theorem settled_pure (value : α) : Settled (pure value : GroupCheck α) (· = value) where
  adds := ⟨.ok value, [], fun errors => by rw [List.append_nil]; rfl⟩
  passes := fun other => by
    refine ⟨fun h => ?_, fun h => h ▸ rfl⟩
    cases h
    rfl

theorem settled_throw (m : Slots.Misfit) : Settled (throw m : GroupCheck α) fun _ => False where
  adds := ⟨.error m, [], fun errors => by rw [List.append_nil]; rfl⟩
  passes := fun _ => iff_of_false nofun id

theorem settled_note (place : List String) (standIn : α) (result : Except Field.Problem α) :
    Settled (liftM (Field.note place standIn result : Field.Check α) : GroupCheck α)
      (result = .ok ·) := by
  cases result with
  | ok value =>
    refine ⟨⟨.ok value, [], fun errors => by rw [List.append_nil]; rfl⟩, fun other => ?_⟩
    refine ⟨fun h => ?_, fun h => ?_⟩ <;> (cases h; rfl)
  | error problem =>
    exact ⟨⟨.ok standIn, [⟨place, problem⟩], fun _ => rfl⟩, fun _ => iff_of_false nofun nofun⟩

theorem Settled.congr {check : GroupCheck α} {P Q : α → Prop} (h : Settled check P)
    (hiff : ∀ value, P value ↔ Q value) : Settled check Q :=
  ⟨h.adds, fun value => (h.passes value).trans (hiff value)⟩

section

variable {check : GroupCheck α} {next : α → GroupCheck β} {P : α → Prop} {Q : α → β → Prop}
  {more : List Field.Error}

theorem run_bind_of_error {m : Slots.Misfit}
    (h : ∀ errors, check.run.run errors = (.error m, errors ++ more)) (errors : List Field.Error) :
    (check >>= next).run.run errors = (.error m, errors ++ more) := by
  rw [ExceptT.run_bind, StateT.run_bind, h]
  rfl

theorem run_bind_of_ok {first : α}
    (h : ∀ errors, check.run.run errors = (.ok first, errors ++ more)) (errors : List Field.Error) :
    (check >>= next).run.run errors = (next first).run.run (errors ++ more) := by
  rw [ExceptT.run_bind, StateT.run_bind, h]
  rfl

theorem Settled.passes_iff_of_ok {first value : α} (h : Settled check P)
    (hadds : ∀ errors, check.run.run errors = (.ok first, errors ++ more)) :
    P value ↔ value = first ∧ more = [] := by
  rw [← h.passes, hadds]
  constructor
  · intro hvalue
    cases hvalue
    exact ⟨rfl, rfl⟩
  · rintro ⟨rfl, rfl⟩
    rfl

/-- Two checks in a row pass when both do. -/
theorem Settled.bind (h : Settled check P) (hnext : ∀ value, Settled (next value) (Q value)) :
    Settled (check >>= next) fun value => ∃ first, P first ∧ Q first value := by
  obtain ⟨result, more, hadds⟩ := h.adds
  cases result with
  | error m =>
    have hrun : ∀ errors, (check >>= next).run.run errors = (.error m, errors ++ more) :=
      run_bind_of_error hadds
    refine ⟨⟨.error m, more, hrun⟩, fun value => iff_of_false ?_ ?_⟩
    · rw [hrun]
      exact nofun
    · rintro ⟨first, hfirst, -⟩
      rw [← h.passes, hadds] at hfirst
      cases hfirst
  | ok first =>
    have hrun : ∀ errors, (check >>= next).run.run errors = (next first).run.run (errors ++ more) :=
      run_bind_of_ok hadds
    obtain ⟨last, rest, hlast⟩ := (hnext first).adds
    refine ⟨⟨last, more ++ rest, fun errors => ?_⟩, fun value => ⟨fun hvalue => ?_, ?_⟩⟩
    · rw [hrun, hlast, List.append_assoc]
    · -- errors of the first check are still there after the second one
      have hmore : more = [] := by
        rw [hrun, hlast] at hvalue
        exact (List.append_eq_nil_iff.mp (congrArg Prod.snd hvalue)).1
      rw [hrun, hmore, List.append_nil] at hvalue
      have hfirst := (h.passes_iff_of_ok hadds).mpr ⟨rfl, hmore⟩
      exact ⟨first, hfirst, ((hnext first).passes value).mp hvalue⟩
    · rintro ⟨found, hfound, hvalue⟩
      obtain ⟨rfl, rfl⟩ := (h.passes_iff_of_ok hadds).mp hfound
      rw [hrun]
      exact ((hnext found).passes value).mpr hvalue

end

/-! ## Fields -/

/-- What the field of a name is read as: a datum that is given has to be readable, and one that is
not given needs a default. -/
def Reads (a : Entries String Datum) (name : String) (default? : Option α)
    (read : Datum → Except Field.Problem α) (value : α) : Prop :=
  match a.get? name with
  | some datum => read datum = .ok value
  | none => default? = some value

theorem settled_argument [Inhabited α] (a : Entries String Datum) (name : String)
    (default? : Option α) (read : Datum → Except Field.Problem α) :
    Settled (liftM (Field.argument a name default? read : Field.Check α) : GroupCheck α)
      (Reads a name default? read) := by
  unfold Field.argument Reads
  cases a.get? name with
  | some datum => exact settled_note _ _ _
  | none =>
    cases default? with
    | none => exact (settled_note _ _ _).congr fun _ => iff_of_false nofun nofun
    | some value => exact (settled_note [] value (.ok value)).congr fun _ => by simp

/-- The slots that a group is read as. -/
def Fits {size : Nat} (given? : Option Datum) (slots : Slots size) : Prop :=
  match given? with
  | some datum => Slots.ofDatum datum = .ok slots
  | none => slots = .blank

theorem settled_group (a : Entries String Datum) (name : String) (size : Nat) :
    Settled (group a name size) (Fits (a.get? name)) := by
  unfold group Fits
  cases a.get? name with
  | none => exact settled_pure _
  | some datum =>
    cases hdatum : (Slots.ofDatum datum : Except _ (Slots size)) with
    | ok slots =>
      simp only [hdatum]
      exact (settled_pure slots).congr fun _ => by simp [eq_comm]
    | error fault =>
      cases fault with
      | inl m =>
        simp only [hdatum]
        exact (settled_throw m).congr fun _ => iff_of_false id nofun
      | inr refusal =>
        simp only [hdatum]
        exact (settled_note _ _ _).congr fun _ => iff_of_false nofun nofun

/-- What is found in the arguments under the names of the fields of a code. -/
structure ReadFrom (a : Entries String Datum) (c : Code) : Prop where
  key : Reads a "key" none Field.filledText c.key
  baseType : Reads a "base_type" none Field.text c.baseType
  rawText : Reads a "raw_text" (some "") Field.text c.rawText
  timeseries : Reads a "timeseries" (some "") Field.text c.timeseries
  sections : Reads a "sections" (some "") Field.text c.sections
  beginningMonth : Reads a "beginning_month" (some "") Field.text c.beginningMonth
  financialsDriver : Reads a "financials_driver" (some "") Field.text c.financialsDriver
  labelRow : Reads a "label_row" (some "") Field.text c.labelRow
  columnLabels : Reads a "column_labels" (some "") Field.text c.columnLabels
  driver : Reads a "driver" (some "") Field.text c.driver
  assumptions : Reads a "assumptions" (some "") Field.text c.assumptions
  isDeleted : Reads a "delete_flag" (some false) Field.boolean c.isDeleted
  slots : ∀ g : Group, Fits (a.get? g.field) (c.slots g)

theorem settled_fieldsOf (a : Entries String Datum) : Settled (fieldsOf a) (ReadFrom a) := by
  apply Settled.congr
  -- twelve arguments and four groups, one check after the other
  · unfold fieldsOf
    iterate 12
      apply Settled.bind (settled_argument _ _ _ _)
      intro _
    iterate 4
      apply Settled.bind (settled_group _ _ _)
      intro _
    exact settled_pure _
  · intro c
    constructor
    · rintro ⟨key, hkey, baseType, hbase, rawText, hraw, timeseries, htimeseries, sections,
        hsections, month, hmonth, financials, hfinancials, labelRow, hlabelRow, columnLabels,
        hcolumnLabels, driver, hdriver, assumptions, hassumptions, deleted, hdeleted, labels,
        hlabels, fincodes, hfincodes, drivers, hdrivers, rows, hrows, rfl⟩
      refine ⟨hkey, hbase, hraw, htimeseries, hsections, hmonth, hfinancials, hlabelRow,
        hcolumnLabels, hdriver, hassumptions, hdeleted, fun g => ?_⟩
      cases g with
      | label => exact hlabels
      | fincode => exact hfincodes
      | driver => exact hdrivers
      | row => exact hrows
    · intro h
      exact ⟨_, h.key, _, h.baseType, _, h.rawText, _, h.timeseries, _, h.sections, _,
        h.beginningMonth, _, h.financialsDriver, _, h.labelRow, _, h.columnLabels, _, h.driver, _,
        h.assumptions, _, h.isDeleted, _, h.slots .label, _, h.slots .fincode, _,
        h.slots .driver, _, h.slots .row, rfl⟩

theorem ofArguments_eq_ok_iff {a : Entries String Datum} {c : Code} :
    ofArguments a = .ok c ↔ ReadFrom a c := by
  rw [← (settled_fieldsOf a).passes, ofArguments]
  rcases (fieldsOf a).run.run [] with ⟨_ | code, _ | ⟨error, errors⟩⟩
  · exact iff_of_false nofun nofun
  · exact iff_of_false nofun nofun
  · refine ⟨fun h => ?_, fun h => ?_⟩ <;> (cases h; rfl)
  · exact iff_of_false nofun nofun

/-! ## Arguments without groups -/

def isGroupField (name : String) : Bool := Group.all.any fun g => g.field == name

/-- The arguments that are no groups. -/
def withoutGroups (a : Entries String Datum) : Entries String Datum :=
  a.filter fun entry => !isGroupField entry.1

theorem get?_withoutGroups (a : Entries String Datum) (name : String) :
    (withoutGroups a).get? name = if isGroupField name then none else a.get? name := by
  rw [withoutGroups, Entries.get?_filter (fun name => !isGroupField name)]
  cases isGroupField name <;> rfl

theorem isGroupField_field (g : Group) : isGroupField g.field = true := by
  cases g <;> decide

/-- The code with other slots. -/
def withSlots (c : Code) (slots : (g : Group) → Slots g.size) : Code :=
  { c with
    labels := slots .label
    fincodes := slots .fincode
    drivers := slots .driver
    rows := slots .row }

@[simp] theorem slots_withSlots (c : Code) (slots : (g : Group) → Slots g.size) (g : Group) :
    (c.withSlots slots).slots g = slots g := by
  cases g <;> rfl

/-- The fields that are no groups are read from the other arguments, whatever the slots are. -/
theorem ReadFrom.withSlots {a b : Entries String Datum} {c : Code} (h : ReadFrom a c)
    (hother : ∀ name, isGroupField name = false → b.get? name = a.get? name)
    {slots : (g : Group) → Slots g.size} (hslots : ∀ g, Fits (b.get? g.field) (slots g)) :
    ReadFrom b (c.withSlots slots) := by
  have hreads {α : Type} {name : String} {default? : Option α} {read} {value : α}
      (hread : Reads a name default? read value) (hname : isGroupField name = false) :
      Reads b name default? read value := by
    rwa [Reads, hother name hname]
  refine ⟨hreads h.key ?_, hreads h.baseType ?_, hreads h.rawText ?_, hreads h.timeseries ?_,
    hreads h.sections ?_, hreads h.beginningMonth ?_, hreads h.financialsDriver ?_,
    hreads h.labelRow ?_, hreads h.columnLabels ?_, hreads h.driver ?_, hreads h.assumptions ?_,
    hreads h.isDeleted ?_, fun g => ?_⟩
  case refine_13 =>
    rw [slots_withSlots]
    exact hslots g
  all_goals decide

/-- The groups make no difference to each other or to the other fields. -/
theorem exists_ofArguments_iff {a : Entries String Datum} :
    (∃ c, ofArguments a = .ok c) ↔
      (∃ c, ofArguments (withoutGroups a) = .ok c) ∧
      ∀ g : Group, ∃ slots : Slots g.size, Fits (a.get? g.field) slots := by
  simp only [ofArguments_eq_ok_iff]
  constructor
  · rintro ⟨c, hc⟩
    have hblank : ∀ g : Group, Fits ((withoutGroups a).get? g.field) (.blank : Slots g.size) := by
      intro g
      rw [get?_withoutGroups, isGroupField_field]
      rfl
    refine ⟨⟨_, hc.withSlots (fun name hname => ?_) hblank⟩, fun g => ⟨_, hc.slots g⟩⟩
    rw [get?_withoutGroups, hname]
    rfl
  · rintro ⟨⟨c, hc⟩, hslots⟩
    choose slots hslots using hslots
    refine ⟨_, hc.withSlots (fun name hname => ?_) hslots⟩
    rw [get?_withoutGroups, hname]
    rfl

end Code

end Sheetwright
