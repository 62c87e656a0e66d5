import Sheetwright.Code
/-!
# Codes from arguments

A code can also be built from named arguments, each checked as a field. Unknown arguments are
ignored. A group that has no items at all stops the check at once.
-/

namespace Sheetwright.Code

/-- Why arguments make no code. -/
inductive Fault where
  /-- Some fields are refused. -/
  | fields (errors : List Field.Error)
  /-- A group cannot be read. -/
  | misfit (m : Slots.Misfit)
  deriving Repr, DecidableEq

def Fault.message : Fault → String
  | fields errors => Field.report errors
  | misfit m => m.message

abbrev GroupCheck := ExceptT Slots.Misfit Field.Check

def group (arguments : Entries String Datum) (name : String) (size : Nat) :
    GroupCheck (Slots size) :=
  match arguments.get? name with
  | none => pure .blank
  | some datum => match Slots.ofDatum datum with
    | .ok slots => pure slots
    | .error (.inl m) => throw m
    | .error (.inr refusal) =>
      liftM (Field.note [name] Slots.blank (.error (.refused refusal.message)) :
        Field.Check (Slots size))

def fieldsOf (a : Entries String Datum) : GroupCheck Code := do
  let text (name : String) : Field.Check String := Field.argument a name (some "") Field.text
  let key ← liftM (Field.argument a "key" none Field.filledText : Field.Check String)
  let baseType ← liftM (Field.argument a "base_type" none Field.text : Field.Check String)
  return { key, baseType
           rawText := ← liftM (text "raw_text")
           timeseries := ← liftM (text "timeseries")
           sections := ← liftM (text "sections")
           beginningMonth := ← liftM (text "beginning_month")
           financialsDriver := ← liftM (text "financials_driver")
           labelRow := ← liftM (text "label_row")
           columnLabels := ← liftM (text "column_labels")
           driver := ← liftM (text "driver")
           assumptions := ← liftM (text "assumptions")
           isDeleted := ← liftM (Field.argument a "delete_flag" (some false) Field.boolean :
             Field.Check Bool)
           labels := ← group a "labels" _
           fincodes := ← group a "fincodes" _
           drivers := ← group a "drivers" _
           rows := ← group a "rows" _ }

def ofArguments (arguments : Entries String Datum) : Except Fault Code :=
  match (fieldsOf arguments).run.run [] with
  | (.error m, _) => .error (.misfit m)
  | (.ok code, []) => .ok code
  | (.ok _, errors) => .error (.fields errors)

end Sheetwright.Code
