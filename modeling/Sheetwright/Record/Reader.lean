import Sheetwright.Record.Fragment
import Sheetwright.Record.Span
/-!
# Reading records

Records are read permissively: whatever cannot be read is dropped, and a log can note each drop with
its reason. Reading with a log gives the same records as reading without one.
-/

namespace Sheetwright.Record

/-! ## Notes -/

/-- Something that was dropped: why, what, and from which record. -/
structure Note where
  reason : Reason
  fragment : String
  record : String
  deriving Repr, DecidableEq

/-- The notes of a reading, in order. -/
abbrev Log := List Note

def strayNotes (text : List Char) : Log :=
  (segments text).filterMap fun
    | .stray gap =>
      if Text.allBlank gap then none
      else some ⟨.strayText, String.ofList (Text.trim gap), ""⟩
    | .unterminated rest => some ⟨.unterminatedRecord, String.ofList rest, ""⟩
    | .span _ => none

def fragmentNotes (record : List Char) (outcomes : List (List Char × Outcome)) : Log :=
  outcomes.filterMap fun
    | (fragment, .dropped reason) =>
      some ⟨reason, String.ofList (Text.trim fragment), String.ofList record⟩
    | _ => none

/-! ## One record -/

/-- The text of a record without the blanks around it and without its brackets. -/
def body (record : List Char) : List Char :=
  let trimmed := Text.trim record
  let opened := if trimmed.getLast? = some '>' then trimmed.dropLast else trimmed
  match opened with
  | '<' :: rest => rest
  | _ => opened

/-- The parts of a record between its semicolons; the first is the base type. -/
def parts (record : List Char) : List (List Char) := (body record).splitOn ';'

/-- What the fragments of a record give, each with its fragment. -/
def outcomes (record : List Char) : Except Text.IntegerFault (List (List Char × Outcome)) :=
  ((parts record).drop 1).mapM fun fragment => (outcome fragment).map (fragment, ·)

/-- The attributes after one more fragment. The deletion mark counts wherever it stands. -/
def addFragment (attributes : Entries String Datum) :
    List Char × Outcome → Entries String Datum
  | (fragment, outcome) =>
    let marked :=
      if marksDeletion fragment then attributes.put deleteKey (.bool true) else attributes
    match outcome with
    | .attribute name value => marked.put name.text (.text (String.ofList value))
    | _ => marked

/-- The record made of a base type and what its fragments give. -/
def assemble (record : List Char) (outcomes : List (List Char × Outcome)) : Record :=
  { baseType := String.ofList (Text.trim ((parts record).headD []))
    attributes := outcomes.foldl addFragment []
    rawText := String.ofList (Text.trim record) }

/-- Reads one record. The only failure is an index with too many digits. -/
def read (record : List Char) : Except Text.IntegerFault Record :=
  (outcomes record).map (assemble record)

def readNoting (log : Log) (record : List Char) : Except Text.IntegerFault (Record × Log) :=
  (outcomes record).map fun found => (assemble record found, log ++ fragmentNotes record found)

/-! ## All records of a text -/

def hasBaseType (r : Record) : Bool := !r.baseType.isEmpty

def readAll (text : List Char) : Except Text.IntegerFault (List Record) := do
  return (← (texts text).mapM read).filter hasBaseType

/-- Reads record texts one after another, adding to the records and notes so far. -/
def readEachNoting (records : List Record) (log : Log) :
    List (List Char) → Except Text.IntegerFault (List Record × Log)
  | [] => .ok (records, log)
  | text :: rest => do
    let (record, log) ← readNoting log text
    if hasBaseType record then readEachNoting (records ++ [record]) log rest
    else readEachNoting records (log ++ [⟨.emptyBaseType, record.rawText, record.rawText⟩]) rest

/-- The records of a text, and the notes on everything that was dropped. -/
def readAllNoting (text : List Char) : Except Text.IntegerFault (List Record × Log) :=
  readEachNoting [] (strayNotes text) (texts text)

end Sheetwright.Record
