import Sheetwright.Code
import Sheetwright.Record.Reader
/-!
# Collections

A collection keeps codes in the order in which they were added, each under a key of its own. The key
is the base type, or the base type with the smallest number that makes it free.
-/

namespace Sheetwright

/-- Codes under their keys, in order of addition. -/
structure Collection where
  codes : Entries String Code := []

namespace Collection

def keys (c : Collection) : List String := c.codes.keys

def values (c : Collection) : List Code := c.codes.map (·.2)

def size (c : Collection) : Nat := c.codes.length

def get? (c : Collection) (key : String) : Option Code := c.codes.get? key

/-- A base type with a number behind it. -/
def numbered (baseType : String) (n : Nat) : String := baseType ++ String.ofList (Text.decimal n)

/-- The key that a record of this base type would get. Among the first `size + 1` numbers one is
always free. -/
def nextKey (c : Collection) (baseType : String) : String :=
  if c.codes.has baseType then
    let free := (List.range (c.size + 1)).find? fun n => !c.codes.has (numbered baseType (n + 1))
    numbered baseType (free.getD c.size + 1)
  else baseType

def add (c : Collection) (r : Record) : Except (List Field.Error) (Collection × Code) := do
  let key := c.nextKey r.baseType
  let code ← Code.ofRecord key r
  return (⟨c.codes.put key code⟩, code)

/-- Why a text gives no collection. -/
inductive Fault where
  /-- An index has too many digits. -/
  | integer (fault : Text.IntegerFault)
  /-- A record is no code. -/
  | code (errors : List Field.Error)
  deriving Repr, DecidableEq

def Fault.message : Fault → String
  | integer fault => fault.message
  | code errors => Field.report errors

def ofRecords (records : List Record) : Except (List Field.Error) Collection :=
  records.foldlM (fun c r => (c.add r).map (·.1)) {}

def ofText (text : List Char) : Except Fault Collection := do
  let records ← (Record.readAll text).mapError .integer
  (ofRecords records).mapError .code

def ofTextNoting (text : List Char) : Except Fault (Collection × Record.Log) := do
  let (records, log) ← (Record.readAllNoting text).mapError .integer
  return (← (ofRecords records).mapError .code, log)

/-! ## Listing -/

def codeLines (key : String) (code : Code) : List String :=
  [s!"Code: {key}", "-------------------", s!"type: {code.baseType}"] ++
    code.attributeItems.map (fun (name, value) => name ++ ": " ++ value.plain) ++ [""]

def listing (c : Collection) : String :=
  "\n".intercalate (["Code Collection", "===============", ""] ++
    c.codes.flatMap fun (key, code) => codeLines key code)

end Collection

end Sheetwright
