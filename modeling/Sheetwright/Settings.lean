import Sheetwright.Datum.Json
import Sheetwright.Datum.Yaml
import Sheetwright.Files.Text
import Sheetwright.Layout
/-!
# Settings

Settings come from a file, JSON or YAML by the extension of its name, and from the environment,
which wins. They say where the reference is and how the template is laid out.
-/

namespace Sheetwright

/-- What the environment of the program sets. -/
structure Environment where
  referencePath : Option String := none
  templateSheet : Option String := none
  deriving Repr, DecidableEq

/-- The settings of the program. -/
structure Settings where
  referencePath : Option String := none
  layout : Layout := {}
  deriving Repr, DecidableEq

namespace Settings

/-! ## Faults -/

/-- Why there are no settings. -/
inductive Fault where
  /-- The file cannot be read. -/
  | file (cause : Files.TextFault)
  /-- The file is not JSON. -/
  | json (cause : Datum.Json.Error)
  /-- The file is not YAML. -/
  | yaml
  /-- The file holds a datum of another kind than a map. -/
  | notMap (kind : String)
  /-- The layout is given as a datum that has no entries. -/
  | noEntries (kind : String)
  /-- An item of the layout is no entry. -/
  | notEntry (index : Nat)
  /-- An item of the layout has too few or too many parts to be an entry. -/
  | entrySize (index size : Nat)
  /-- A datum that cannot be the name of an entry. -/
  | unusableName (kind : String)
  /-- The name of an entry is no text. -/
  | nameNotText
  /-- Some values do not fit. -/
  | fields (errors : List Field.Error)

/-- The wording of a fault; malformed YAML has none. -/
def Fault.message? : Fault → Option String
  | file cause => some cause.message
  | json cause => some cause.message
  | yaml => none
  | notMap kind => some s!"'{kind}' object has no attribute 'get'"
  | noEntries kind => some s!"'{kind}' object is not iterable"
  | notEntry index =>
    some s!"cannot convert dictionary update sequence element #{index} to a sequence"
  | entrySize index size =>
    some s!"dictionary update sequence element #{index} has length {size}; 2 is required"
  | unusableName kind => some s!"unhashable type: '{kind}'"
  | nameNotText => some "keywords must be strings"
  | fields errors => some (Field.report errors)

/-! ## The file -/

def yamlSuffixes : List String := [".yaml", ".yml"]

/-- A character cut off at the end of a file that is read piece by piece is reported as the start of
the last piece. -/
def pieceFault (f : Text.Utf8Fault) : Text.Utf8Fault :=
  if f.reason = .unexpectedEnd then { f with position := 0 } else f

/-- Reads a YAML file; one that holds nothing counts as an empty map. -/
def readYaml (t : Files.Tree) (p : Files.Path) : Except Fault Datum :=
  match t.readText p with
  | .error (.bytes cause) => .error (.file (.bytes (pieceFault cause)))
  | .error cause => .error (.file cause)
  | .ok text =>
    match Datum.Yaml.read text with
    | none => .error .yaml
    | some datum => .ok (if datum.isGiven then datum else .map [])

def readJson (t : Files.Tree) (p : Files.Path) : Except Fault Datum :=
  match t.readText p with
  | .error cause => .error (.file cause)
  | .ok text => (Datum.Json.read text).mapError .json

/-- The entries of the settings file at a path; without a path there are none. -/
def readFile (t : Files.Tree) (path : Option String) : Except Fault (List (Datum × Datum)) := do
  match path with
  | none => return []
  | some path =>
    let p := Files.Path.ofText path
    match ← if yamlSuffixes.contains p.suffix then readYaml t p else readJson t p with
    | .map entries => return entries
    | datum => throw (.notMap datum.kind)

/-! ## The layout -/

def parts? : Datum → Option (List Datum)
  | .text s => some (s.toList.map fun c => .text (String.singleton c))
  | .list items => some items
  | .map entries => some (entries.map (·.1))
  | _ => none

def readEntry (index : Nat) (d : Datum) : Except Fault (Datum × Datum) :=
  match parts? d with
  | none => .error (.notEntry index)
  | some [.list _, _] => .error (.unusableName (Datum.list []).kind)
  | some [.map _, _] => .error (.unusableName (Datum.map []).kind)
  | some [key, value] => .ok (key, value)
  | some items => .error (.entrySize index items.length)

def readEntries (d : Datum) : Except Fault (List (Datum × Datum)) :=
  match d with
  | .map entries => .ok entries
  | d => match parts? d with
    | none => .error (.noEntries d.kind)
    | some items => do
      let entries ← items.zipIdx.mapM fun (item, index) => readEntry index item
      return Datum.mapOf entries

/-- The entries as arguments; their names have to be texts. -/
def arguments (entries : List (Datum × Datum)) : Except Fault (Entries String Datum) :=
  entries.mapM fun
    | (.text name, value) => .ok (name, value)
    | _ => .error .nameNotText

def readLayout (environment : Environment) (file : List (Datum × Datum)) : Except Fault Layout := do
  let given := (Datum.lookup "executor" file).getD .null
  let entries ← if given.isGiven then readEntries given else pure []
  let entries := match environment.templateSheet with
    | none | some "" => entries
    | some title => Datum.put (.text "template_sheet") (.text title) entries
  (Layout.ofArguments (← arguments entries)).mapError .fields

/-! ## All settings -/

def readReferencePath (environment : Environment) (file : List (Datum × Datum)) :
    Except Fault (Option String) :=
  match environment.referencePath, Datum.lookup "reference_path" file with
  | some "", none | none, none => .ok none
  | some "", some datum | none, some datum =>
    match datum with
    | .null => .ok none
    | .text path => .ok (some path)
    | _ => .error (.fields [⟨["reference_path"], .notText⟩])
  | some path, _ => .ok (some path)

def load (t : Files.Tree) (environment : Environment) (path : Option String) :
    Except Fault Settings := do
  let file ← readFile t path
  let layout ← readLayout environment file
  let referencePath ← readReferencePath environment file
  return { referencePath, layout }

end Settings

end Sheetwright
