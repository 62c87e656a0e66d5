import Sheetwright.Collection
import Sheetwright.Command.Line
import Sheetwright.Document.Session
import Sheetwright.Reference.Loading
import Sheetwright.Run
import Sheetwright.Settings
import Sheetwright.Template
import Sheetwright.Validation
import Sheetwright.Workbook.Storage
/-!
# Commands

Carrying out a command on the files below a working directory. A command prints lines, may change
files, and ends well, with a refusal, as unusable, or with a fault. A run stores nothing when the
reference is not readable or when validation finds something and is not overruled.
-/

namespace Sheetwright.Command

/-! ## Endings -/

/-- What ends a command before its time. -/
inductive Fault where
  | text (cause : Files.TextFault)
  | settings (cause : Settings.Fault)
  | reference (cause : Reference.Fault)
  | collection (cause : Collection.Fault)
  | opening (cause : Workbook.OpeningFault)
  | document (cause : Document.Fault)
  | template (cause : Template.Fault)

def Fault.message : Fault → String
  | text cause => cause.message
  | settings cause => cause.message?.getD "malformed YAML"
  | reference cause => cause.message
  | collection cause => cause.message
  | opening cause => cause.message
  | document cause => cause.message
  | template cause => cause.message

/-- Why a command goes no further. -/
inductive Stop where
  /-- The command line lacks something. -/
  | unusable
  /-- What was asked for is not done, or not without errors. -/
  | refused
  /-- Something unforeseen. -/
  | fault (cause : Fault)

/-- What a command works on: files, and what was printed so far. -/
structure Desk where
  tree : Files.Tree
  printed : String := ""

abbrev Step := EStateM Stop Desk

def print (line : String) : Step Unit :=
  modify fun desk => { desk with printed := desk.printed ++ line ++ "\n" }

def orFault {ε α : Type} (toFault : ε → Fault) : Except ε α → Step α
  | .ok a => pure a
  | .error e => throw (.fault (toFault e))

/-! ## Inputs -/

def readText (path : String) : Step (List Char) := do
  orFault .text ((← get).tree.readText (.ofText path))

def loadSettings (environment : Environment) (path : Option String) : Step Settings := do
  orFault .settings (Settings.load (← get).tree environment path)

/-- The path of the reference: the given one, or else that of the settings. -/
def referencePath? (settings : Settings) (given : Option String) : Option String :=
  match given with
  | some path => if path.isEmpty then settings.referencePath else some path
  | none => settings.referencePath

/-- Loads the reference; one that is not readable is reported behind a mark and refused, any other
failure is a fault. -/
def loadReference (settings : Settings) (given : Option String) (mark : String) :
    Step Reference := do
  match referencePath? settings given with
  | none | some "" => throw .unusable
  | some path =>
    match Reference.load (← get).tree path with
    | .ok reference => return reference
    | .error (.unreadable path cause) =>
      print (mark ++ (Reference.Fault.unreadable path cause).message)
      throw .refused
    | .error fault => throw (.fault (.reference fault))

/-! ## Commands -/

def listCodes (input : String) (showDropped : Bool) : Step Unit := do
  let text ← readText input
  let (collection, log) ← orFault .collection (Collection.ofTextNoting text)
  print collection.listing
  if showDropped then
    print s!"Dropped fragments: {log.length}"
    log.forM fun note => print ("  - " ++ note.reason.text ++ ": " ++ note.fragment)

def checkCodes (environment : Environment) (input : String) (reference settings : Option String) :
    Step Unit := do
  let settings ← loadSettings environment settings
  let reference ← loadReference settings reference "✗ "
  let report := Validation.runText reference (← readText input)
  print report.text
  if !report.passed then throw .refused

/-- Stores the workbook of a session at a path; without a path nothing is stored. -/
def commit (output : String) : Session.Action Files.Tree Unit := fun s =>
  if output.isEmpty then .ok () s
  else match (s.workbook.store (.ofText output)).run s.store with
    | .ok _ store => .ok () { s with store }
    | .error fault store => .error fault { s with store }

/-- Carries out codes on a workbook, and stores it at the end once more. -/
def execute (layout : Layout) (codes : List Code) (workbook : Workbook) (output : String) :
    Step RunResult := fun desk =>
  let (result, session) :=
    Run.execute (Session.document (commit output)) layout codes ⟨workbook, desk.tree⟩
  match (commit output).run session with
  | .ok _ session => .ok result { desk with tree := session.store }
  | .error fault session => .error (.fault (.document fault)) { desk with tree := session.store }

/-- Checks the codes of a text before a run. -/
def gate (reference : Reference) (text : List Char) (force : Bool) : Step Unit := do
  let report := Validation.runText reference text
  if !report.passed then
    print report.text
    if !force then
      print "  ✗ Validation failed; nothing written (use --force to run anyway)"
      throw .refused

/-- Checks the codes of a text and carries them out. -/
def runCodes (environment : Environment) (input workbook output : String)
    (reference settings : Option String) (force : Bool) : Step Unit := do
  let settings ← loadSettings environment settings
  let text ← readText input
  print s!"[1/3] Validating: {input}"
  let reference ← loadReference settings reference "  ✗ "
  gate reference text force
  print "[2/3] Building code collection..."
  let collection ← orFault .collection (Collection.ofText text)
  print s!"  → {collection.size} codes"
  print s!"[3/3] Running codes against {workbook}"
  let opened ← orFault .opening (Workbook.openStored (← get).tree workbook)
  let result ← execute settings.layout collection.values opened output
  print result.text
  print s!"\n✓ Output saved to {output}"
  if !result.succeeded then throw .refused

def onFiles (action : Workbook.Storing Unit) : Step Unit := fun desk =>
  match action.run desk.tree with
  | .ok _ tree => .ok () { desk with tree }
  | .error fault tree => .error (.fault (.document fault)) { desk with tree }

def storeTemplate (environment : Environment) (output : String) (settings : Option String) :
    Step Unit := do
  let settings ← loadSettings environment settings
  let path := Files.Path.ofText output
  onFiles (Workbook.changeFiles fun t => t.makeDirectories path.parent)
  let workbook ← orFault .template (Template.build settings.layout Template.defaultBlocks)
  onFiles (workbook.storeAt path)
  print ("✓ Master template written to " ++ path.text)

def steps (environment : Environment) : Command → Step Unit
  | .parse input showDropped => listCodes input showDropped
  | .validate input reference settings => checkCodes environment input reference settings
  | .run input workbook output reference settings force =>
    runCodes environment input workbook output reference settings force
  | .template output settings => storeTemplate environment output settings

/-! ## Outcomes -/

/-- How a command ended. -/
structure Outcome where
  printed : String
  tree : Files.Tree
  stop : Option Stop

/-- The exit code of an ending: an unusable command line has one of its own. -/
def Outcome.exitCode (o : Outcome) : Nat :=
  match o.stop with
  | none => 0
  | some .unusable => 2
  | some _ => 1

/-- What there is to say about an ending besides what was printed. -/
def Stop.complaint? : Stop → Option String
  | unusable => some usage
  | refused => none
  | fault cause => some cause.message

def perform (environment : Environment) (tree : Files.Tree) (line : List String) : Outcome :=
  match ofLine? line with
  | none => ⟨"", tree, some .unusable⟩
  | some command =>
    match (command.steps environment).run { tree } with
    | .ok _ desk => ⟨desk.printed, desk.tree, none⟩
    | .error stop desk => ⟨desk.printed, desk.tree, some stop⟩

end Sheetwright.Command
