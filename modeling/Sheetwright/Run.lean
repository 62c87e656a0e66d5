import Sheetwright.Code
import Sheetwright.Document
import Sheetwright.Layout
import Sheetwright.Run.Result
/-!
# Runs

A run takes codes in order and carries them out on a document. A `TAB` code makes a new target sheet
from the template; any other code places its block of template rows below what the target holds; a
`MODEL` code does nothing. Every code stands for itself: one that fails is noted and the run goes
on.
-/

namespace Sheetwright.Run

/-! ## Failures -/

/-- Why a code fails. -/
inductive Failure where
  /-- A block comes before any target was made. -/
  | noTarget (codeType : String)
  /-- A tab has the title of the template. -/
  | overwritesTemplate (name : String)
  /-- The template is not there. -/
  | noTemplate (title : String)
  /-- The target is no longer there. -/
  | noDestination (title : String)
  /-- The template has no rows for the block. -/
  | noBlock (codeType template : String)
  /-- An operation of the document stops. -/
  | document (cause : Document.Fault)

def Failure.message : Failure → String
  | noTarget codeType => s!"Code {codeType} has no destination tab; add a TAB code before it"
  | overwritesTemplate name => s!"Tab name '{name}' would overwrite the template worksheet"
  | noTemplate title => "Template worksheet '" ++ title ++ "' not found"
  | noDestination title => "Destination worksheet '" ++ title ++ "' not found"
  | noBlock codeType template => s!"Code type {codeType} not found in {template} worksheet"
  | document cause => cause.message

def Failure.kind : Failure → String
  | noTarget _ => "MissingTargetContext"
  | _ => "DocumentOperationError"

def Failure.isRefusal : Failure → Bool
  | document cause => cause.isRefusal
  | _ => false

/-! ## Carrying out one code -/

def tabType : String := "TAB"

/-- The type of codes that are passed over. -/
def modelType : String := "MODEL"

/-- What a code did. -/
inductive Outcome where
  | nothing
  | tab (name : String)
  | block
  deriving Repr, DecidableEq

/-- The title of the tab that a code makes: its first label, or its index when it has none. -/
def tabName (layout : Layout) (index : Nat) (c : Code) : String :=
  let label := Text.trimmed ((c.labels.get? 1).getD "")
  if label.isEmpty then layout.tabPrefix ++ toString index else label

section

variable {σ κ : Type} (doc : Document σ κ) (layout : Layout)

/-- Runs an operation of the document as part of a code. -/
def ask {α : Type} (operation : EStateM Document.Fault σ α) : EStateM Failure σ α :=
  operation.adaptExcept .document

/-- Gives a fresh copy of the template its title; if that is refused the copy is removed again. -/
def titleCopy (copy : κ) (name : String) : EStateM Failure σ Unit := do
  try ask (doc.rename copy name)
  catch failure =>
    if failure.isRefusal then
      let title ← ask (doc.title copy)
      ask (doc.delete title)
    throw failure

/-- Makes a tab: a copy of the template without its blocks, in place of any sheet of that title. -/
def makeTab (name : String) : EStateM Failure σ Unit := do
  if name = layout.templateSheet then throw (.overwritesTemplate name)
  if (← ask (doc.find? name)).isSome then ask (doc.delete name)
  let copy ← ask (doc.duplicate layout.templateSheet)
  titleCopy doc copy name
  let bottom ← ask (doc.lastRow copy)
  if layout.dataStartRow ≤ bottom then ask (doc.clearRows copy layout.dataStartRow bottom)

def require (title : String) (failure : Failure) : EStateM Failure σ κ := do
  match ← ask (doc.find? title) with
  | some sheet => return sheet
  | none => throw failure

/-- Places the block of a code below what the target holds, then its driver and its assumptions. -/
def placeBlock (target : String) (c : Code) : EStateM Failure σ Unit := do
  let template ← require doc layout.templateSheet (.noTemplate layout.templateSheet)
  let sheet ← require doc target (.noDestination target)
  match ← ask (doc.findTagged template layout.tagColumn c.baseType) with
  | none => throw (.noBlock c.baseType layout.templateSheet)
  | some rows =>
    let start := (← ask (doc.lastUsedRow sheet)) + 1
    ask (doc.copyBlock template rows sheet start layout.lastColumn)
    if !c.driver.isEmpty then
      ask (doc.write sheet start layout.driverColumn (.text c.driver))
    let assumptions := c.assumptionValues
    if !assumptions.isEmpty then
      ask (doc.writeColumn sheet start layout.assumptionsColumn (assumptions.map .text))

/-- Carries out a code while blocks go to a target, if there is one yet. -/
def carryOut (target : Option String) (index : Nat) (c : Code) : EStateM Failure σ Outcome := do
  if c.baseType = modelType then return .nothing
  else if c.baseType = tabType then
    let name := tabName layout index c
    makeTab doc layout name
    ask doc.commit
    return .tab name
  else match target with
    | none => throw (.noTarget c.baseType)
    | some target =>
      placeBlock doc layout target c
      ask doc.commit
      return .block

/-! ## Carrying out all codes -/

/-- How far a run has come. -/
structure Progress where
  target : Option String := none
  result : RunResult := {}
  deriving Repr, DecidableEq

/-- The progress after a code that did not fail. -/
def Progress.advance (p : Progress) : Outcome → Progress
  | .nothing => p
  | .tab name =>
    { target := some name
      result := { p.result with createdTargets := p.result.createdTargets ++ [name] } }
  | .block => { p with result := { p.result with processedCount := p.result.processedCount + 1 } }

def Progress.fail (p : Progress) (index : Nat) (c : Code) (failure : Failure) : Progress :=
  let error : RunError := ⟨index, c.baseType, failure.message, failure.kind⟩
  { p with result := { p.result with errors := p.result.errors ++ [error] } }

/-- Carries out one code and notes what came of it. -/
def step (p : Progress) (index : Nat) (c : Code) (state : σ) : Progress × σ :=
  match (carryOut doc layout p.target index c).run state with
  | .ok outcome state => (p.advance outcome, state)
  | .error failure state => (p.fail index c failure, state)

def stepAll (p : Progress) (index : Nat) : List Code → σ → Progress × σ
  | [], state => (p, state)
  | c :: rest, state =>
    let (p, state) := step doc layout p index c state
    stepAll p (index + 1) rest state

def execute (codes : List Code) (state : σ) : RunResult × σ :=
  let (p, state) := stepAll doc layout {} 0 codes state
  (p.result, state)

end

end Sheetwright.Run
