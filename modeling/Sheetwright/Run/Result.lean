/-!
# Run results

What a run reports: how many blocks were placed, which tabs were made, and which codes failed.
-/

namespace Sheetwright

/-- The failure of one code. -/
structure RunError where
  index : Nat
  codeType : String
  error : String
  kind : String
  deriving Repr, DecidableEq

/-- The outcome of a run. -/
structure RunResult where
  processedCount : Int := 0
  createdTargets : List String := []
  errors : List RunError := []
  deriving Repr, DecidableEq

namespace RunResult

def succeeded (r : RunResult) : Bool := r.errors.isEmpty

def errorLine (e : RunError) : String :=
  let type := if e.codeType.isEmpty then "Unknown" else e.codeType
  s!"  - #{e.index} {type}: {e.error}"

def text (r : RunResult) : String :=
  let targets := ", ".intercalate r.createdTargets
  "\n".intercalate
    ([s!"Processed {r.processedCount} codes", s!"Created tabs: {targets}"] ++
      if r.errors.isEmpty then ["No errors encountered"] else "Errors:" :: r.errors.map errorLine)

end RunResult

end Sheetwright
