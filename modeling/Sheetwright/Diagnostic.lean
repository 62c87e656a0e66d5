/-!
# Diagnostics

What a validation finds: diagnostics of ten kinds, gathered in a report. A report passes when it
holds no diagnostic.
-/

namespace Sheetwright

/-- The kind of a diagnostic. -/
inductive DiagnosticKind where
  | malformedRecord
  | formatError
  | unknownCodeType
  | missingTabLabel
  | duplicateLabel
  | labelTooLong
  | illegalLabelChars
  | missingPairedSuffix
  | danglingDriverReference
  | noRecords
  deriving Repr, DecidableEq

namespace DiagnosticKind

def all : List DiagnosticKind :=
  [malformedRecord, formatError, unknownCodeType, missingTabLabel, duplicateLabel, labelTooLong,
   illegalLabelChars, missingPairedSuffix, danglingDriverReference, noRecords]

def name : DiagnosticKind → String
  | malformedRecord => "MalformedRecord"
  | formatError => "FormatError"
  | unknownCodeType => "UnknownCodeType"
  | missingTabLabel => "MissingTabLabel"
  | duplicateLabel => "DuplicateLabel"
  | labelTooLong => "LabelTooLong"
  | illegalLabelChars => "IllegalLabelChars"
  | missingPairedSuffix => "MissingPairedSuffix"
  | danglingDriverReference => "DanglingDriverReference"
  | noRecords => "NoRecords"

def ofName? (text : String) : Option DiagnosticKind := all.find? (·.name == text)

end DiagnosticKind

/-- One finding, with the record or code type it concerns. -/
structure Diagnostic where
  kind : DiagnosticKind
  message : String
  record? : Option String := none
  deriving Repr, DecidableEq

/-- All findings of one validation and the number of records it saw. -/
structure Report where
  diagnostics : List Diagnostic := []
  recordCount : Int := 0
  deriving Repr, DecidableEq

namespace Report

def passed (r : Report) : Bool := r.diagnostics.isEmpty

def messages (r : Report) : List String := r.diagnostics.map (·.message)

def add (r : Report) (d : Diagnostic) : Report := { r with diagnostics := r.diagnostics ++ [d] }

def ofKind (r : Report) (kind : DiagnosticKind) : List Diagnostic :=
  r.diagnostics.filter (·.kind == kind)

def text (r : Report) : String :=
  let status := if r.passed then "PASSED" else "FAILED"
  "\n".intercalate
    ([s!"=== Code Validation: {status} ===", s!"  Records     : {r.recordCount}",
      s!"  Diagnostics : {r.diagnostics.length}"] ++
      r.diagnostics.map fun d => s!"    - [{d.kind.name}] {d.message}")

end Report

end Sheetwright
