import Sheetwright.Diagnostic
import Sheetwright.Reference
import Sheetwright.Validation.Input
import Sheetwright.Validation.Value
/-!
# Validation

Record texts are checked against a reference list. All checks run on all records: brackets, suffix
pairs over the whole run, then for each record its type, its tab label and its rows, and at last the
drivers against the row identifiers of the whole run.
-/

namespace Sheetwright.Validation

/-! ## Candidates -/

def breakRecord : List Char := "<BR>".toList

def tabType : String := "TAB"

/-- The text begins and ends with the brackets of a record. -/
def isBracketed (record : List Char) : Bool :=
  record.head? == some '<' && record.getLast? == some '>'

/-- The trimmed records that the later checks look at. -/
def candidates (records : List (List Char)) : List (List Char) :=
  (records.map Text.trim).filter fun record => isBracketed record && record != breakRecord

def bracketFindings (records : List (List Char)) : List Diagnostic :=
  (records.filter fun record => !isBracketed (Text.trim record)).map fun record =>
    let text := String.ofList record
    ⟨.malformedRecord, s!"Invalid code string format: {text}", some text⟩

def codeType (record : List Char) : String := String.ofList (baseType record)

/-! ## Suffix pairs -/

/-- Code types with one of the first suffixes need a code type with one of the second. -/
structure Pairing where
  requesters : List String
  companions : List String

def pairings : List Pairing :=
  [⟨["-VV", "-VR"], ["-EV", "-RV"]⟩, ⟨["-RR", "-RV"], ["-ER", "-VR"]⟩]

/-- The distinct types with a suffix, in order of first appearance. -/
def withSuffix (types : List String) (suffix : String) : List String :=
  (types.filter fun type => suffix.toList.isSuffixOf type.toList).eraseDups

def pairingFindings (types : List String) (rule : Pairing) : List Diagnostic :=
  if rule.companions.any fun suffix => !(withSuffix types suffix).isEmpty then []
  else
    let wanted := " or ".intercalate rule.companions
    let version := "/".intercalate rule.companions
    (rule.requesters.flatMap (withSuffix types)).map fun type =>
      ⟨.missingPairedSuffix,
        s!"Code {type} requires another code with suffix {wanted}. " ++
          s!"Add a code with a matching suffix or switch to the {version} version of this code.",
        some type⟩

/-! ## Single records -/

/-- The most characters a tab label may have. -/
def labelLimit : Nat := 30

/-- A character that a tab label must not hold. -/
def isIllegalInLabel (c : Char) : Bool := c == '&' || c == ',' || c == '"' || c == ':' || c == ';'

def finding (kind : DiagnosticKind) (message : String) (record : List Char) : Diagnostic :=
  ⟨kind, message, some (String.ofList record)⟩

def typeFindings (reference : Reference) (record : List Char) : List Diagnostic :=
  let type := codeType record
  if reference.contains type then []
  else [finding .unknownCodeType
    s!"Invalid code type: \"{type}\" not found in valid codes list" record]

/-- The label by which a tab is checked; other records have none. -/
def labelOf? (record : List Char) : Option (List Char) :=
  if codeType record = tabType then tabLabel? record else none

/-- Findings on the label of a tab, given the labels of the tabs before it. -/
def labelFindings (seen : List (List Char)) (record : List Char) : List Diagnostic :=
  if codeType record = tabType then
    match tabLabel? record with
    | none => [finding .missingTabLabel "TAB code missing label parameter" record]
    | some label =>
      let text := String.ofList label
      (if labelLimit < label.length then
        [finding .labelTooLong s!"Tab label too long (max {labelLimit} chars): \"{text}\"" record]
      else []) ++
      (if label.any isIllegalInLabel then
        [finding .illegalLabelChars
          s!"Tab label contains illegal characters (&,\":;): \"{text}\"" record]
      else []) ++
      (if seen.contains label then
        [finding .duplicateLabel s!"Duplicate tab label: \"{text}\"" record]
      else [])
  else []

/-- Findings on rows that have no field after the first. -/
def rowFindings (record : List Char) : List Diagnostic :=
  ((rowValues record).filter fun value => !value.contains '|').map fun value =>
    finding .formatError
      s!"Invalid row format (missing required fields): \"{String.ofList value}\"" record

/-- Findings on each record in turn, given the tab labels seen before. -/
def recordFindings (reference : Reference) (seen : List (List Char)) :
    List (List Char) → List Diagnostic
  | [] => []
  | record :: rest =>
    typeFindings reference record ++ labelFindings seen record ++ rowFindings record ++
      recordFindings reference (seen ++ (labelOf? record).toList) rest

/-! ## Drivers -/

/-- The identifiers of all rows: the first field of each, trimmed, where it is not empty. -/
def rowIdentifiers (records : List (List Char)) : List (List Char) :=
  ((records.flatMap rowValues).map fun value => Text.trim ((value.splitOn '|').headD [])).filter
    fun identifier => !identifier.isEmpty

/-- Findings on drivers of a record that name no row. -/
def driverFindings (identifiers : List (List Char)) (record : List Char) : List Diagnostic :=
  ((driverValues record).map Text.trim).filterMap fun driver =>
    if identifiers.contains driver then none
    else some (finding .danglingDriverReference
      s!"Driver value \"{String.ofList driver}\" not found in any row" record)

/-! ## Whole runs -/

def findings (reference : Reference) (records : List (List Char)) : List Diagnostic :=
  let checked := candidates records
  bracketFindings records ++ pairings.flatMap (pairingFindings (checked.map codeType)) ++
    recordFindings reference [] checked ++
    checked.flatMap (driverFindings (rowIdentifiers checked))

def run (reference : Reference) (records : List (List Char)) : Report :=
  ⟨findings reference records, records.length⟩

/-- The report on record texts found in pasted input; finding none is itself a finding. -/
def runFound (reference : Reference) (records : List (List Char)) : Report :=
  if records.isEmpty then ⟨[⟨.noRecords, "No code strings found to validate", none⟩], 0⟩
  else run reference records

def runText (reference : Reference) (text : List Char) : Report :=
  runFound reference (recordsOfText text)

end Sheetwright.Validation
