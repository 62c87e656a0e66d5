import Sheetwright.Files.Fault
import Sheetwright.Grid.Fault
import Sheetwright.Workbook.Title
/-!
# Faults of documents

Why an operation on a document stops. Some are refusals by the document itself, the others come from
its sheets or from where it is stored.
-/

namespace Sheetwright.Document

/-- Why a document refuses a title. -/
inductive Refusal where
  /-- No sheet can have the title. -/
  | unfit (cause : Title.Fault)
  /-- A reason of the document's own. -/
  | own (reason : String)

/-- Why an operation on a document stops. -/
inductive Fault where
  /-- No sheet has the title. -/
  | noSheet (title : String)
  /-- Another sheet has the title. -/
  | titleTaken (title : String)
  /-- A sheet cannot be given the title. -/
  | titleRefused (title : String) (refusal : Refusal)
  /-- A new sheet cannot have the title. -/
  | creationRefused (cause : Title.Fault)
  /-- An operation on a sheet stops. -/
  | sheet (cause : Grid.Fault)
  /-- A document without sheets cannot be stored. -/
  | nothingToStore
  /-- The document cannot be stored. -/
  | files (cause : Files.Fault)
  /-- Any other reason. -/
  | other (reason : String)
  deriving Inhabited

def Fault.message : Fault → String
  | noSheet title => "Worksheet '" ++ title ++ "' not found"
  | titleTaken title => "Worksheet '" ++ title ++ "' already exists"
  | titleRefused title (.unfit cause) =>
    "Cannot rename worksheet to '" ++ title ++ "': " ++ cause.message
  | titleRefused _ (.own reason) => reason
  | creationRefused cause => cause.message
  | sheet cause => cause.message
  | nothingToStore => "At least one sheet must be visible"
  | files cause => cause.message
  | other reason => reason

def Fault.isRefusal : Fault → Bool
  | noSheet _ | titleTaken _ | titleRefused _ _ => true
  | _ => false

end Sheetwright.Document
