import Sheetwright.Files.Tree
import Sheetwright.Workbook.Stored
/-!
# Workbook files

Storing a workbook as a file and opening it again. The directories on the way to a stored workbook
are made; a workbook that cannot be stored leaves a wreck in its place.
-/

namespace Sheetwright.Workbook

/-! ## Storing -/

/-- An operation on files that stops with a fault of documents. -/
abbrev Storing := EStateM Document.Fault Files.Tree

def changeFiles (change : Files.Tree → Except Files.Fault Files.Tree) : Storing Unit := fun t =>
  match change t with
  | .ok t => .ok () t
  | .error fault => .error (.files fault) t

def storeAt (p : Files.Path) (b : Workbook) : Storing Unit := do
  match b.storingFault? with
  | none => changeFiles fun t => t.write p (.workbook b.stored)
  | some fault =>
    changeFiles fun t => t.write p .wreck
    throw fault

def store (p : Files.Path) (b : Workbook) : Storing Unit := do
  changeFiles fun t => t.makeDirectories p.parent
  storeAt p b

/-! ## Opening -/

/-- Why a file is not opened as a workbook. -/
inductive OpeningFault where
  | oldFormat
  | binaryFormat
  | unknownFormat (extension : String)
  | files (cause : Files.Fault)
  | notArchive

def extensions : List String := [".xlsx", ".xlsm", ".xltx", ".xltm"]

def OpeningFault.message : OpeningFault → String
  | oldFormat => "openpyxl does not support the old .xls file format, " ++
      "please use xlrd to read this file, or convert it to the more recent .xlsx file format."
  | binaryFormat => "openpyxl does not support binary format .xlsb, " ++
      "please convert this file to .xlsx format if you want to open it with openpyxl"
  | unknownFormat extension => s!"openpyxl does not support {extension} file format, " ++
      "please check you can open it with Excel first. " ++
      "Supported formats are: " ++ ",".intercalate extensions
  | files cause => cause.message
  | notArchive => "File is not a zip file"

/-- The extension of a file name, dots at its start not counted. -/
def extensionOf (name : String) : String :=
  let last := (name.toList.reverse.takeWhile (· ≠ '/')).reverse
  let body := last.dropWhile (· = '.')
  let tail := body.reverse.takeWhile (· ≠ '.')
  if tail.length = body.length then "" else String.ofList (Text.lower ('.' :: tail.reverse))

/-- Why no workbook is expected behind a file name, if so. -/
def formatFault? (name : String) : Option OpeningFault :=
  let extension := extensionOf name
  if extensions.contains extension then none
  else if extension = ".xls" then some .oldFormat
  else if extension = ".xlsb" then some .binaryFormat
  else some (.unknownFormat extension)

def openStored (t : Files.Tree) (name : String) : Except OpeningFault Workbook :=
  match formatFault? name with
  | some fault => .error fault
  | none =>
    match t.open? (.ofText name) with
    | .error fault => .error (.files (fault.renamed name))
    | .ok (.workbook b) => .ok b
    | .ok _ => .error .notArchive

end Sheetwright.Workbook
