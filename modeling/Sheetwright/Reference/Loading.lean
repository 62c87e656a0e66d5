import Sheetwright.Files.Text
import Sheetwright.Reference
/-!
# Reference files

Loading the reference from a file. That a file cannot be opened is reported with the path; a path
that no system takes and a file that is no UTF-8 text are faults of their own.
-/

namespace Sheetwright.Reference

/-- Why no reference is loaded. -/
inductive Fault where
  | unreadable (path : String) (cause : Files.Fault)
  | nullPath
  | bytes (cause : Text.Utf8Fault)
  deriving Repr, DecidableEq

def Fault.message : Fault → String
  | unreadable path cause => s!"Error reading code types file {path}: " ++ cause.message
  | nullPath => Files.TextFault.nullPath.message
  | bytes cause => cause.message

def load (t : Files.Tree) (path : String) : Except Fault Reference :=
  let p := Files.Path.ofText path
  match t.readText p with
  | .ok text => .ok (ofText text)
  | .error (.files cause) => .error (.unreadable p.text cause)
  | .error .nullPath => .error .nullPath
  | .error (.bytes cause) => .error (.bytes cause)

end Sheetwright.Reference
