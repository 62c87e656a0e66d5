import Sheetwright.Text.Quoted
/-!
# Faults of files

Why a file or directory cannot be used, with the number that systems give to each cause.
-/

namespace Sheetwright.Files

/-- Why a path cannot be used. -/
inductive Fault where
  | missing (path : String)
  | exists (path : String)
  | notDirectory (path : String)
  | isDirectory (path : String)
  deriving Repr, DecidableEq

def Fault.number : Fault → Nat
  | .missing _ => 2
  | .exists _ => 17
  | .notDirectory _ => 20
  | .isDirectory _ => 21

def Fault.words : Fault → String
  | .missing _ => "No such file or directory"
  | .exists _ => "File exists"
  | .notDirectory _ => "Not a directory"
  | .isDirectory _ => "Is a directory"

def Fault.path : Fault → String
  | .missing path | .exists path | .notDirectory path | .isDirectory path => path

def Fault.renamed (path : String) : Fault → Fault
  | .missing _ => .missing path
  | .exists _ => .exists path
  | .notDirectory _ => .notDirectory path
  | .isDirectory _ => .isDirectory path

def Fault.message (f : Fault) : String :=
  s!"[Errno {f.number}] " ++ f.words ++ ": " ++ Text.quoted f.path

end Sheetwright.Files
