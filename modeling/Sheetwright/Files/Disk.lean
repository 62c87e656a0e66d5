import Sheetwright.Files.Text
import Sheetwright.Workbook.Package
/-!
# Files on disk

How what is known of the files corresponds to the bytes on a disk. A file that is the package of a
workbook counts as that workbook. Comparing what was known before and after a command tells what has
to be written.
-/

namespace Sheetwright.Files

def Node.ofContent (content : List UInt8) : Node :=
  match Package.decode content with
  | some b => .workbook b
  | none => .bytes content

/-- The bytes of the file that a node stands for; a directory has none. -/
def Node.stored? : Node → Option (List UInt8)
  | .directory => none
  | .workbook b => some (Package.encode b)
  | node => some node.content

/-- What differs in a tree from an earlier one, directories before what is in them. -/
def Tree.changes (before after : Tree) : List (Path × Option (List UInt8)) :=
  after.filterMap fun (place, node) =>
    let stored := node.stored?
    if (before.get? place).map Node.stored? = some stored then none else some (pathTo place, stored)

end Sheetwright.Files
