import Sheetwright.Entries
/-!
# Paths

A path is a list of names that leads to a file or directory, from the working directory or, when it
is absolute, from the root. Empty names and single dots lead nowhere and are left out; two dots lead
one step back.
-/

namespace Sheetwright.Files

/-- The names on the way to a file or directory. -/
structure Path where
  parts : List String
  isAbsolute : Bool := false
  deriving Repr, DecidableEq

namespace Path

def ofText (text : String) : Path :=
  let parts := (text.toList.splitOn '/').map String.ofList
  ⟨parts.filter fun part => part ≠ "" && part ≠ ".", text.startsWith "/"⟩

/-- The path as text; the working directory is a dot. -/
def text (p : Path) : String :=
  if p.isAbsolute then "/" ++ "/".intercalate p.parts
  else if p.parts.isEmpty then "."
  else "/".intercalate p.parts

/-- The path without its last name. -/
def parent (p : Path) : Path := { p with parts := p.parts.dropLast }

def take (p : Path) (count : Nat) : Path := { p with parts := p.parts.take count }

/-- A path with a null character in one of its names, which no system takes. -/
def holdsNull (p : Path) : Bool := p.parts.any fun part => part.toList.contains '\x00'

/-- The paths to everything on the way, and the path itself. -/
def steps (p : Path) : List Path := (List.range' 1 p.parts.length).map p.take

/-- The part of a name from its last dot on; a dot at the start or at the end of the name does not
count. -/
def extension (name : List Char) : List Char :=
  let tail := name.reverse.takeWhile (· ≠ '.')
  if tail.isEmpty || name.length ≤ tail.length + 1 then [] else '.' :: tail.reverse

/-- The extension of the last name. -/
def suffix (p : Path) : String :=
  String.ofList (extension ((p.parts.getLast?.getD "").toList))

end Path

end Sheetwright.Files
