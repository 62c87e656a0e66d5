import Sheetwright.Files.Fault
import Sheetwright.Files.Path
import Sheetwright.Workbook
/-!
# File trees

The files that are known, below the working directory and elsewhere. A file holds bytes or a stored
workbook; a workbook whose storing was broken off leaves a wreck. A path is followed name by name,
and every name but the last has to be a directory.
-/

namespace Sheetwright.Files

/-- What a name stands for. -/
inductive Node where
  | directory
  | bytes (content : List UInt8)
  | workbook (content : Workbook)
  | wreck

/-- Files and directories by place: the names that lead there from the working directory, or from
the root when the first name is a slash. -/
abbrev Tree := Entries (List String) Node

namespace Tree

/-! ## Places -/

def root : List String := ["/"]

/-- The place that leads back from the working directory or is the working directory itself. -/
def isAbove (place : List String) : Bool := place.all (· = "..")

def stepBack (place : List String) : List String :=
  if place = root then root else if isAbove place then place ++ [".."] else place.dropLast

def start (p : Path) : List String := if p.isAbsolute then root else []

def pathTo : List String → Path
  | "/" :: parts => ⟨parts, true⟩
  | parts => ⟨parts, false⟩

/-! ## Following paths -/

/-- What stands in a place; the root, the working directory and what lies above it are always
there. -/
def node? (t : Tree) (place : List String) : Option Node :=
  if place = root || isAbove place then some .directory else t.get? place

/-- Follows names from a place; the last one need not be there. -/
def follow (t : Tree) (place : List String) : List String → Except (String → Fault) (List String)
  | [] => .ok place
  | name :: rest =>
    match t.node? place with
    | some .directory => t.follow (if name = ".." then stepBack place else place ++ [name]) rest
    | some _ => .error .notDirectory
    | none => .error .missing

def locate (t : Tree) (p : Path) : Except Fault (List String) :=
  (t.follow (start p) p.parts).mapError (· p.text)

def open? (t : Tree) (p : Path) : Except Fault Node := do
  let place ← t.locate p
  match t.node? place with
  | some .directory => throw (.isDirectory p.text)
  | some node => return node
  | none => throw (.missing p.text)

/-! ## Changing -/

def write (t : Tree) (p : Path) (node : Node) : Except Fault Tree := do
  let place ← t.locate p
  match t.node? place with
  | some .directory => throw (.isDirectory p.text)
  | _ => return t.put place node

def makeDirectory (t : Tree) (p : Path) : Except Fault Tree := do
  let place ← t.locate p
  match t.node? place with
  | some _ => throw (.exists p.text)
  | none => return t.put place .directory

def isDirectory (t : Tree) (p : Path) : Bool :=
  match t.locate p with
  | .ok place => match t.node? place with
    | some .directory => true
    | _ => false
  | .error _ => false

/-- Makes a directory unless it is there. -/
def ensureDirectory (t : Tree) (p : Path) : Except Fault Tree :=
  match t.makeDirectory p with
  | .ok t => .ok t
  | .error fault => if t.isDirectory p then .ok t else .error fault

/-- Makes the first of some directories, each inside the next one, unless it is there; if the one it
is in is missing, that one is made before. -/
def makeNested (t : Tree) : List Path → Except Fault Tree
  | [] => .ok t
  | p :: rest =>
    match t.makeDirectory p with
    | .error (.missing _) => do ensureDirectory (← t.makeNested rest) p
    | _ => t.ensureDirectory p

/-- Makes the directory at a path, unless it is there, and those on the way to it. -/
def makeDirectories (t : Tree) (p : Path) : Except Fault Tree := t.makeNested p.steps.reverse

/-- Puts a file in its place together with the directories on the way to it. -/
def plant (t : Tree) (p : Path) (node : Node) : Tree :=
  let place (p : Path) : List String := start p ++ p.parts
  let t := p.parent.steps.foldl (fun t p => t.put (place p) .directory) t
  t.put (place p) node

end Tree

end Sheetwright.Files
