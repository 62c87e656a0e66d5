import Sheetwright.Command
import Sheetwright.Files.Disk
/-!
# The program

Carries out the command of the command line on the files of the disk. What the command names is read
beforehand, and what the command changed is written afterwards; all decisions are taken in between,
without the disk.
-/

namespace Sheetwright.Program

open Files

/-! ## Reading -/

def look (p : Path) : IO (Option Node) := do
  let file := (← IO.currentDir) / p.text
  if ← file.isDir then return some .directory
  else if ← file.pathExists then return some (.ofContent (← IO.FS.readBinFile file).toList)
  else return none

/-- Adds to what is known what is at a path, provided that the way there is known. -/
def learn (t : Tree) (p : Path) : IO Tree := do
  match t.locate p with
  | .error _ => return t
  | .ok place =>
    if (t.node? place).isSome then return t
    else match ← look p with
      | some node => return t.put place node
      | none => return t

/-- Adds to what is known the file of a name and the directories on the way to it. -/
def learnFile (t : Tree) (name : String) : IO Tree := (Path.ofText name).steps.foldlM learn t

/-- Learns all that a command may read: the files it names, and the reference that its settings
name. -/
def learnFor (environment : Environment) (command : Command) : IO Tree := do
  let t ← command.files.foldlM learnFile []
  match Settings.load t environment command.settings? with
  | .ok settings => settings.referencePath.toList.foldlM learnFile t
  | .error _ => return t

def readEnvironment : IO Environment := do
  let referencePath ← IO.getEnv "PROJECTIFY_REFERENCE_PATH"
  let templateSheet ← IO.getEnv "PROJECTIFY_TEMPLATE_SHEET"
  return { referencePath, templateSheet }

/-! ## Writing -/

/-- Writes a file, or makes a directory where there is nothing to write. -/
def store (p : Path) (content : Option (List UInt8)) : IO Unit :=
  match content with
  | some content => IO.FS.writeBinFile p.text content.toByteArray
  | none => IO.FS.createDirAll p.text

def storeChanges (before after : Tree) : IO Unit :=
  (before.changes after).forM fun (p, content) => store p content

end Sheetwright.Program

open Sheetwright in
/-- Carries out the command of the command line and answers with its exit code. -/
def main (line : List String) : IO UInt32 := do
  let environment ← Program.readEnvironment
  let before ← match Command.ofLine? line with
    | some command => Program.learnFor environment command
    | none => pure []
  let outcome := Command.perform environment before line
  IO.print outcome.printed
  Program.storeChanges before outcome.tree
  if let some complaint := outcome.stop.bind (·.complaint?) then IO.eprintln complaint
  return outcome.exitCode.toUInt32
