import Sheetwright.Files.Tree
import Sheetwright.Text.Line
import Sheetwright.Text.Utf8
/-!
# Text files

Reading a file as text: its bytes are UTF-8, and every end of a line is read as a line feed. A path
with a null character is refused before any file is looked for.
-/

namespace Sheetwright.Files

/-- Why a file is not read as text. -/
inductive TextFault where
  | nullPath
  | files (cause : Fault)
  | bytes (cause : Text.Utf8Fault)
  deriving Repr, DecidableEq

def TextFault.message : TextFault → String
  | nullPath => "embedded null byte"
  | files cause => cause.message
  | bytes cause => cause.message

/-- The bytes that a stored workbook begins with, as far as they are text at all. -/
def archiveStart : List UInt8 := [0x50, 0x4B, 0x03, 0x04, 0x14, 0x00, 0x00, 0x00, 0x08, 0x00, 0xFF]

def Node.content : Node → List UInt8
  | .bytes content => content
  | _ => archiveStart

def Tree.readText (t : Tree) (p : Path) : Except TextFault (List Char) :=
  if p.holdsNull then .error .nullPath
  else
    match t.open? p with
    | .error fault => .error (.files fault)
    | .ok node =>
      match Text.decodeUtf8 node.content with
      | .error fault => .error (.bytes fault)
      | .ok text => .ok (Text.unifyNewlines text)

end Sheetwright.Files
