import Sheetwright.Archive.Checksum
import Sheetwright.Archive.Inflate
import Sheetwright.Text.Utf8
/-!
# Archives

An archive holds named entries. Writing puts every entry down as it is behind a header of its own,
and a directory of all entries at the end. Reading starts from that directory and unpacks packed
entries.
-/

namespace Sheetwright.Archive

/-- A named run of bytes. -/
structure Entry where
  name : String
  content : List UInt8

/-! ## Writing -/

/-- A number in a fixed count of bytes, the lowest first. -/
def littleEndian : (count : Nat) → Nat → List UInt8
  | 0, _ => []
  | count + 1, n => (n % 256).toUInt8 :: littleEndian count (n / 256)

/-- What the header of an entry and its line in the directory have in common: version, flags,
method, time, checksum, sizes, and the lengths of the name and of an empty extra field. -/
def describe (e : Entry) : List UInt8 :=
  let size := e.content.length
  littleEndian 2 20 ++ littleEndian 2 0x800 ++ littleEndian 2 0 ++ littleEndian 2 0 ++
    littleEndian 2 0x21 ++ littleEndian 4 (checksum e.content).toNat ++ littleEndian 4 size ++
    littleEndian 4 size ++ littleEndian 2 (Text.encodeUtf8 e.name).length ++ littleEndian 2 0

def writeEntry (e : Entry) : List UInt8 :=
  littleEndian 4 0x04034B50 ++ describe e ++ Text.encodeUtf8 e.name ++ e.content

/-- The line of the directory for an entry whose header stands at an offset. -/
def directoryLine (offset : Nat) (e : Entry) : List UInt8 :=
  littleEndian 4 0x02014B50 ++ littleEndian 2 20 ++ describe e ++ littleEndian 2 0 ++
    littleEndian 2 0 ++ littleEndian 2 0 ++ littleEndian 4 0 ++ littleEndian 4 offset ++
    Text.encodeUtf8 e.name

/-- The directory of entries whose headers begin at an offset. -/
def directory (offset : Nat) : List Entry → List UInt8
  | [] => []
  | e :: rest => directoryLine offset e ++ directory (offset + (writeEntry e).length) rest

def write (entries : List Entry) : List UInt8 :=
  let body := entries.flatMap writeEntry
  let lines := directory 0 entries
  body ++ lines ++ littleEndian 4 0x06054B50 ++ littleEndian 2 0 ++ littleEndian 2 0 ++
    littleEndian 2 entries.length ++ littleEndian 2 entries.length ++
    littleEndian 4 lines.length ++ littleEndian 4 body.length ++ littleEndian 2 0

/-! ## Reading -/

/-- The number in `count` bytes at an offset, the lowest first. -/
def number? (bytes : Array UInt8) (offset : Nat) : (count : Nat) → Option Nat
  | 0 => some 0
  | count + 1 => do
    let low ← bytes[offset]?
    let high ← number? bytes (offset + 1) count
    return low.toNat + 256 * high

def slice? (bytes : Array UInt8) (offset size : Nat) : Option (Array UInt8) :=
  if offset + size ≤ bytes.size then some (bytes.extract offset (offset + size)) else none

/-- The offset of the last mark that ends a directory, looked for from an offset down. -/
def findEnd? (bytes : Array UInt8) : (offset : Nat) → Option Nat
  | 0 => if number? bytes 0 4 = some 0x06054B50 then some 0 else none
  | offset + 1 =>
    if number? bytes (offset + 1) 4 = some 0x06054B50 then some (offset + 1)
    else findEnd? bytes offset

/-- Reads the content of an entry whose header stands at an offset. -/
def readContent (bytes : Array UInt8) (offset method packedSize : Nat) : Option (Array UInt8) := do
  let nameSize ← number? bytes (offset + 26) 2
  let extraSize ← number? bytes (offset + 28) 2
  let packed ← slice? bytes (offset + 30 + nameSize + extraSize) packedSize
  if method = 0 then return packed
  else if method = 8 then inflate packed
  else none

/-- Reads `count` entries from the lines of the directory at an offset. -/
def readEntries (bytes : Array UInt8) : (count offset : Nat) → Option (List Entry)
  | 0, _ => some []
  | count + 1, offset => do
    if (← number? bytes offset 4) ≠ 0x02014B50 then none
    else
      let method ← number? bytes (offset + 10) 2
      let packedSize ← number? bytes (offset + 20) 4
      let nameSize ← number? bytes (offset + 28) 2
      let extraSize ← number? bytes (offset + 30) 2
      let noteSize ← number? bytes (offset + 32) 2
      let header ← number? bytes (offset + 42) 4
      let name ← (Text.decodeUtf8 (← slice? bytes (offset + 46) nameSize).toList).toOption
      let content ← readContent bytes header method packedSize
      let rest ← readEntries bytes count (offset + 46 + nameSize + extraSize + noteSize)
      return ⟨String.ofList name, content.toList⟩ :: rest

def read (content : List UInt8) : Option (List Entry) := do
  let bytes := content.toArray
  let stop ← findEnd? bytes (bytes.size - 22)
  let count ← number? bytes (stop + 10) 2
  let start ← number? bytes (stop + 16) 4
  readEntries bytes count start

end Sheetwright.Archive
