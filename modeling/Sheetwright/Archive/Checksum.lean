/-!
# Checksums

The cyclic redundancy check of an archive entry: 32 bits, the lowest first, with the reflected
polynomial `0xEDB88320`, all bits set at the start and inverted at the end.
-/

namespace Sheetwright.Archive

def shiftBit (sum : UInt32) : UInt32 :=
  if sum &&& 1 = 1 then (sum >>> 1) ^^^ 0xEDB88320 else sum >>> 1

def addByte (sum : UInt32) (byte : UInt8) : UInt32 := Nat.repeat shiftBit 8 (sum ^^^ byte.toUInt32)

def checksum (bytes : List UInt8) : UInt32 := bytes.foldl addByte 0xFFFFFFFF ^^^ 0xFFFFFFFF

end Sheetwright.Archive
