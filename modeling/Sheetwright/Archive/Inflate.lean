/-!
# Unpacking

Unpacking bytes that were packed by the deflate method: blocks that hold bytes as they are, or codes
for bytes and for repetitions of earlier bytes. Codes are canonical: they are known from their
lengths alone, shorter codes come first, and codes of one length are consecutive.
-/

namespace Sheetwright.Archive

/-! ## Bits -/

/-- Bytes that are read bit by bit, the lowest bit of a byte first. -/
structure Bits where
  bytes : Array UInt8
  position : Nat

namespace Bits

def next? (b : Bits) : Option (Nat × Bits) :=
  (b.bytes[b.position / 8]?).map fun byte =>
    ((byte.toNat >>> (b.position % 8)) % 2, { b with position := b.position + 1 })

def take? : (count : Nat) → Bits → Option (Nat × Bits)
  | 0, b => some (0, b)
  | count + 1, b => do
    let (low, b) ← b.next?
    let (high, b) ← take? count b
    return (low + 2 * high, b)

/-- The place at the start of the next byte. -/
def align (b : Bits) : Bits := { b with position := (b.position + 7) / 8 * 8 }

end Bits

/-! ## Codes -/

/-- A code: how many words there are of each length from one on, and their symbols in order. -/
structure Codebook where
  counts : List Nat
  symbols : Array Nat

def longestWord : Nat := 15

/-- The code given by the length of each symbol; a symbol of length zero has no word. -/
def Codebook.ofLengths (lengths : List Nat) : Codebook :=
  let sizes := List.range' 1 longestWord
  let ofSize (size : Nat) : List Nat :=
    (lengths.zipIdx.filter (·.1 = size)).map (·.2)
  { counts := sizes.map fun size => (ofSize size).length
    symbols := (sizes.flatMap ofSize).toArray }

/-- Reads a word bit by bit. Among words of the length read so far, `first` is the least and `index`
counts all shorter words. -/
def Codebook.decodeFrom (symbols : Array Nat) (word first index : Nat) :
    List Nat → Bits → Option (Nat × Bits)
  | [], _ => none
  | count :: rest, b => do
    let (bit, b) ← b.next?
    let word := 2 * word + bit
    if word < first + count then return (← symbols[index + (word - first)]?, b)
    else decodeFrom symbols word (2 * (first + count)) (index + count) rest b

def Codebook.decode (code : Codebook) (b : Bits) : Option (Nat × Bits) :=
  decodeFrom code.symbols 0 0 0 code.counts b

/-- The code for bytes and repetitions when a block brings none of its own. -/
def fixedCode : Codebook :=
  .ofLengths (List.replicate 144 8 ++ List.replicate 112 9 ++ List.replicate 24 7 ++
    List.replicate 8 8)

/-- The code for distances when a block brings none of its own. -/
def fixedDistances : Codebook := .ofLengths (List.replicate 30 5)

/-! ## Repetitions -/

/-- The base and the number of extra bits of each length symbol from 257 on. -/
def lengthTable : List (Nat × Nat) :=
  [(3, 0), (4, 0), (5, 0), (6, 0), (7, 0), (8, 0), (9, 0), (10, 0), (11, 1), (13, 1), (15, 1),
   (17, 1), (19, 2), (23, 2), (27, 2), (31, 2), (35, 3), (43, 3), (51, 3), (59, 3), (67, 4),
   (83, 4), (99, 4), (115, 4), (131, 5), (163, 5), (195, 5), (227, 5), (258, 0)]

/-- The base and the number of extra bits of each distance symbol. -/
def distanceTable : List (Nat × Nat) :=
  [(1, 0), (2, 0), (3, 0), (4, 0), (5, 1), (7, 1), (9, 2), (13, 2), (17, 3), (25, 3), (33, 4),
   (49, 4), (65, 5), (97, 5), (129, 6), (193, 6), (257, 7), (385, 7), (513, 8), (769, 8),
   (1025, 9), (1537, 9), (2049, 10), (3073, 10), (4097, 11), (6145, 11), (8193, 12), (12289, 12),
   (16385, 13), (24577, 13)]

/-- The number that a symbol stands for together with its extra bits. -/
def extended? (table : List (Nat × Nat)) (symbol : Nat) (b : Bits) : Option (Nat × Bits) := do
  let (base, extra) ← table[symbol]?
  let (more, b) ← b.take? extra
  return (base + more, b)

def repeatBytes (distance : Nat) : (count : Nat) → Array UInt8 → Option (Array UInt8)
  | 0, out => some out
  | count + 1, out => do
    if distance = 0 || out.size < distance then none
    else repeatBytes distance count (out.push (← out[out.size - distance]?))

/-! ## Blocks -/

/-- Reads symbols up to the one that ends the block. -/
def readSymbols (code distances : Codebook) :
    (fuel : Nat) → Array UInt8 → Bits → Option (Array UInt8 × Bits)
  | 0, _, _ => none
  | fuel + 1, out, b => do
    let (symbol, b) ← code.decode b
    if symbol < 256 then readSymbols code distances fuel (out.push symbol.toUInt8) b
    else if symbol = 256 then return (out, b)
    else
      let (length, b) ← extended? lengthTable (symbol - 257) b
      let (symbol, b) ← distances.decode b
      let (distance, b) ← extended? distanceTable symbol b
      readSymbols code distances fuel (← repeatBytes distance length out) b

/-- Reads `count` bytes as they are. -/
def readPlain : (count : Nat) → Array UInt8 → Bits → Option (Array UInt8 × Bits)
  | 0, out, b => some (out, b)
  | count + 1, out, b => do
    let (byte, b) ← b.take? 8
    readPlain count (out.push byte.toUInt8) b

/-- Reads `count` code lengths, some of them written as repetitions; those read so far are given
last first. -/
def readLengths (code : Codebook) (count : Nat) :
    (fuel : Nat) → List Nat → Bits → Option (List Nat × Bits)
  | 0, _, _ => none
  | fuel + 1, lengths, b =>
    if count ≤ lengths.length then some (lengths.reverse, b)
    else do
      let (symbol, b) ← code.decode b
      if symbol < 16 then readLengths code count fuel (symbol :: lengths) b
      else if symbol = 16 then
        let (more, b) ← b.take? 2
        let last ← lengths.head?
        readLengths code count fuel (List.replicate (3 + more) last ++ lengths) b
      else if symbol = 17 then
        let (more, b) ← b.take? 3
        readLengths code count fuel (List.replicate (3 + more) 0 ++ lengths) b
      else
        let (more, b) ← b.take? 7
        readLengths code count fuel (List.replicate (11 + more) 0 ++ lengths) b

/-- The order in which the lengths of the code for code lengths are written. -/
def lengthOrder : List Nat := [16, 17, 18, 0, 8, 7, 9, 6, 10, 5, 11, 4, 12, 3, 13, 2, 14, 1, 15]

/-- Reads `count` numbers of three bits. -/
def readThrees : (count : Nat) → Bits → Option (List Nat × Bits)
  | 0, b => some ([], b)
  | count + 1, b => do
    let (n, b) ← b.take? 3
    let (rest, b) ← readThrees count b
    return (n :: rest, b)

/-- Reads the two codes that a block brings. -/
def readCodes (b : Bits) : Option (Codebook × Codebook × Bits) := do
  let (literals, b) ← b.take? 5
  let (distances, b) ← b.take? 5
  let (lengths, b) ← b.take? 4
  let (threes, b) ← readThrees (lengths + 4) b
  let given := lengthOrder.zip threes
  let code := Codebook.ofLengths ((List.range 19).map fun symbol => (given.lookup symbol).getD 0)
  let total := literals + 257 + (distances + 1)
  let (all, b) ← readLengths code total (total + 1) [] b
  return (.ofLengths (all.take (literals + 257)), .ofLengths (all.drop (literals + 257)), b)

/-- Reads one block; the first part of the answer tells whether it was the last. -/
def readBlock (fuel : Nat) (out : Array UInt8) (b : Bits) : Option (Bool × Array UInt8 × Bits) := do
  let (isLast, b) ← b.take? 1
  let (kind, b) ← b.take? 2
  let (out, b) ← match kind with
    | 0 => do
      let (count, b) ← b.align.take? 16
      let (_, b) ← b.take? 16
      readPlain count out b
    | 1 => readSymbols fixedCode fixedDistances fuel out b
    | 2 => do
      let (code, distances, b) ← readCodes b
      readSymbols code distances fuel out b
    | _ => none
  return (isLast = 1, out, b)

def readBlocks : (fuel : Nat) → Array UInt8 → Bits → Option (Array UInt8)
  | 0, _, _ => none
  | fuel + 1, out, b => do
    let (isLast, out, b) ← readBlock (8 * b.bytes.size + 1) out b
    if isLast then return out else readBlocks fuel out b

/-- Unpacks bytes; every block takes up bits, so there are no more blocks than bits. -/
def inflate (packed : Array UInt8) : Option (Array UInt8) :=
  readBlocks (8 * packed.size + 1) #[] ⟨packed, 0⟩

end Sheetwright.Archive
