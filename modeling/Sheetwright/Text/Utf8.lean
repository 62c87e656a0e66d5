/-!
# UTF-8

Strict decoding of UTF-8. A decoding error names the first offending bytes and the reason; surrogate
code points, overlong forms and values beyond the last code point are all refused.
-/

namespace Sheetwright.Text

/-- Why bytes are refused. -/
inductive Utf8Reason where
  | invalidStart
  | invalidContinuation
  | unexpectedEnd
  deriving Repr, DecidableEq

def Utf8Reason.text : Utf8Reason → String
  | .invalidStart => "invalid start byte"
  | .invalidContinuation => "invalid continuation byte"
  | .unexpectedEnd => "unexpected end of data"

/-- A place where decoding stops: the offending bytes begin at `position` and are `length` many. -/
structure Utf8Fault where
  position : Nat
  length : Nat
  first : UInt8
  reason : Utf8Reason
  deriving Repr, DecidableEq

def Utf8Fault.message (fault : Utf8Fault) : String :=
  let hex := String.ofList ((Nat.toDigits 16 fault.first.toNat).leftpad 2 '0')
  let place :=
    if fault.length == 1 then s!"byte 0x{hex} in position {fault.position}"
    else s!"bytes in position {fault.position}-{fault.position + fault.length - 1}"
  s!"'utf-8' codec can't decode {place}: {fault.reason.text}"

/-- The number of continuation bytes a first byte asks for, and the bounds of the first of them. -/
def continuation? (first : UInt8) : Option (Nat × UInt8 × UInt8) :=
  if first < 0x80 then some (0, 0x80, 0xBF)
  else if 0xC2 ≤ first && first ≤ 0xDF then some (1, 0x80, 0xBF)
  else if first == 0xE0 then some (2, 0xA0, 0xBF)
  else if first == 0xED then some (2, 0x80, 0x9F)
  else if 0xE1 ≤ first && first ≤ 0xEF then some (2, 0x80, 0xBF)
  else if first == 0xF0 then some (3, 0x90, 0xBF)
  else if 0xF1 ≤ first && first ≤ 0xF3 then some (3, 0x80, 0xBF)
  else if first == 0xF4 then some (3, 0x80, 0x8F)
  else none

/-- Takes `count` continuation bytes, the first of them within the given bounds, and adds their bits
to `value`. A failure tells how many bytes were good and why the next is not. -/
def takeContinuation (lo hi : UInt8) (value good : Nat) :
    (count : Nat) → List UInt8 → Except (Nat × Utf8Reason) (Nat × List UInt8)
  | 0, rest => .ok (value, rest)
  | _ + 1, [] => .error (good, .unexpectedEnd)
  | count + 1, b :: rest =>
    if lo ≤ b && b ≤ hi then
      takeContinuation 0x80 0xBF (64 * value + (b.toNat - 0x80)) (good + 1) count rest
    else .error (good, .invalidContinuation)

/-- The bits of a first byte that belong to the code point. -/
def leadBits (first : UInt8) : Nat :=
  if first < 0x80 then first.toNat
  else if first < 0xE0 then first.toNat - 0xC0
  else if first < 0xF0 then first.toNat - 0xE0
  else first.toNat - 0xF0

/-- Decodes bytes that begin at `position`; `fuel` bounds the number of characters. -/
def decodeFrom (position : Nat) : (fuel : Nat) → List UInt8 → Except Utf8Fault (List Char)
  | 0, _ => .ok []
  | _ + 1, [] => .ok []
  | fuel + 1, first :: rest =>
    match continuation? first with
    | none => .error ⟨position, 1, first, .invalidStart⟩
    | some (count, lo, hi) =>
      match takeContinuation lo hi (leadBits first) 1 count rest with
      | .error (good, reason) => .error ⟨position, good, first, reason⟩
      | .ok (value, rest) =>
        (decodeFrom (position + count + 1) fuel rest).map (Char.ofNat value :: ·)

def decodeUtf8 (bytes : List UInt8) : Except Utf8Fault (List Char) :=
  decodeFrom 0 bytes.length bytes

def encodeUtf8 (text : String) : List UInt8 := text.toUTF8.toList

end Sheetwright.Text
