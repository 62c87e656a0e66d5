/-!
# Double precision numbers as exact fractions

A finite double is a whole number times a power of two. Here it is taken apart into that form, and
the double nearest to a fraction is put together, a tie going to the even neighbour, both in exact
arithmetic on natural numbers.
-/

namespace Sheetwright.Number

/-- A double taken apart; a finite one is `mantissa * 2 ^ exponent` up to its sign. -/
inductive Binary where
  | finite (negative : Bool) (mantissa : Nat) (exponent : Int)
  | infinite (negative : Bool)
  | undefined
  deriving Repr, DecidableEq

/-- The bit that a double of usual size leaves out, as the highest of its mantissa. -/
def hiddenBit : Nat := Nat.pow 2 52

/-- The bit that makes a double negative. -/
def signBit : Nat := Nat.pow 2 63

/-- Takes a double apart. -/
def Binary.ofFloat (x : Float) : Binary :=
  let bits := x.toBits.toNat
  let negative := signBit ≤ bits
  let field : Nat := bits / hiddenBit % 2048
  let fraction : Nat := bits % hiddenBit
  if field = 2047 then if fraction = 0 then .infinite negative else .undefined
  else if field = 0 then .finite negative fraction (-1074)
  else .finite negative (hiddenBit + fraction) ((field : Int) - 1075)

/-- A positive fraction. -/
structure Ratio where
  num : Nat
  den : Nat
  deriving Repr, DecidableEq

/-- The fraction times a power of a base. -/
def Ratio.scale (r : Ratio) (base : Nat) (exponent : Int) : Ratio :=
  if 0 ≤ exponent then ⟨r.num * Nat.pow base exponent.toNat, r.den⟩
  else ⟨r.num, r.den * Nat.pow base (-exponent).toNat⟩

/-- The nearest whole number, a half going to the even neighbour. -/
def Ratio.round (r : Ratio) : Nat :=
  let q := r.num / r.den
  let twice := 2 * (r.num % r.den)
  if r.den < twice || (r.den == twice && q % 2 == 1) then q + 1 else q

/-- The number of decimal places before the point of a positive fraction: the `p` with
`10 ^ (p - 1) ≤ r < 10 ^ p`. -/
def Ratio.places (r : Ratio) : Int :=
  if r.den ≤ r.num then ((Nat.toDigits 10 (r.num / r.den)).length : Int)
  else
    let d := (Nat.toDigits 10 (r.den / r.num)).length
    if r.den = r.num * Nat.pow 10 (d - 1) then 2 - (d : Int) else 1 - (d : Int)

/-- The double of the given sign nearest to a fraction. -/
def nearest (negative : Bool) (r : Ratio) : Float :=
  let sign : Nat := if negative then signBit else 0
  if r.num = 0 then Float.ofBits sign.toUInt64
  else
    let guess : Int := (r.num.log2 : Int) - r.den.log2 - 52
    let scaled := r.scale 2 (-guess)
    let exponent := max (-1074) (if scaled.num < hiddenBit * scaled.den then guess - 1 else guess)
    let mantissa := (r.scale 2 (-exponent)).round
    let magnitude := (exponent + 1074).toNat * hiddenBit + mantissa
    let infinity := 2047 * hiddenBit
    Float.ofBits (sign + min magnitude infinity).toUInt64

/-- The double nearest to `digits * 10 ^ exponent`. Exponents far outside the range of doubles are
answered without computing the power. -/
def ofDecimal (negative : Bool) (digits : Nat) (exponent : Int) : Float :=
  let size := exponent + (Nat.toDigits 10 digits).length
  if digits = 0 || size < -400 then nearest negative ⟨0, 1⟩
  else if 400 < size then nearest negative ⟨Nat.pow 2 1100, 1⟩
  else nearest negative (Ratio.scale ⟨digits, 1⟩ 10 exponent)

/-- The double nearest to an integer. -/
def ofInt (n : Int) : Float := nearest (n < 0) ⟨n.natAbs, 1⟩

/-- The integer equal to a double, if it is finite and whole. -/
def whole? (x : Float) : Option Int :=
  match Binary.ofFloat x with
  | .finite negative mantissa exponent =>
    let r := Ratio.scale ⟨mantissa, 1⟩ 2 exponent
    if r.num % r.den = 0 then
      let n : Int := r.num / r.den
      some (if negative then -n else n)
    else none
  | _ => none

/-- A double that is neither infinite nor undefined. -/
def isFinite (x : Float) : Bool :=
  match Binary.ofFloat x with
  | .finite .. => true
  | _ => false

end Sheetwright.Number
