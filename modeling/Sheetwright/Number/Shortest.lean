import Sheetwright.Number.Binary
/-!
# Decimal text of doubles

Two ways to choose the digits of a double: the fewest that read back as the same double, or a fixed
count of significant digits. Both are then laid out alike, positionally when the leading digit
stands between the fourth place after the point and the sixteenth before it, else with an exponent.
-/

namespace Sheetwright.Number

/-- Decimal digits of a positive number: `digits * 10 ^ exponent`. -/
structure Decimal where
  digits : Nat
  exponent : Int
  deriving Repr, DecidableEq

/-- A fraction rounded to `count` significant digits. -/
def Decimal.rounded (r : Ratio) (count : Nat) : Decimal :=
  let exponent := r.places - count
  let digits := (r.scale 10 (-exponent)).round
  if digits = Nat.pow 10 count then ⟨Nat.pow 10 (count - 1), exponent + 1⟩ else ⟨digits, exponent⟩

/-- The decimals with `count` digits next to a fraction, from below and from above. -/
def neighbours (r : Ratio) (count : Nat) : List Decimal :=
  let exponent := r.places - count
  let scaled := r.scale 10 (-exponent)
  let digits := scaled.num / scaled.den
  [⟨digits, exponent⟩, ⟨digits + 1, exponent⟩]

/-- The interval of numbers that are read as the double `mantissa * 2 ^ exponent`. -/
structure Basin where
  low : Ratio
  high : Ratio
  closed : Bool

/-- The basin of a double. The gap below a power of two is half the gap above it. -/
def Basin.of (mantissa : Nat) (exponent : Int) : Basin :=
  let isPower := mantissa = hiddenBit && -1074 < exponent
  let below := if isPower then 4 * mantissa - 1 else 4 * mantissa - 2
  { low := Ratio.scale ⟨below, 1⟩ 2 (exponent - 2)
    high := Ratio.scale ⟨4 * mantissa + 2, 1⟩ 2 (exponent - 2)
    closed := mantissa % 2 == 0 }

def Ratio.le (a b : Ratio) : Bool := a.num * b.den ≤ b.num * a.den

def Decimal.ratio (d : Decimal) : Ratio := Ratio.scale ⟨d.digits, 1⟩ 10 d.exponent

/-- The decimal is read as the double whose basin this is. -/
def Basin.holds (b : Basin) (d : Decimal) : Bool :=
  let r := d.ratio
  if b.closed then b.low.le r && r.le b.high else !r.le b.low && !b.high.le r

/-- The fewest digits that read back; of two neighbours that do, the nearer. -/
def shortest (mantissa : Nat) (exponent : Int) : Decimal :=
  let r := Ratio.scale ⟨mantissa, 1⟩ 2 exponent
  let basin := Basin.of mantissa exponent
  let attempt (count : Nat) : Option Decimal :=
    match (neighbours r count).filter basin.holds with
    | [] => none
    | [d] => some d
    | _ => some (.rounded r count)
  ((List.range 17).findSome? fun i => attempt (i + 1)).getD (.rounded r 17)

/-- Lays out digits. A positional text without a fraction is marked with `.0` on request. -/
def Decimal.layOut (markWhole : Bool) (d : Decimal) : List Char :=
  let all := Nat.toDigits 10 d.digits
  let digits := (all.reverse.dropWhile (· == '0')).reverse
  let point : Int := all.length + d.exponent
  let fraction := if markWhole then ['.', '0'] else []
  if -4 < point && point ≤ 16 then
    if point ≤ 0 then "0.".toList ++ List.replicate (-point).toNat '0' ++ digits
    else
      let before := digits.take point.toNat
      let after := digits.drop point.toNat
      before ++ List.replicate (point.toNat - before.length) '0' ++
        if after.isEmpty then fraction else '.' :: after
  else
    let power := point - 1
    let shown := Nat.toDigits 10 power.natAbs
    digits.take 1 ++ (if digits.length ≤ 1 then [] else '.' :: digits.drop 1) ++
      'e' :: (if power < 0 then '-' else '+') :: List.replicate (2 - shown.length) '0' ++ shown

/-- The text of a double, the digits chosen by `choose` and zero written as a whole number. -/
def text (markWhole : Bool) (choose : Nat → Int → Decimal) (x : Float) : String :=
  match Binary.ofFloat x with
  | .undefined => "nan"
  | .infinite negative => if negative then "-inf" else "inf"
  | .finite negative mantissa exponent =>
    let body := if mantissa = 0 then (if markWhole then "0.0".toList else ['0'])
      else (choose mantissa exponent).layOut markWhole
    String.ofList (if negative then '-' :: body else body)

/-- The shortest text that reads back, marked as a fraction. -/
def shortestText (x : Float) : String := text true shortest x

/-- The text with sixteen significant digits and no trailing zeros. -/
def sixteenDigitText (x : Float) : String :=
  text false (fun mantissa exponent => .rounded (Ratio.scale ⟨mantissa, 1⟩ 2 exponent) 16) x

end Sheetwright.Number
