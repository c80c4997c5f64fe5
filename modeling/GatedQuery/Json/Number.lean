import GatedQuery.Decimal.Numeral
import GatedQuery.Json.Basic

/-! A number without fraction and exponent that fits is an integer. Any other number becomes a float in
two roundings: the digits are gathered into a 64-bit significand, as many of them as fit, and the
significand is then scaled by a power of ten. The result can be off the nearest double by its last
bits; numbers beyond the greatest double are refused. -/

namespace GatedQuery.Json

/-- Significands are below this bound. -/
def significandBound : Nat := Nat.pow 2 64

/-- Gather digits into a significand as long as it stays below the bound. The result holds the
significand and how many digits went into it. -/
def gather (significand count : Nat) : List Char → Nat × Nat
  | [] => (significand, count)
  | c :: cs =>
    let next := 10 * significand + (c.toNat - '0'.toNat)
    if next < significandBound then gather next (count + 1) cs else (significand, count)

/-- The double nearest to `10 ^ n`, for `n` up to 308. -/
def powerOfTen (n : Nat) : Float :=
  Numeral.nearest 1 n

/-- Scale a float by `10 ^ exponent`, one rounding at a time. The result is missing when it is too
large. Below the range of the powers the float is first divided by `10 ^ 308`; three such steps turn
every significand into zero, so a `fuel` of three suffices. -/
def scale : Nat → Float → Int → Option Float
  | fuel, x, exponent =>
    if exponent.natAbs ≤ 308 then
      if 0 ≤ exponent then
        let scaled := x * powerOfTen exponent.natAbs
        if scaled.isFinite then some scaled else none
      else some (x / powerOfTen exponent.natAbs)
    else if x == 0 then some x
    else if 0 ≤ exponent then none
    else
      match fuel with
      | 0 => some 0
      | fuel + 1 => scale fuel (x / powerOfTen 308) (exponent + 308)

/-- The float of a number that has a fraction or an exponent, or that does not fit an integer. It is
missing when the number is too large. -/
def numberFloat (n : Numeral) : Option Float :=
  let fraction := n.fraction.getD []
  let (whole, taken) := gather 0 0 n.whole
  let skipped := n.whole.length - taken
  -- once a digit did not fit, the digits after the point are gathered on their own terms
  let (significand, places) := gather whole 0 fraction
  let exponent : Int := (skipped : Int) - (places : Int)
  let written : Int :=
    match n.exponent with
    | some (sign, ds) => Numeral.signed sign ds
    | none => 0
  let magnitude :=
    if written.natAbs > Int32.maxValue.toInt.toNat then
      if significand != 0 && 0 < written then none else some 0
    else scale 3 (Float.ofNat significand) (exponent + written)
  if n.sign = some '-' then magnitude.map (-·) else magnitude

/-- The value of a number. Minus zero is a float, as no integer keeps its sign. -/
def number? (n : Numeral) : Option Json :=
  let integer :=
    if n.isFractional || (n.sign = some '-' && n.whole.all (· == '0')) then none else n.toInt64?
  match integer with
  | some i => some (.integer i)
  | none => (numberFloat n).map .float

end GatedQuery.Json
