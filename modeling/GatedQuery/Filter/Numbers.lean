import GatedQuery.Decimal.Binary
import GatedQuery.Filter.Basic

/-! Rounding takes a half to the even neighbour. It goes through the float that is nearest to the number
divided by the unit, so that very large integers are rounded as floats are. -/

namespace GatedQuery

def magnitude (x : Float) : Float :=
  match Binary.ofFloat x with
  | .finite d => if d.negative then -x else x
  | .infinite negative => if negative then -x else x
  | .notANumber => x

/-- The product of `r` and `a ^ n`, by squaring. The exponent has at most `fuel` binary digits. -/
def powerTimes (r a : Float) : Nat → Nat → Float
  | 0, _ => r
  | fuel + 1, n =>
    let r := if n % 2 == 1 then r * a else r
    if n / 2 == 0 then r else powerTimes r (a * a) fuel (n / 2)

/-- The float for `10 ^ n`, which is a reciprocal when `n` is negative. -/
def decimalUnit (n : Int) : Float :=
  let power := powerTimes 1.0 10.0 9 n.natAbs
  if n < 0 then 1.0 / power else power

def nearestWord (n : Int) : Int64 :=
  if n < Int64.minValue.toInt then Int64.minValue
  else if Int64.maxValue.toInt < n then Int64.maxValue
  else Int64.ofInt n

def roundedInteger? (x : Float) : Option Int :=
  match Binary.ofFloat x with
  | .finite d => some d.round
  | _ => none

/-- An integer rounded to a multiple of `10 ^ places`. It becomes zero when there is no such 64-bit
power. -/
def roundInteger (n : Int64) (places : Nat) : Int64 :=
  if 18 < places then 0
  else
    let unit : Int := Nat.pow 10 places
    match roundedInteger? (Float.ofInt n.toInt / Float.ofInt unit) with
    | some count => nearestWord (count * unit)
    | none => 0

/-- A float rounded to so many decimal places. Beyond 15 of them a float has nothing left to round,
and neither has one without a fraction at that precision. -/
def roundFloat (x : Float) (places : Int64) : Float :=
  let unit := decimalUnit (max (-308) (min 15 places.toInt))
  let scaled := x * unit
  if !scaled.isFinite || magnitude scaled >= 4503599627370496.0 then x
  else roundDouble scaled / unit

/-- A float rounded to a 64-bit integer, if it lies between the two extreme ones. -/
def roundToWord? (x : Float) : Option Int64 := do
  let n ← roundedInteger? x
  if n.natAbs < Nat.pow 2 63 then some (Int64.ofInt n) else none

namespace Builtin

variable {O : Type} [Inspectable O]

def abs : Builtin O where
  name := "abs"
  params := []
  body v _ :=
    match v with
    | .integer n =>
      if n = Int64.minValue then .error (.failed "integer overflow") else .ok (.integer n.abs)
    | .float x => .ok (.float (magnitude x))
    | _ => .error (.invalidReceiver "a number" v.typeName)

/-- The number rounded to so many decimal places, which may be negative. A float that is rounded to
no given number of places becomes an integer. -/
def round : Builtin O where
  name := "round"
  params := ["ndigits"]
  body v args := do
    match v, ← args.getInteger? 0 "ndigits" with
    | .integer n, none => return .integer n
    | .integer n, some places =>
      return .integer (if 0 ≤ places then n else roundInteger n places.toInt.natAbs)
    | .float x, none =>
      match roundToWord? x with
      | some n => return .integer n
      | none => throw (.failed "cannot round a non-finite number")
    | .float x, some places => return .float (roundFloat x places)
    | _, _ => throw (.invalidReceiver "a number" v.typeName)

end Builtin

end GatedQuery
