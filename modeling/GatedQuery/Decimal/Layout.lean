import GatedQuery.Decimal.Shortest

/-! The digits of a float are the fewest that read back. A `FloatFormat` holds the decisions that are
left: which magnitudes are written without an exponent, how an exponent looks, and how values are
written that have no digits. -/

namespace GatedQuery

structure FloatFormat where
  /-- The least exponent of the leading digit that is written without an exponent part. -/
  plainFrom : Int
  /-- The least exponent above them that is written with one again. -/
  plainBelow : Int
  /-- What stands before the digits of an exponent that is not negative. -/
  exponentSign : String
  /-- Which neighbour is taken when two decimals are equally near: whether the upper one is,
  given the lower one. -/
  tieUp : Nat → Bool
  notANumber : String
  /-- The text of an infinity, given whether it is the negative one. -/
  infinite : Bool → String

namespace FloatFormat

/-- The digits of a positive decimal without an exponent part. There is always a fraction. -/
def plain (d : Decimal) : String :=
  let ds := Nat.toDigits 10 d.digits
  let places := (-d.exponent).toNat
  if 0 ≤ d.exponent then
    String.ofList (ds ++ List.replicate d.exponent.toNat '0') ++ ".0"
  else if places < ds.length then
    String.ofList (ds.take (ds.length - places)) ++ "."
      ++ String.ofList (ds.drop (ds.length - places))
  else "0." ++ String.ofList (List.replicate (places - ds.length) '0' ++ ds)

/-- The digits of a positive decimal with one digit before the point and an exponent part. -/
def scientific (f : FloatFormat) (d : Decimal) : String :=
  let ds := Nat.toDigits 10 d.digits
  let lead : Int := d.exponent + ((ds.length : Int) - 1)
  let fraction := if ds.length ≤ 1 then "" else "." ++ String.ofList (ds.drop 1)
  let sign := if lead < 0 then "-" else f.exponentSign
  String.ofList (ds.take 1) ++ fraction ++ "e" ++ sign ++ toString lead.natAbs

def positive (f : FloatFormat) (d : Decimal) : String :=
  let lead : Int := d.exponent + ((Decimal.digitCount d.digits : Int) - 1)
  if f.plainFrom ≤ lead && lead < f.plainBelow then plain d else f.scientific d

def write (f : FloatFormat) (x : Float) : String :=
  match Binary.ofFloat x with
  | .notANumber => f.notANumber
  | .infinite negative => f.infinite negative
  | .finite d =>
    let magnitude := if d.significand == 0 then "0.0" else f.positive (d.shortest f.tieUp)
    (if d.negative then "-" else "") ++ magnitude

end FloatFormat

/-- How queries and messages write a float: plain from `0.0001` up to below `10 ^ 16`, and then with
a bare exponent such as `1e16` or `1.5e-5`. -/
def queryFloat : FloatFormat where
  plainFrom := -4
  plainBelow := 16
  exponentSign := ""
  tieUp := fun _ => true
  notANumber := "NaN"
  infinite := fun negative => if negative then "-inf" else "inf"

/-- How JSON writes a float: plain from `0.00001` up to below `10 ^ 16`, and then with a signed
exponent such as `1e+16`. A value without digits is `null`. -/
def jsonFloat : FloatFormat where
  plainFrom := -5
  plainBelow := 16
  exponentSign := "+"
  tieUp := fun lower => lower % 2 == 1
  notANumber := "null"
  infinite := fun _ => "null"

end GatedQuery
