import GatedQuery.Decimal.Binary

/-! A decimal reads back as a double when it lies in the interval of numbers that round to it. The grid
of decimals with one digit is tried first, then the grid with two, and so on; on each grid only the
two neighbours of the exact value can lie in the interval. Seventeen digits always suffice. -/

namespace GatedQuery

/-- The number `digits · 10 ^ exponent`. -/
structure Decimal where
  digits : Nat
  exponent : Int
deriving DecidableEq, Repr

namespace Decimal

/-- Move zeros at the end of the digits into the exponent. `fuel` bounds their number. -/
def trimZeros (fuel : Nat) (d : Decimal) : Decimal :=
  match fuel with
  | 0 => d
  | fuel + 1 =>
    if d.digits % 10 == 0 && d.digits != 0 then trimZeros fuel ⟨d.digits / 10, d.exponent + 1⟩
    else d

/-- How many decimal digits a natural number has. -/
def digitCount (n : Nat) : Nat :=
  (Nat.toDigits 10 n).length

/-- Compare `a · 10 ^ k` with `b` for an exponent of either sign. -/
def scaledLE (a : Nat) (k : Int) (b : Nat) : Bool :=
  if 0 ≤ k then a * Nat.pow 10 k.toNat ≤ b else a ≤ b * Nat.pow 10 (-k).toNat

/-- The exponent of the leading decimal digit of the positive number `num / den`. -/
def leadingExponent (num den : Nat) : Int :=
  let estimate : Int := (digitCount num : Int) - digitCount den
  if scaledLE den estimate num then estimate else estimate - 1

end Decimal

/-- The interval of numbers that round to a double, with all numbers as multiples of
`1 / denominator`. The ends belong to it when the significand is even. -/
structure RoundingInterval where
  low : Nat
  value : Nat
  high : Nat
  denominator : Nat
  closed : Bool

namespace RoundingInterval

/-- The numbers that round to the positive double `significand · 2 ^ exponent`. Below a power of two
the neighbour is only half as far away, except at the least exponent. -/
def ofDyadic (d : Dyadic) : RoundingInterval :=
  let below := if d.significand == Nat.pow 2 52 && d.exponent > -1074 then 1 else 2
  let scale := Nat.pow 2 (d.exponent - 2).toNat
  { low := (4 * d.significand - below) * scale
    value := 4 * d.significand * scale
    high := (4 * d.significand + 2) * scale
    denominator := Nat.pow 2 (2 - d.exponent).toNat
    closed := d.significand % 2 == 0 }

/-- Whether the decimal `digits · 10 ^ k` lies in the interval. -/
def holds (i : RoundingInterval) (digits : Nat) (k : Int) : Bool :=
  let (num, den) :=
    if 0 ≤ k then (digits * Nat.pow 10 k.toNat, 1) else (digits, Nat.pow 10 (-k).toNat)
  let scaled := num * i.denominator
  if i.closed then i.low * den ≤ scaled && scaled ≤ i.high * den
  else i.low * den < scaled && scaled < i.high * den

/-- The decimal with `count` digits that lies in the interval nearest to the exact value, if there
is one. `tieUp` decides between two that are equally near. -/
def onGrid? (i : RoundingInterval) (tieUp : Nat → Bool) (lead : Int) (count : Nat) :
    Option Decimal :=
  let k : Int := lead - (count : Int) + 1
  let (num, den) :=
    if 0 ≤ k then (i.value, i.denominator * Nat.pow 10 k.toNat)
    else (i.value * Nat.pow 10 (-k).toNat, i.denominator)
  let floor := num / den
  let rest := 2 * (num % den)
  let lowHit := i.holds floor k
  let highHit := i.holds (floor + 1) k
  if lowHit && highHit then
    some ⟨if rest > den || (rest == den && tieUp floor) then floor + 1 else floor, k⟩
  else if lowHit then some ⟨floor, k⟩
  else if highHit then some ⟨floor + 1, k⟩
  else none

/-- Try the grids from `count` digits on, `fuel` of them. -/
def search (i : RoundingInterval) (tieUp : Nat → Bool) (lead : Int) : Nat → Nat → Option Decimal
  | 0, _ => none
  | fuel + 1, count => i.onGrid? tieUp lead count <|> search i tieUp lead fuel (count + 1)

end RoundingInterval

/-- The decimal with the fewest digits that reads back as the positive double `d`, and among those
the nearest one. It has no zero at its end. -/
def Dyadic.shortest (tieUp : Nat → Bool) (d : Dyadic) : Decimal :=
  let i := RoundingInterval.ofDyadic d
  let found := i.search tieUp (Decimal.leadingExponent i.value i.denominator) 17 1
  (found.getD ⟨d.significand, d.exponent⟩).trimZeros 17

end GatedQuery
