/-! A finite double is a sign, a natural significand and a power of two. The functions here read these
parts off the bits, so that rounding and printing are exact arithmetic on `Nat` and `Int`. -/

namespace GatedQuery

/-- The number `± significand · 2 ^ exponent`. The sign is kept apart, as zero has two of them. -/
structure Dyadic where
  negative : Bool
  significand : Nat
  exponent : Int
deriving DecidableEq, Repr

/-- What the bits of a double stand for. -/
inductive Binary where
  | notANumber
  | infinite (negative : Bool)
  | finite (d : Dyadic)
deriving DecidableEq, Repr

namespace Binary

/-- Read the parts of a double off its bits. Subnormal numbers share the least exponent. -/
def ofFloat (x : Float) : Binary :=
  let bits := x.toBits.toNat
  let negative := bits / Nat.pow 2 63 == 1
  let fraction := bits % Nat.pow 2 52
  match bits / Nat.pow 2 52 % Nat.pow 2 11 with
  | 0 => .finite ⟨negative, fraction, -1074⟩
  | 2047 => if fraction == 0 then .infinite negative else .notANumber
  | e => .finite ⟨negative, fraction + Nat.pow 2 52, (e : Int) - 1075⟩

end Binary

/-- The natural number nearest to `num / den`, a half going to the even neighbour. -/
def roundHalfEven (num den : Nat) : Nat :=
  let quotient := num / den
  let rest := 2 * (num % den)
  if rest > den || (rest == den && quotient % 2 == 1) then quotient + 1 else quotient

namespace Dyadic

/-- The integer nearest to the number, a half going to the even neighbour; the sign is left off. -/
def roundedMagnitude (d : Dyadic) : Nat :=
  if 0 ≤ d.exponent then d.significand * Nat.pow 2 d.exponent.toNat
  else roundHalfEven d.significand (Nat.pow 2 (-d.exponent).toNat)

/-- The integer nearest to the number, a half going to the even neighbour. -/
def round (d : Dyadic) : Int :=
  if d.negative then -(d.roundedMagnitude : Int) else d.roundedMagnitude

end Dyadic

/-- The double rounded to an integer, a half going to the even neighbour. The sign of zero, an
infinity and the value that is no number stay as they are. -/
def roundDouble (x : Float) : Float :=
  match Binary.ofFloat x with
  | .finite d =>
    let magnitude := Float.ofNat d.roundedMagnitude
    if d.negative then -magnitude else magnitude
  | _ => x

end GatedQuery
