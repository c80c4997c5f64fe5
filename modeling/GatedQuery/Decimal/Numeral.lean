/-! A numeral is an optional sign, digits, an optional fraction and an optional exponent. It stands for
an exact number, which is then taken as a 64-bit integer or rounded once to the nearest double. -/

namespace GatedQuery

/-- The characters of a numeral, part by part. -/
structure Numeral where
  sign : Option Char
  whole : List Char
  /-- The digits after the point, if there is a point. -/
  fraction : Option (List Char)
  /-- The sign and the digits of the exponent, if there is one. -/
  exponent : Option (Option Char × List Char)
deriving DecidableEq, Repr

namespace Numeral

/-- The run of ASCII digits at the head of a text, and what follows it. -/
def spanDigits (cs : List Char) : List Char × List Char :=
  (cs.takeWhile Char.isDigit, cs.dropWhile Char.isDigit)

/-- The sign at the head of a text, if there is one, and what follows it. -/
def spanSign : List Char → Option Char × List Char
  | '-' :: cs => (some '-', cs)
  | '+' :: cs => (some '+', cs)
  | cs => (none, cs)

/-- The fraction at the head of a text: a point that a digit follows, and the digits. -/
def spanFraction : List Char → Option (List Char) × List Char
  | '.' :: c :: cs =>
    if c.isDigit then (some (spanDigits (c :: cs)).1, (spanDigits (c :: cs)).2)
    else (none, '.' :: c :: cs)
  | cs => (none, cs)

/-- The exponent at the head of a text: the letter `e`, an optional sign and at least one digit. -/
def spanExponent : List Char → Option (Option Char × List Char) × List Char
  | [] => (none, [])
  | e :: cs =>
    let (sign, ds) := spanSign cs
    if (e == 'e' || e == 'E') && ds.head?.any Char.isDigit then
      (some (sign, (spanDigits ds).1), (spanDigits ds).2)
    else (none, e :: cs)

/-- The longest numeral at the head of a text, and what follows it. With `integerOnly` it ends
before a fraction or an exponent. -/
def span (integerOnly : Bool) (cs : List Char) : Numeral × List Char :=
  let (sign, cs) := spanSign cs
  let (whole, cs) := spanDigits cs
  if integerOnly then (⟨sign, whole, none, none⟩, cs)
  else
    let (fraction, cs) := spanFraction cs
    let (exponent, cs) := spanExponent cs
    (⟨sign, whole, fraction, exponent⟩, cs)

/-- Whether the numeral has a fraction or an exponent. -/
def isFractional (n : Numeral) : Bool :=
  n.fraction.isSome || n.exponent.isSome

/-- The characters of the numeral. The exponent is always marked by a small letter. -/
def text (n : Numeral) : String :=
  String.ofList (n.sign.toList ++ n.whole
    ++ (match n.fraction with
        | some ds => '.' :: ds
        | none => [])
    ++ (match n.exponent with
        | some (sign, ds) => 'e' :: (sign.toList ++ ds)
        | none => []))

def signed (sign : Option Char) (digits : List Char) : Int :=
  let magnitude : Int := Nat.ofDigitChars 10 digits 0
  if sign = some '-' then -magnitude else magnitude

/-- The numeral without its fraction and exponent, as a 64-bit integer if it fits. -/
def toInt64? (n : Numeral) : Option Int64 :=
  let value := signed n.sign n.whole
  if Int64.minValue.toInt ≤ value && value ≤ Int64.maxValue.toInt then some (Int64.ofInt value)
  else none

/-- The double nearest to `digits · 10 ^ exponent`. Numbers far outside the range of doubles are
decided by their order of magnitude alone. -/
def nearest (digits : Nat) (exponent : Int) : Float :=
  let order : Int := exponent + (Nat.toDigits 10 digits).length
  if digits == 0 || order < -330 then 0.0
  else if order > 310 then 1.0 / 0.0
  else Float.ofScientific digits (exponent < 0) exponent.natAbs

/-- The double nearest to the numeral, which is infinite when the numeral is too large. -/
def toFloat (n : Numeral) : Float :=
  let fraction := n.fraction.getD []
  let exponent : Int :=
    match n.exponent with
    | some (sign, ds) => signed sign ds
    | none => 0
  let magnitude :=
    nearest (Nat.ofDigitChars 10 (n.whole ++ fraction) 0) (exponent - (fraction.length : Int))
  if n.sign = some '-' then -magnitude else magnitude

/-- The numeral that makes up a whole text, if the text is one. -/
def ofText? (s : String) : Option Numeral :=
  match span false s.toList with
  | (n, []) => if n.whole.isEmpty then none else some n
  | _ => none

end Numeral

end GatedQuery
