/-! Bounds are 64-bit integers. Negative ones count from the end; a bound of a slice that lies outside
the sequence is moved to its edge. A slice with a negative step walks backwards and starts at the
last item. -/

namespace GatedQuery.Slice

/-- The length of a sequence as a 64-bit integer, the greatest one if it does not fit. -/
def lengthWord (len : Nat) : Int64 :=
  if (len : Int) ≤ Int64.maxValue.toInt then Int64.ofNat len else Int64.maxValue

/-- The place of an index in a sequence, if there is such a place. -/
def resolve? (i : Int64) (len : Nat) : Option Nat :=
  let n := lengthWord len
  let place := if i < 0 then i + n else i
  if 0 ≤ place && place < n then some place.toInt.toNat else none

/-- The sum of two integers, if it is a 64-bit integer. -/
def add? (a b : Int64) : Option Int64 :=
  let sum := a.toInt + b.toInt
  if Int64.minValue.toInt ≤ sum && sum ≤ Int64.maxValue.toInt then some (a + b) else none

/-- The edges of a sequence in the direction of the step: the places before which, or at which, a
walk can start and end. -/
def edges (n step : Int64) : Int64 × Int64 :=
  if step < 0 then (-1, n - 1) else (0, n)

def clamp (n lower upper bound : Int64) : Int64 :=
  if bound < 0 then max (bound + n) lower else min bound upper

def first (n step : Int64) (start : Option Int64) : Int64 :=
  let (lower, upper) := edges n step
  match start with
  | some b => clamp n lower upper b
  | none => if step < 0 then upper else lower

def last (n step : Int64) (stop : Option Int64) : Int64 :=
  let (lower, upper) := edges n step
  match stop with
  | some b => clamp n lower upper b
  | none => if step < 0 then lower else upper

/-- The places `i`, `i + step`, … as long as they lie before `stop` in the direction of the step. A
walk visits no place of the sequence twice, so `fuel` need not exceed the length. -/
def walk (step stop : Int64) : Nat → Int64 → List Nat
  | 0, _ => []
  | fuel + 1, i =>
    if (0 < step && i < stop) || (step < 0 && stop < i) then
      i.toInt.toNat ::
        match add? i step with
        | some next => walk step stop fuel next
        | none => []
    else []

/-- The places that a slice selects from a sequence, in order. -/
def indices (len : Nat) (start stop : Option Int64) (step : Int64) : List Nat :=
  let n := lengthWord len
  walk step (last n step stop) n.toInt.toNat (first n step start)

def select {α : Type} (items : List α) (start stop : Option Int64) (step : Int64) : List α :=
  (indices items.length start stop step).filterMap fun i => items[i]?

def item? {α : Type} (items : List α) (i : Int64) : Option α :=
  (resolve? i items.length).bind fun place => items[place]?

end GatedQuery.Slice
