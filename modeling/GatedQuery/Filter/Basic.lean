import GatedQuery.Value.Backend

/-! A filter is a function that stands in for a member. A builtin filter has a list of parameters: its
arguments are first checked against them and then given to them by name, so that it cannot see how
they were passed. -/

namespace GatedQuery

/-- What a member resolves to instead of native access: a function of the current value and the
arguments. -/
structure Filter (O : Type) where
  /-- What the filter is called in a record of what was run. -/
  label : String
  run : Value O → Arguments O → Except CallFailure (Value O)

namespace Arguments

variable {O : Type}

def byName (params : List String) (a : Arguments O) : Arguments O :=
  ⟨[], params.zipIdx.filterMap fun (name, i) => (a.get? i name).map fun v => (name, v)⟩

end Arguments

structure Builtin (O : Type) where
  name : String
  params : List String
  /-- The answer for a receiver and arguments that have names only. -/
  body : Value O → Arguments O → Except CallFailure (Value O)

namespace Builtin

variable {O : Type}

def run (b : Builtin O) (receiver : Value O) (args : Arguments O) :
    Except CallFailure (Value O) := do
  args.checkAgainst b.params
  b.body receiver (args.byName b.params)

/-- The builtin filter as a filter that is called `label`. -/
def toFilter (label : String) (b : Builtin O) : Filter O :=
  ⟨label, b.run⟩

/-- Take the receiver apart. A value of another kind is refused. -/
def receive {α : Type} [Inspectable O] (expected : String) (kind? : Value O → Option α)
    (v : Value O) : Except CallFailure α :=
  match kind? v with
  | some x => .ok x
  | none => .error (.invalidReceiver expected v.typeName)

end Builtin

end GatedQuery
