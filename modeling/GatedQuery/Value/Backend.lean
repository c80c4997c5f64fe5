import GatedQuery.Value.Basic

/-! A backend answers for its objects: their type, their attributes and methods, their elements and the
text that stands for them in an answer. Whether a query may ask is not decided here. -/

namespace GatedQuery

structure Arguments (O : Type) where
  positional : List (Value O)
  named : List (String × Value O)

inductive CallFailure where
  | missingArgument (name : String)
  | unexpectedArgument (name : String)
  | invalidArgument (name expected found : String)
  | invalidReceiver (expected found : String)
  | notCallable (name : String)
  | failed (message : String)
  /-- A pattern is not a regular expression. -/
  | invalidPattern
  /-- A failure of the backend's own. -/
  | foreign (message : String)
deriving DecidableEq, Repr

namespace CallFailure

def message : CallFailure → String
  | missingArgument n => "missing argument '" ++ n ++ "'"
  | unexpectedArgument n => "unexpected argument '" ++ n ++ "'"
  | invalidArgument n expected found =>
    "argument '" ++ n ++ "' must be " ++ expected ++ ", found " ++ found
  | invalidReceiver expected found => "expected " ++ expected ++ ", found " ++ found
  | notCallable n => "'" ++ n ++ "' is not callable"
  | failed m => m
  | invalidPattern => "invalid pattern"
  | foreign m => m

end CallFailure

/-- What can be seen of an object without running anything. -/
class Inspectable (O : Type) where
  /-- The name of the object's type. -/
  typeName : O → String
  /-- The attribute of a name, if there is one. -/
  read : O → String → Option (Value O) := fun _ _ => none

/-- The answers of a backend for its objects. Only the type has to be known; what else is left out
is not there. -/
class Backend (O : Type) extends Inspectable O where
  /-- The answer of the method of a name, if there is one. -/
  call : O → String → Arguments O → Option (Except CallFailure (Value O)) := fun _ _ _ => none
  /-- The elements in their natural order, if the object can be iterated. -/
  elements : O → Option (List (Value O)) := fun _ => none
  /-- The text that stands for the object in an answer. -/
  render : O → String := fun o => "<" ++ typeName o ++ ">"

namespace Value

variable {O : Type} [Inspectable O]

/-- The name of the type of a value. Plain data has seven types; an object has its own. -/
def typeName : Value O → String
  | null => "null"
  | boolean _ => "boolean"
  | integer _ => "integer"
  | float _ => "float"
  | string _ => "string"
  | list _ => "list"
  | map _ => "map"
  | object o => Inspectable.typeName o

end Value

namespace Arguments

variable {O : Type}

def none : Arguments O := ⟨[], []⟩

instance : EmptyCollection (Arguments O) := ⟨none⟩

def ofQuery (as : List Argument) : Arguments O where
  positional := as.filterMap fun
    | .positional v => some (.ofLiteral v)
    | .named .. => .none
  named := as.filterMap fun
    | .positional _ => .none
    | .named n v => some (n, .ofLiteral v)

def size (a : Arguments O) : Nat :=
  a.positional.length + a.named.length

def isEmpty (a : Arguments O) : Bool :=
  a.positional.isEmpty && a.named.isEmpty

/-- The argument for the parameter at `i` with the given name: by position, or else by name. -/
def get? (a : Arguments O) (i : Nat) (name : String) : Option (Value O) :=
  a.positional[i]? <|> a.named.lookup name

/-- The argument for a parameter, which has to be there. -/
def getRequired (a : Arguments O) (i : Nat) (name : String) : Except CallFailure (Value O) :=
  match a.get? i name with
  | some v => .ok v
  | .none => .error (.missingArgument name)

/-- Take an argument apart. A value of another kind is refused. -/
def expect {α : Type} [Inspectable O] (name expected : String) (kind? : Value O → Option α)
    (v : Value O) : Except CallFailure α :=
  match kind? v with
  | some x => .ok x
  | .none => .error (.invalidArgument name expected v.typeName)

def getString [Inspectable O] (a : Arguments O) (i : Nat) (name : String) :
    Except CallFailure String := do
  expect name "a string" Value.string? (← a.getRequired i name)

def getInteger [Inspectable O] (a : Arguments O) (i : Nat) (name : String) :
    Except CallFailure Int64 := do
  expect name "an integer" Value.integer? (← a.getRequired i name)

/-- Take the argument for a parameter that may be left out, also by a null. -/
def getOptional {α : Type} [Inspectable O] (a : Arguments O) (i : Nat) (name expected : String)
    (kind? : Value O → Option α) : Except CallFailure (Option α) :=
  match a.get? i name with
  | .none | some .null => .ok .none
  | some v => (expect name expected kind? v).map some

def getString? [Inspectable O] (a : Arguments O) (i : Nat) (name : String) :
    Except CallFailure (Option String) :=
  a.getOptional i name "a string" Value.string?

def getInteger? [Inspectable O] (a : Arguments O) (i : Nat) (name : String) :
    Except CallFailure (Option Int64) :=
  a.getOptional i name "an integer" Value.integer?

/-- Refuse the first named argument that has no parameter of its own: its name is unknown, or its
parameter is `taken` by position, or an argument `before` it has the same name. -/
def checkNames (params taken : List String) :
    List String → List String → Except CallFailure Unit
  | _, [] => .ok ()
  | before, n :: ns =>
    if !params.contains n || taken.contains n || before.contains n then
      .error (.unexpectedArgument n)
    else checkNames params taken (n :: before) ns

/-- Refuse arguments that the parameters have no place for. -/
def checkAgainst (a : Arguments O) (params : List String) : Except CallFailure Unit :=
  if params.length < a.positional.length then
    .error (.unexpectedArgument ("#" ++ toString (params.length + 1)))
  else checkNames params (params.take a.positional.length) [] (a.named.map Prod.fst)

end Arguments

end GatedQuery
