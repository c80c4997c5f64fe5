import GatedQuery.Solve.Access
import GatedQuery.Solve.Slice

/-! A step with a name needs an accessor for the type of the current value. Indexes and slices need
none. A chain that reaches null stops there. -/

namespace GatedQuery

namespace Value

variable {O : Type} [Backend O]

/-- The items that an index or a slice counts. Characters of a string are strings. -/
def subscripts : Value O → Option (List (Value O))
  | list items => some items
  | string s => some (s.toList.map fun c => .string c.toString)
  | object o => Backend.elements o
  | _ => none

/-- The item at an index, or the entry of a map under the text of the index. -/
def item (v : Value O) (i : Int64) (position : Position) : Except ResolutionError (Value O) :=
  let found :=
    match v with
    | map entries => some (entries.lookup (Text.decimal i))
    | _ => v.subscripts.map fun items => Slice.item? items i
  match found with
  | none => .error (.notSubscriptable v.typeName position)
  | some none => .error (.indexNotFound i v.typeName position)
  | some (some x) => .ok x

/-- The items that a slice selects. A slice of a string is a string. -/
def slice (v : Value O) (start stop : Option Int64) (step : Int64) (position : Position) :
    Except ResolutionError (Value O) :=
  match v with
  | string s => .ok (.string (String.ofList (Slice.select s.toList start stop step)))
  | _ =>
    match v.subscripts with
    | some items => .ok (.list (Slice.select items start stop step))
    | none => .error (.notSubscriptable v.typeName position)

end Value

variable {O : Type} [Backend O]

def memberNotFound (name : String) (v : Value O) (position : Position) : ResolutionError :=
  .memberNotFound name v.typeName position

/-- The outcome of something callable that is reached by a name. -/
def called {α : Type} (name : String) (position : Position) (answer : Except CallFailure α) :
    Except ResolutionError α :=
  answer.mapError (.callFailed name position)

def runFilter (f : Filter O) (name : String) (args : Arguments O) (position : Position)
    (v : Value O) : Run O (Value O) :=
  .access (.filter f v args) (called name position (f.run v args))

def readAttribute (o : O) (name : String) : Run O (Option (Value O)) :=
  .access (.read o name) (.ok (Inspectable.read o name))

def callMethod (o : O) (name : String) (args : Arguments O) :
    Run O (Option (Except CallFailure (Value O))) :=
  .access (.call o name args) (.ok (Backend.call o name args))

def Run.ofOutcome {α : Type} (outcome : Except ResolutionError α) : Run O α :=
  ⟨[], outcome⟩

/-- Read a member of a value that has it. A method of an object that is named without arguments is
called. -/
def readMember (name : String) (position : Position) (v : Value O) : Run O (Value O) :=
  match v with
  | .map entries =>
    match entries.lookup name with
    | some x => pure x
    | none => .fail (memberNotFound name v position)
  | .object o => do
    match ← readAttribute o name with
    | some x => return x
    | none =>
      match ← callMethod o name .none with
      | some answer => .ofOutcome (called name position answer)
      | none => .fail (memberNotFound name v position)
  | _ => .fail (memberNotFound name v position)

/-- The failure to call a member, which may still be an attribute. -/
def notCallable (name : String) (v : Value O) (position : Position) (isAttribute : Bool) :
    Run O (Value O) :=
  if isAttribute then .fail (.callFailed name position (.notCallable name))
  else .fail (memberNotFound name v position)

/-- Call a member of a value. Only objects have members that can be called. -/
def callMember (name : String) (args : Arguments O) (position : Position) (v : Value O) :
    Run O (Value O) :=
  match v with
  | .map entries => notCallable name v position (entries.lookup name).isSome
  | .object o => do
    match ← callMethod o name args with
    | some answer => .ofOutcome (called name position answer)
    | none => notCallable name v position (← readAttribute o name).isSome
  | _ => notCallable name v position false

/-- The accessor of a member for the type of the current value. -/
def allowed (a : AllowList O) (name : String) (position : Position) (v : Value O) :
    Run O (Accessor O) :=
  match a.accessor? v.typeName name with
  | some accessor => pure accessor
  | none => .fail (.notAllowed name v.typeName position)

/-- Take one step from a value. A slice without a step goes on by one. -/
def takeStep (a : AllowList O) (s : Step) (v : Value O) : Run O (Value O) :=
  match s with
  | .member name position => do
    match ← allowed a name position v with
    | .native => readMember name position v
    | .filter f => runFilter f name .none position v
  | .call name args position => do
    match ← allowed a name position v with
    | .native => callMember name (.ofQuery args) position v
    | .filter f => runFilter f name (.ofQuery args) position v
  | .index i position => .ofOutcome (v.item i position)
  | .slice start stop step position => .ofOutcome (v.slice start stop (step.getD 1) position)

def follow (a : AllowList O) : List Step → Value O → Run O (Value O)
  | [], v => pure v
  | s :: ss, v =>
    if v.isNull then pure .null
    else do
      let next ← takeStep a s v
      follow a ss next

end GatedQuery
