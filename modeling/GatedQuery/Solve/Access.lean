import GatedQuery.AllowList.Basic
import GatedQuery.Query.Canonical

/-! Resolving a query reaches out of the query in four ways: it enters an entry point, runs a filter,
reads an attribute or calls a method. A run keeps its accesses in order, also when it fails. -/

namespace GatedQuery

/-- One way in which a run reached out. -/
inductive Access (O : Type) where
  | enter (name : String) (args : Arguments O)
  | filter (f : Filter O) (receiver : Value O) (args : Arguments O)
  | read (receiver : O) (name : String)
  | call (receiver : O) (name : String) (args : Arguments O)

/-- Why a query could not be resolved, at the step that failed. -/
inductive ResolutionError where
  | unknownEntryPoint (name : String) (position : Position)
  | notAllowed (name type : String) (position : Position)
  /-- The member is allowed but the value does not have it. -/
  | memberNotFound (name type : String) (position : Position)
  | indexNotFound (index : Int64) (type : String) (position : Position)
  | notSubscriptable (type : String) (position : Position)
  | notIterable (type : String) (position : Position)
  /-- An entry point, a method or a filter did not answer. -/
  | callFailed (name : String) (position : Position) (cause : CallFailure)
deriving DecidableEq, Repr

namespace ResolutionError

def position : ResolutionError → Position
  | unknownEntryPoint _ p => p
  | notAllowed _ _ p => p
  | memberNotFound _ _ p => p
  | indexNotFound _ _ p => p
  | notSubscriptable _ p => p
  | notIterable _ p => p
  | callFailed _ p _ => p

def message : ResolutionError → String
  | unknownEntryPoint n p => "unknown entry point '" ++ n ++ "' at " ++ p.text
  | notAllowed n t p => "'" ++ n ++ "' is not allowed on " ++ t ++ " at " ++ p.text
  | memberNotFound n t p => "'" ++ n ++ "' not found on " ++ t ++ " at " ++ p.text
  | indexNotFound i t p =>
    "index " ++ Text.decimal i ++ " not found on " ++ t ++ " at " ++ p.text
  | notSubscriptable t p => t ++ " cannot be indexed or sliced at " ++ p.text
  | notIterable t p => t ++ " is not iterable at " ++ p.text
  | callFailed n p cause => "'" ++ n ++ "' failed at " ++ p.text ++ ": " ++ cause.message

/-- The text that whoever sent the query may see. It does not tell a denied member from one that
does not exist, and it names neither types nor causes. -/
def publicMessage : ResolutionError → String
  | unknownEntryPoint n p | notAllowed n _ p | memberNotFound n _ p =>
    "'" ++ n ++ "' is not available at " ++ p.text
  | indexNotFound i _ p => "index " ++ Text.decimal i ++ " is not available at " ++ p.text
  | notSubscriptable _ p | notIterable _ p => "value cannot be resolved at " ++ p.text
  | callFailed n p _ => "'" ++ n ++ "' failed at " ++ p.text

end ResolutionError

/-- A run that keeps its accesses: what was accessed, in order, and how the run ended. -/
structure Run (O α : Type) where
  accesses : List (Access O)
  outcome : Except ResolutionError α

namespace Run

variable {O α β : Type}

def done (x : α) : Run O α := ⟨[], .ok x⟩

def fail (e : ResolutionError) : Run O α := ⟨[], .error e⟩

/-- The run that makes one access and ends with an outcome. -/
def access (a : Access O) (outcome : Except ResolutionError α) : Run O α := ⟨[a], outcome⟩

/-- Go on with a run that depends on the result. After a failure nothing else is accessed. -/
def andThen (r : Run O α) (f : α → Run O β) : Run O β :=
  match r.outcome with
  | .ok x => ⟨r.accesses ++ (f x).accesses, (f x).outcome⟩
  | .error e => ⟨r.accesses, .error e⟩

instance : Monad (Run O) where
  pure := done
  bind := andThen

/-- The results of a run for each of the items, in order. -/
def each (f : α → Run O β) : List α → Run O (List β)
  | [] => pure []
  | x :: xs => do
    let y ← f x
    let ys ← each f xs
    return y :: ys

end Run

end GatedQuery
