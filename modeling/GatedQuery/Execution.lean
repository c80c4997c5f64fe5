import GatedQuery.AllowList.Build
import GatedQuery.Query.Reading
import GatedQuery.Solve.Resolve

/-! A query is read and then resolved. Whoever sent the query may see all that is wrong with its text,
and of everything else only what the text already says. -/

namespace GatedQuery

/-- Why there is no answer to a query. -/
inductive ExecutionError where
  | query (e : QueryError)
  | declaration (e : DeclarationError)
  | resolution (e : ResolutionError)

namespace ExecutionError

def message : ExecutionError → String
  | query e => e.message
  | declaration e => e.message
  | resolution e => e.message

def position? : ExecutionError → Option Position
  | query e => some e.position
  | declaration _ => none
  | resolution e => some e.position

def isClientError : ExecutionError → Bool
  | query _ => true
  | _ => false

def publicMessage : ExecutionError → String
  | query e => "bad query: " ++ e.message
  | declaration _ => "query service is misconfigured"
  | resolution e => e.publicMessage

end ExecutionError

variable {O : Type} [Backend O]

/-- What an execution accessed and how it ended. -/
structure Execution (O : Type) where
  accesses : List (Access O)
  outcome : Except ExecutionError (Value O)

def execute (a : AllowList O) (text : String) : Execution O :=
  match Query.ofText text with
  | .error e => ⟨[], .error (.query e)⟩
  | .ok q =>
    let run := solve a q
    ⟨run.accesses, run.outcome.mapError .resolution⟩

end GatedQuery
