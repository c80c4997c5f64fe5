import GatedQuery.Command.Configuration
import GatedQuery.Document.Values
import GatedQuery.Execution
import GatedQuery.Json.Writer
import GatedQuery.Value.Encoding

/-! A query runs against a JSON document whose top-level keys are entry points. The configuration says
which of them, and which members of the document's records, a query may reach. -/

namespace GatedQuery

structure RunOptions where
  query : String
  configuration : String
  /-- The text of the document, if there is one. -/
  document : Option String
  pretty : Bool

/-- The entry point for a key of the document. It takes no arguments. -/
def documentRoot (key : String) (root : Value DocumentObject) : EntryPoint DocumentObject where
  name := key
  enter args := if args.isEmpty then .ok root else .error (.unexpectedArgument "#1")

def documentRoots (text : String) : Except CommandError (List (String × Json)) :=
  match (Json.ofText? text).map Json.merged with
  | some (.object roots) => .ok roots
  | some _ =>
    .error (.invalidDocument "top level must be an object whose keys are entry points")
  | none => .error .invalidJson

/-- Refuse a configuration that names an entry point which is not in the document. -/
def checkEntryPoints (c : Configuration) (roots : List (String × Json)) :
    Except CommandError Unit :=
  (c.entryPoints.getD []).forM fun name =>
    if (roots.lookup name).isSome then .ok ()
    else .error (.invalidDocument ("entry point '" ++ name ++ "' is not in the document"))

def documentAllowList (order : VisitingOrder DocumentObject) (c : Configuration)
    (roots : List (String × Json)) : Except CommandError (AllowList DocumentObject) := do
  let types ← c.steps
  let exposed := roots.filter fun root => c.exposes root.1
  let entries := exposed.map fun root => .entry (documentRoot root.1 root.2.toDocument)
  (AllowList.ofStepsVisiting order (types ++ entries)).mapError .declaration

/-- Run a query. The result is the JSON text of the answer. The order in which inherited members are
visited decides which of several ambiguous members of a type is reported. -/
def runQueryVisiting (order : VisitingOrder DocumentObject) (options : RunOptions) :
    Except CommandError String := do
  let q ← (Query.ofText options.query).mapError .query
  let c ← Configuration.ofText options.configuration
  match options.document with
  | none => throw .noInput
  | some text =>
    let roots ← documentRoots text
    checkEntryPoints c roots
    let a ← documentAllowList order c roots
    let answer ← (solve a q).outcome.mapError .resolution
    return if options.pretty then answer.toJson.pretty else answer.toJson.compact

def runQuery (options : RunOptions) : Except CommandError String :=
  runQueryVisiting .found options

end GatedQuery
