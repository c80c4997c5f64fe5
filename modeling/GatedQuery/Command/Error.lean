import GatedQuery.AllowList.Declaration
import GatedQuery.Query.Reading
import GatedQuery.Solve.Access

/-! A command says what kind of thing went wrong before it says what. -/

namespace GatedQuery

inductive CommandError where
  | query (e : QueryError)
  | declaration (e : DeclarationError)
  | resolution (e : ResolutionError)
  /-- A text is no JSON, or not the JSON that is asked for. -/
  | invalidJson
  | noInput
  | invalidConfiguration (problem : String)
  | invalidDocument (problem : String)
  | unknownCategory (name : String)

namespace CommandError

def message : CommandError → String
  | query e => "Parse error: " ++ e.message
  | declaration e => "Registry error: " ++ e.message
  | resolution e => "Query failed: " ++ e.message
  | invalidJson => "Invalid JSON"
  | noInput => "No data provided. Use --data or pipe JSON to stdin."
  | invalidConfiguration problem => "Invalid configuration: " ++ problem
  | invalidDocument problem => "Invalid data document: " ++ problem
  | unknownCategory name =>
    "Unknown category: '" ++ name ++ "'\nRun 'dataql docs' to see available categories."

end CommandError

end GatedQuery
