import GatedQuery.Command.Error
import GatedQuery.Query.Canonical

/-! A query can be checked without running it. A valid query is acknowledged or shown in its canonical
form. -/

namespace GatedQuery

inductive CheckResult where
  | valid
  | canonical (text : String)

def check (text : String) (canonical : Bool) : Except CommandError CheckResult := do
  let q ← (Query.ofText text).mapError .query
  return if canonical then .canonical q.canonical else .valid

end GatedQuery
