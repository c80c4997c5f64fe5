import GatedQuery.Solve.Step

/-! A field gives plain data, an object gives a map with the keys of its children, and a list gives one
result for every element. Objects of a backend that reach a field are replaced by their texts. -/

namespace GatedQuery

namespace Value

variable {O : Type} [Backend O]

mutual

def plain : Value O → Value O
  | object o => .string (Backend.render o)
  | list items => .list (plainItems items)
  | map entries => .map (plainEntries entries)
  | v => v

def plainItems : List (Value O) → List (Value O)
  | [] => []
  | v :: vs => v.plain :: plainItems vs

def plainEntries : List (String × Value O) → List (String × Value O)
  | [] => []
  | (k, v) :: es => (k, v.plain) :: plainEntries es

end

/-- The elements that a list resource iterates over. Null has none, and a map has its values. -/
def elements : Value O → Option (List (Value O))
  | null => some []
  | map entries => some (entries.map Prod.snd)
  | v => v.subscripts

end Value

variable {O : Type} [Backend O]

/-- The elements of a value for the list resource at a position. -/
def iterate (position : Position) (v : Value O) : Run O (List (Value O)) :=
  match v.elements with
  | some items => pure items
  | none => .fail (.notIterable v.typeName position)

mutual

def resolve (a : AllowList O) : Resource → Value O → Run O (Value O)
  | .field h, v => do
    let v ← follow a h.chain v
    return v.plain
  | .list h body, v => do
    let v ← follow a h.chain v
    let items ← iterate h.position v
    let results ← Run.each (fun item => resolveBody a body item) items
    return .list results
  | .object h children, v => do
    let v ← follow a h.chain v
    let entries ← resolveChildren a children v
    return .map entries

/-- Resolve the body of a list against one element. A single resource gives its own result, and
several give the list of theirs. -/
def resolveBody (a : AllowList O) : List Resource → Value O → Run O (Value O)
  | [], _ => return .list []
  | [r], v => resolve a r v
  | r :: s :: rs, v => do
    let first ← resolve a r v
    let rest ← resolveAll a (s :: rs) v
    return .list (first :: rest)

def resolveAll (a : AllowList O) : List Resource → Value O → Run O (List (Value O))
  | [], _ => return []
  | r :: rs, v => do
    let first ← resolve a r v
    let rest ← resolveAll a rs v
    return first :: rest

/-- Resolve the children of an object against a value, in order, each under its key. -/
def resolveChildren (a : AllowList O) :
    List Resource → Value O → Run O (List (String × Value O))
  | [], _ => return []
  | r :: rs, v => do
    let first ← resolve a r v
    let rest ← resolveChildren a rs v
    return (r.key?.getD "", first) :: rest

end

def enter (a : AllowList O) (q : Query) (position : Position) : Run O (Value O) :=
  match a.entryPoint? q.entryPoint with
  | none => .fail (.unknownEntryPoint q.entryPoint position)
  | some e =>
    let args := Arguments.ofQuery q.entryArguments
    .access (.enter q.entryPoint args) (called q.entryPoint position (e.enter args))

/-- Resolve a query. One without any step has nothing to start from but null. -/
def solve (a : AllowList O) (q : Query) : Run O (Value O) := do
  let root ←
    match q.head.chain with
    | [] => pure .null
    | first :: chain => do
      let v ← enter a q first.position
      follow a chain v
  let entries ← resolveChildren a q.children root
  return .map entries

end GatedQuery
