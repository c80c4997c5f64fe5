import GatedQuery.AllowList.Declaration
import GatedQuery.Command.Error
import GatedQuery.Json.Fields
import GatedQuery.Json.Reader
import GatedQuery.Text.Pieces

/-! An allow-list can be declared in JSON. The types of a configuration are declared in the order of
their names; a type that is written twice has its last declaration. -/

namespace GatedQuery

inductive AllowEntry where
  | name (member : String)
  /-- A member for which a builtin filter stands in. -/
  | filter (member builtin : String)
deriving DecidableEq, Repr

structure TypeConfiguration where
  supertypes : List String
  allow : List AllowEntry
  builtins : Bool
  inherit : Bool
  propagate : Bool
deriving DecidableEq, Repr

structure Configuration where
  /-- The keys of the document that are entry points; all of them if this is left out. -/
  entryPoints : Option (List String)
  types : List (String × TypeConfiguration)
deriving DecidableEq, Repr

namespace AllowEntry

/-- Read an entry: a name, or an object with a name and a filter. Other keys do not count. -/
def ofJson? : Json → Option AllowEntry
  | .string s => some (.name s)
  | .object members => do
    let names := ["name", "filter"]
    let counted := Json.object (members.filter fun m => names.contains m.1)
    let fields ← counted.fields? names
    let member ← (← fields.lookup "name").text?
    let builtin ← (← fields.lookup "filter").text?
    return .filter member builtin
  | _ => none

end AllowEntry

namespace TypeConfiguration

def ofJson? (j : Json) : Option TypeConfiguration := do
  let fields ← j.fields? ["extends", "allow", "builtins", "inherit", "propagate"]
  return {
    supertypes := ← Json.field? fields "extends" [] (Json.listOf? Json.text?)
    allow := ← Json.field? fields "allow" [] (Json.listOf? AllowEntry.ofJson?)
    builtins := ← Json.field? fields "builtins" false Json.flag?
    inherit := ← Json.field? fields "inherit" true Json.flag?
    propagate := ← Json.field? fields "propagate" true Json.flag? }

end TypeConfiguration

namespace Configuration

/-- Put an entry in the place of its key, or replace the entry that is there. -/
def insertSorted {α : Type} (key : String) (value : α) : List (String × α) → List (String × α)
  | [] => [(key, value)]
  | (k, v) :: es =>
    if key = k then (key, value) :: es
    else if key < k then (key, value) :: (k, v) :: es
    else (k, v) :: insertSorted key value es

def typesOfJson? : Json → Option (List (String × TypeConfiguration))
  | .object members => do
    let types ← members.mapM fun m => do return (m.1, ← TypeConfiguration.ofJson? m.2)
    return types.foldl (fun es e => insertSorted e.1 e.2 es) []
  | _ => none

def ofJson? (j : Json) : Option Configuration := do
  let fields ← j.fields? ["entry_points", "types"]
  return {
    entryPoints :=
      ← Json.field? fields "entry_points" none (Json.orNull? (Json.listOf? Json.text?))
    types := ← Json.field? fields "types" [] typesOfJson? }

def ofText (s : String) : Except CommandError Configuration :=
  match (Json.ofText? s).bind ofJson? with
  | some c => .ok c
  | none => .error .invalidJson

variable {O : Type} [Inspectable O]

/-- The builtin filter of a qualified name: the type, a dot and the name of the filter. -/
def builtin? (qualified : String) : Option (Builtin O) := do
  let (type, name) ← Text.cutOnce? '.' qualified.toList
  Builtin.find? (String.ofList type) (String.ofList name)

def member : AllowEntry → Except CommandError (String × Accessor O)
  | .name n => .ok (n, .native)
  | .filter n qualified =>
    match builtin? qualified with
    | some b => .ok (n, .filter (b.toFilter qualified))
    | none => .error (.invalidConfiguration ("unknown builtin filter '" ++ qualified ++ "'"))

def typeSteps (name : String) (c : TypeConfiguration) :
    Except CommandError (List (Declaration O)) := do
  let members ← c.allow.mapM member
  let declared := .type ⟨name, c.supertypes, members, c.inherit, c.propagate⟩
  return if c.builtins then [declared, .builtins name] else [declared]

def steps (c : Configuration) : Except CommandError (List (Declaration O)) := do
  return (← c.types.mapM fun t => typeSteps t.1 t.2).flatten

def exposes (c : Configuration) (key : String) : Bool :=
  c.entryPoints.all fun names => names.contains key

end Configuration

end GatedQuery
