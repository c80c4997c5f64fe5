import GatedQuery.Json.Basic

/-! A declaration with fixed fields is an object without unknown and without repeated keys, or an array
of its first fields in order. -/

namespace GatedQuery.Json

def text? : Json → Option String
  | string s => some s
  | _ => none

def flag? : Json → Option Bool
  | boolean b => some b
  | _ => none

def listOf? {α : Type} (read : Json → Option α) : Json → Option (List α)
  | array items => items.mapM read
  | _ => none

def orNull? {α : Type} (read : Json → Option α) : Json → Option (Option α)
  | null => some none
  | j => (read j).map some

/-- The fields that a declaration gives, out of those with the given names. -/
def fields? (names : List String) : Json → Option (List (String × Json))
  | object members =>
    let keys := members.map Prod.fst
    if keys.Nodup && keys.all names.contains then some members else none
  | array items => if items.length ≤ names.length then some (names.zip items) else none
  | _ => none

def field? {α : Type} (fields : List (String × Json)) (name : String) (default : α)
    (read : Json → Option α) : Option α :=
  match fields.lookup name with
  | some j => read j
  | none => some default

end GatedQuery.Json
