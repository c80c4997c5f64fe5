import GatedQuery.Filter.Basic

/-! Items and entries are kept in their order. -/

namespace GatedQuery.Builtin

variable {O : Type} [Inspectable O]

def receiveList (v : Value O) : Except CallFailure (List (Value O)) :=
  receive "a list" Value.list? v

def receiveMap (v : Value O) : Except CallFailure (List (String × Value O)) :=
  receive "a map" Value.map? v

/-- The number of characters, items or entries of a value that has any. -/
def length? : Value O → Option Nat
  | .string s => some s.length
  | .list items => some items.length
  | .map entries => some entries.length
  | _ => none

def length : Builtin O where
  name := "length"
  params := []
  body v _ := do
    return .integer (Int64.ofNat (← receive "a string, list or map" length? v))

/-- A filter without parameters that looks at the items of a list. -/
def ofItems (name : String) (f : List (Value O) → Value O) : Builtin O where
  name := name
  params := []
  body v _ := do return f (← receiveList v)

/-- A filter without parameters that looks at the entries of a map. -/
def ofEntries (name : String) (f : List (String × Value O) → Value O) : Builtin O where
  name := name
  params := []
  body v _ := do return f (← receiveMap v)

def first : Builtin O := ofItems "first" fun items => items.head?.getD .null

def last : Builtin O := ofItems "last" fun items => items.getLast?.getD .null

def reverse : Builtin O := ofItems "reverse" fun items => .list items.reverse

def joined (v : Value O) : Except CallFailure String :=
  match v with
  | .string s => .ok s
  | _ => .error (.failed ("cannot join " ++ v.typeName))

/-- The items one after another, with a separator between them. They have to be strings. -/
def join : Builtin O where
  name := "join"
  params := ["sep"]
  body v args := do
    let sep ← args.getString? 0 "sep"
    let texts ← (← receiveList v).mapM joined
    return .string ((sep.getD "").intercalate texts)

def keys : Builtin O := ofEntries "keys" fun entries => .list (entries.map fun e => .string e.1)

def values : Builtin O := ofEntries "values" fun entries => .list (entries.map Prod.snd)

/-- The value of the first entry under a key, or else the default. -/
def get : Builtin O where
  name := "get"
  params := ["key", "default"]
  body v args := do
    let key ← args.getString 0 "key"
    let entries ← receiveMap v
    return (entries.lookup key <|> args.get? 1 "default").getD .null

end GatedQuery.Builtin
