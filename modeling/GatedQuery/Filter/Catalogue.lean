import GatedQuery.Filter.Collections
import GatedQuery.Filter.Numbers
import GatedQuery.Filter.Strings

/-! Builtin filters are listed by the type of value that they are for. None of them can be reached until
it is allowed. -/

namespace GatedQuery.Builtin

variable {O : Type} [Inspectable O]

def ofStrings : List (Builtin O) :=
  [upper, lower, strip, length, startsWith, endsWith, contains, split, matchesPattern, replace]

def ofLists : List (Builtin O) :=
  [length, first, last, reverse, join]

def ofMaps : List (Builtin O) :=
  [keys, values, get, length]

def ofNumbers : List (Builtin O) :=
  [abs, round]

def forType : String → List (Builtin O)
  | "string" => ofStrings
  | "list" => ofLists
  | "map" => ofMaps
  | "integer" | "float" => ofNumbers
  | _ => []

def find? (type name : String) : Option (Builtin O) :=
  (forType type).find? fun b => b.name == name

end GatedQuery.Builtin
