import GatedQuery.Json.Basic
import GatedQuery.Value.Backend

/-! An object is written as its text, so nothing else of a backend reaches an answer. -/

namespace GatedQuery.Value

variable {O : Type} [Backend O]

mutual

def toJson : Value O → Json
  | null => .null
  | boolean b => .boolean b
  | integer n => .integer n
  | float x => .float x
  | string s => .string s
  | list items => .array (toJsonItems items)
  | map entries => .object (toJsonMembers entries)
  | object o => .string (Backend.render o)

def toJsonItems : List (Value O) → List Json
  | [] => []
  | v :: vs => v.toJson :: toJsonItems vs

def toJsonMembers : List (String × Value O) → List (String × Json)
  | [] => []
  | (k, v) :: es => (k, v.toJson) :: toJsonMembers es

end

end GatedQuery.Value
