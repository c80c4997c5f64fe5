import GatedQuery.Document.Record
import GatedQuery.Json.Basic

/-! A JSON object that names its type becomes a record of that type, so that its fields are governed
like the members of any object. All other JSON becomes plain data. -/

namespace GatedQuery

/-- The key under which an object names its type. -/
def typeKey : String := "__type__"

namespace Json

def recordType? (members : List (String × Json)) : Option String :=
  match members.lookup typeKey with
  | some (.string name) => some name
  | _ => none

variable {O : Type}

/-- A map, or the record of the type that the members name, for entries that hold their values. -/
def assemble (wrap : Record O → O) (members : List (String × Json))
    (entries : List (String × Value O)) : Value O :=
  match recordType? members with
  | some name => .object (wrap ⟨name, entries.filter fun e => e.1 != typeKey⟩)
  | none => .map entries

mutual

/-- The value of a JSON tree, with objects made from records by `wrap`. -/
def toValue (wrap : Record O → O) : Json → Value O
  | null => .null
  | boolean b => .boolean b
  | integer n => .integer n
  | float x => .float x
  | string s => .string s
  | array items => .list (toValues wrap items)
  | object members => assemble wrap members (toEntries wrap members)

def toValues (wrap : Record O → O) : List Json → List (Value O)
  | [] => []
  | j :: js => j.toValue wrap :: toValues wrap js

def toEntries (wrap : Record O → O) : List (String × Json) → List (String × Value O)
  | [] => []
  | (k, j) :: ms => (k, j.toValue wrap) :: toEntries wrap ms

end

def toDocument : Json → Value DocumentObject :=
  toValue .record

end Json

end GatedQuery
