import GatedQuery.Query.Basic

/-! A value is plain data or a handle to a live object of a backend. What an object answers is not part
of the value: a backend is given by a type `O` of handles and, in `GatedQuery.Value.Backend`, by its
answers on them. -/

namespace GatedQuery

inductive Value (O : Type) where
  | null
  | boolean (b : Bool)
  | integer (n : Int64)
  | float (x : Float)
  | string (s : String)
  | list (items : List (Value O))
  /-- Entries in the order of insertion. A key may occur more than once; its first entry counts. -/
  | map (entries : List (String × Value O))
  | object (o : O)

namespace Value

variable {O : Type}

instance : Inhabited (Value O) := ⟨null⟩

def isNull : Value O → Bool
  | null => true
  | _ => false

def string? : Value O → Option String
  | string s => some s
  | _ => none

def integer? : Value O → Option Int64
  | integer n => some n
  | _ => none

/-- A number as a float. An integer is rounded to the nearest one. -/
def float? : Value O → Option Float
  | integer n => some (Float.ofInt n.toInt)
  | float x => some x
  | _ => none

def boolean? : Value O → Option Bool
  | boolean b => some b
  | _ => none

def list? : Value O → Option (List (Value O))
  | list items => some items
  | _ => none

def map? : Value O → Option (List (String × Value O))
  | map entries => some entries
  | _ => none

def get? (key : String) : Value O → Option (Value O)
  | map entries => entries.lookup key
  | _ => none

def ofLiteral : Literal → Value O
  | .null => null
  | .boolean b => boolean b
  | .integer n => integer n
  | .float x => float x
  | .string s => string s

mutual

/-- Equality of values. Floats compare as numbers, so one of them differs from itself, and objects
compare by their handles. -/
def same [BEq O] : Value O → Value O → Bool
  | null, null => true
  | boolean a, boolean b => a == b
  | integer a, integer b => a == b
  | float a, float b => a == b
  | string a, string b => a == b
  | list a, list b => sameItems a b
  | map a, map b => sameEntries a b
  | object a, object b => a == b
  | _, _ => false

def sameItems [BEq O] : List (Value O) → List (Value O) → Bool
  | [], [] => true
  | a :: as, b :: bs => same a b && sameItems as bs
  | _, _ => false

def sameEntries [BEq O] : List (String × Value O) → List (String × Value O) → Bool
  | [], [] => true
  | (k, a) :: as, (l, b) :: bs => k == l && same a b && sameEntries as bs
  | _, _ => false

end

instance [BEq O] : BEq (Value O) := ⟨same⟩

end Value

end GatedQuery
