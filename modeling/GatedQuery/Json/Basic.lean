/-! An object keeps its members in the order of the text. A text may repeat a key; `Json.merged` gives
the tree in which every key occurs once. -/

namespace GatedQuery

/-- A JSON value. Numbers are 64-bit integers where they fit, and floats otherwise. -/
inductive Json where
  | null
  | boolean (b : Bool)
  | integer (n : Int64)
  | float (x : Float)
  | string (s : String)
  | array (items : List Json)
  | object (members : List (String × Json))

namespace Json

instance : Inhabited Json := ⟨null⟩

/-- Add a member at the end, or replace the value of the member that has its key. -/
def setMember (key : String) (value : Json) : List (String × Json) → List (String × Json)
  | [] => [(key, value)]
  | (k, v) :: ms => if k = key then (k, value) :: ms else (k, v) :: setMember key value ms

/-- Members without repeated keys: a key keeps its first place and takes its last value. -/
def mergeMembers (members : List (String × Json)) : List (String × Json) :=
  members.foldl (fun ms m => setMember m.1 m.2 ms) []

mutual

def merged : Json → Json
  | array items => array (mergedItems items)
  | object members => object (mergeMembers (mergedValues members))
  | j => j

def mergedItems : List Json → List Json
  | [] => []
  | j :: js => j.merged :: mergedItems js

def mergedValues : List (String × Json) → List (String × Json)
  | [] => []
  | (k, j) :: ms => (k, j.merged) :: mergedValues ms

end

end Json

end GatedQuery
