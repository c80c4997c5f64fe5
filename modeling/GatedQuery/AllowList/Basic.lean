import GatedQuery.Filter.Basic
import GatedQuery.Text.Quoted

/-! An allow-list says what a query may reach: entry points by name and, for every declared type,
members by name. What it does not list is denied, also where a value has it. -/

namespace GatedQuery

/-- How an allowed member is resolved. -/
inductive Accessor (O : Type) where
  /-- By the attribute or method of the value itself. -/
  | native
  /-- By a filter that stands in for the member. -/
  | filter (f : Filter O)

namespace Accessor

variable {O : Type}

/-- Whether the member is resolved by the value itself. -/
def isNative : Accessor O → Bool
  | native => true
  | filter _ => false

/-- How a message shows an accessor. What a filter does is not shown. -/
def shown : Accessor O → String
  | native => "Native"
  | filter _ => "Filter(..)"

end Accessor

/-- A named root that a query can start from. -/
structure EntryPoint (O : Type) where
  name : String
  /-- The root value for the arguments of a query. -/
  enter : Arguments O → Except CallFailure (Value O)

def EntryPoint.shown {O : Type} (e : EntryPoint O) : String :=
  "EntryPoint \x7b name: " ++ Text.shown e.name ++ " \x7d"

/-- The allowed members of a type. -/
abbrev MemberTable (O : Type) := List (String × Accessor O)

/-- What queries may reach. -/
structure AllowList (O : Type) where
  entries : List (EntryPoint O)
  types : List (String × MemberTable O)

namespace AllowList

variable {O : Type}

def entryPoint? (a : AllowList O) (name : String) : Option (EntryPoint O) :=
  a.entries.find? fun e => e.name == name

/-- How a member of a type is resolved. It is denied if there is no accessor. -/
def accessor? (a : AllowList O) (type member : String) : Option (Accessor O) := do
  (← a.types.lookup type).lookup member

def sortedNames (names : List String) : List String :=
  names.mergeSort fun a b => !(b < a : Bool)

def entryNames (a : AllowList O) : List String :=
  sortedNames (a.entries.map EntryPoint.name)

def typeNames (a : AllowList O) : List String :=
  sortedNames (a.types.map Prod.fst)

def memberNames (a : AllowList O) (type : String) : List String :=
  sortedNames (((a.types.lookup type).getD []).map Prod.fst)

end AllowList

end GatedQuery
