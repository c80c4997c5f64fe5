import GatedQuery.AllowList.Declaration

/-! The ancestors of a type are found level by level. A level holds the types that the level before it
extends and that no level before it holds, so that every ancestor stands in the level of its least
distance. -/

namespace GatedQuery

variable {O : Type}

/-- The declared types, as the inheritance between them has it. -/
abbrev Hierarchy (O : Type) := List (TypeDeclaration O)

namespace Hierarchy

def find? (h : Hierarchy O) (name : String) : Option (TypeDeclaration O) :=
  List.find? (fun d => d.name == name) h

def supertypes (h : Hierarchy O) (name : String) : List String :=
  match h.find? name with
  | some d => d.supertypes
  | none => []

/-- The types that a level extends and that are not found yet. -/
def nextLevel (h : Hierarchy O) (found level : List String) : List String :=
  (level.flatMap h.supertypes).eraseDups.filter fun s => !found.contains s

/-- The types above a level with their distances. Every level that is not empty finds a declared
type, so `fuel` need not exceed the number of types. -/
def ancestorsAbove (h : Hierarchy O) :
    Nat → Nat → List String → List String → List (String × Nat)
  | 0, _, _, _ => []
  | fuel + 1, distance, found, level =>
    let next := h.nextLevel found level
    next.map (·, distance) ++ ancestorsAbove h fuel (distance + 1) (found ++ next) next

/-- The types that can be reached from a type by one or more steps to a supertype, each with the
least number of steps. A type that inherits from itself is among its own ancestors. -/
def ancestors (h : Hierarchy O) (name : String) : List (String × Nat) :=
  h.ancestorsAbove h.length 1 [] [name]

def isAbove (h : Hierarchy O) (upper lower : String) : Bool :=
  (h.ancestors lower).any fun a => a.1 == upper

end Hierarchy

end GatedQuery
