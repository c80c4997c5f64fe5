import GatedQuery.AllowList.Ancestry

/-! A type has its own members and those that it inherits. Of the ancestors that declare a member and
hand it down, those that another one of them overrides do not count, and of the rest only the
nearest do. More than one nearest owner is no problem as long as all of them leave the member to the
value itself. -/

namespace GatedQuery

variable {O : Type}

/-- An ancestor that declares a member and hands it down. -/
structure Candidate (O : Type) where
  owner : String
  distance : Nat
  accessor : Accessor O

namespace Candidate

/-- The candidates that no other one overrides. -/
def specific (h : Hierarchy O) (cs : List (Candidate O)) : List (Candidate O) :=
  cs.filter fun c => !cs.any fun d => d.owner != c.owner && h.isAbove c.owner d.owner

/-- The candidates at the least distance. -/
def nearest (cs : List (Candidate O)) : List (Candidate O) :=
  cs.filter fun c => cs.all fun d => c.distance ≤ d.distance

/-- Whether candidates leave open which of them is meant. -/
def ambiguous (cs : List (Candidate O)) : Bool :=
  1 < cs.length && cs.any fun c => !c.accessor.isNative

end Candidate

namespace Hierarchy

/-- The ancestors of a type that declare a member and hand it down. -/
def candidates (h : Hierarchy O) (type member : String) : List (Candidate O) :=
  (h.ancestors type).filterMap fun (owner, distance) => do
    let d ← h.find? owner
    if d.propagates then return ⟨owner, distance, ← d.members.lookup member⟩ else none

/-- The candidates for a member that count. -/
def decisive (h : Hierarchy O) (type member : String) : List (Candidate O) :=
  Candidate.nearest (Candidate.specific h (h.candidates type member))

/-- The accessor of a member that a type inherits, if it inherits it. -/
def inherited? (h : Hierarchy O) (type member : String) :
    Except DeclarationError (Option (Accessor O)) :=
  let tied := h.decisive type member
  if Candidate.ambiguous tied then
    .error (.ambiguousMember type member (AllowList.sortedNames (tied.map Candidate.owner)))
  else .ok (tied.head?.map Candidate.accessor)

/-- The members that ancestors of a type hand down to it and that it does not declare itself. -/
def inheritedNames (h : Hierarchy O) (d : TypeDeclaration O) : List String :=
  let handedDown := (h.ancestors d.name).flatMap fun a =>
    match h.find? a.1 with
    | some e => if e.propagates then e.members.map Prod.fst else []
    | none => []
  handedDown.eraseDups.filter fun m => (d.members.lookup m).isNone

/-- The entry of a table for a member that is inherited. -/
def inheritedEntry (h : Hierarchy O) (type member : String) :
    Except DeclarationError (Option (String × Accessor O)) := do
  return (← h.inherited? type member).map fun accessor => (member, accessor)

/-- The members of a type, its own ones first. The inherited ones are visited in the order of
`names`, and the first of them that is ambiguous is the one that is reported. -/
def memberTableVisiting (h : Hierarchy O) (names : List String) (d : TypeDeclaration O) :
    Except DeclarationError (MemberTable O) := do
  if !d.inherits then return d.members
  let inherited ← names.mapM (h.inheritedEntry d.name)
  return d.members ++ inherited.filterMap id

def checkSupertypes (h : Hierarchy O) : Except DeclarationError Unit :=
  List.forM h fun d => d.supertypes.forM fun s =>
    if (h.find? s).isSome then .ok () else .error (.unknownSupertype d.name s)

def checkCycles (h : Hierarchy O) : Except DeclarationError Unit :=
  List.forM h fun d =>
    if h.isAbove d.name d.name then .error (.inheritanceCycle d.name) else .ok ()

end Hierarchy

/-- An order in which the members that a type inherits are visited. It is left open which one a
build takes, and it may be another one for each build. -/
structure VisitingOrder (O : Type) where
  names : Hierarchy O → TypeDeclaration O → List String
  perm : ∀ h d, (names h d).Perm (h.inheritedNames d)

def VisitingOrder.found : VisitingOrder O :=
  ⟨Hierarchy.inheritedNames, fun _ _ => .refl _⟩

def Hierarchy.tableEntry (h : Hierarchy O) (order : VisitingOrder O) (d : TypeDeclaration O) :
    Except DeclarationError (String × MemberTable O) := do
  return (d.name, ← h.memberTableVisiting (order.names h d) d)

namespace AllowList

def ofDraftVisiting (order : VisitingOrder O) (draft : Draft O) :
    Except DeclarationError (AllowList O) := do
  let h : Hierarchy O := draft.types
  h.checkSupertypes
  h.checkCycles
  let types ← draft.types.mapM (h.tableEntry order)
  return ⟨draft.entries, types⟩

/-- Build an allow-list from steps, with inherited members visited in an order. -/
def ofStepsVisiting [Inspectable O] (order : VisitingOrder O) (steps : List (Declaration O)) :
    Except DeclarationError (AllowList O) := do
  ofDraftVisiting order (← Draft.ofSteps steps)

def ofSteps [Inspectable O] (steps : List (Declaration O)) :
    Except DeclarationError (AllowList O) :=
  ofStepsVisiting .found steps

end AllowList

end GatedQuery
