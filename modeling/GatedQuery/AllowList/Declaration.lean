import GatedQuery.AllowList.Basic
import GatedQuery.Filter.Catalogue
import GatedQuery.Query.Canonical

/-! An allow-list is declared step by step. A type may be declared at once, with its supertypes, and
members may be added to it one by one, before or after. No member, no entry point and no type may be
declared twice. -/

namespace GatedQuery

structure TypeDeclaration (O : Type) where
  name : String
  supertypes : List String
  members : MemberTable O
  /-- Whether the type receives members of its supertypes. -/
  inherits : Bool
  /-- Whether the type hands its own members down. -/
  propagates : Bool

/-- One step of a declaration. -/
inductive Declaration (O : Type) where
  | entry (e : EntryPoint O)
  | member (type name : String) (accessor : Accessor O)
  /-- Every builtin filter of a type. -/
  | builtins (type : String)
  | type (d : TypeDeclaration O)

/-- Why declarations make no allow-list. -/
inductive DeclarationError where
  | alreadyDeclared (type : String)
  | duplicateEntryPoint (name : String)
  | duplicateMember (type member : String)
  | unknownSupertype (type supertype : String)
  | inheritanceCycle (type : String)
  | ambiguousMember (type member : String) (candidates : List String)
  | noBuiltins (type : String)
deriving DecidableEq, Repr

namespace DeclarationError

def message : DeclarationError → String
  | alreadyDeclared t => "type '" ++ t ++ "' is already registered"
  | duplicateEntryPoint n => "entry point '" ++ n ++ "' is already registered"
  | duplicateMember t m => "member '" ++ m ++ "' is declared twice on '" ++ t ++ "'"
  | unknownSupertype t s => "type '" ++ t ++ "' extends undeclared type '" ++ s ++ "'"
  | inheritanceCycle t => "type '" ++ t ++ "' inherits from itself"
  | ambiguousMember t m candidates =>
    "member '" ++ m ++ "' of '" ++ t ++ "' is inherited ambiguously from "
      ++ Text.commaSeparated candidates
  | noBuiltins t => "no builtin filters exist for type '" ++ t ++ "'"

end DeclarationError

namespace TypeDeclaration

variable {O : Type}

def ofName (name : String) : TypeDeclaration O :=
  ⟨name, [], [], true, true⟩

def addMember (d : TypeDeclaration O) (name : String) (accessor : Accessor O) :
    Except DeclarationError (TypeDeclaration O) :=
  if (d.members.lookup name).isSome then .error (.duplicateMember d.name name)
  else .ok { d with members := d.members ++ [(name, accessor)] }

def addMembers (d : TypeDeclaration O) (members : MemberTable O) :
    Except DeclarationError (TypeDeclaration O) :=
  members.foldlM (fun d (name, accessor) => d.addMember name accessor) d

end TypeDeclaration

/-- What has been declared so far. -/
structure Draft (O : Type) where
  entries : List (EntryPoint O)
  types : List (TypeDeclaration O)
  /-- The types that were declared at once and not only through their members. -/
  explicit : List String

namespace Draft

variable {O : Type}

def empty : Draft O := ⟨[], [], []⟩

/-- Change the declaration of a type. It is added at the end if there is none. -/
def changeType (change : TypeDeclaration O → Except DeclarationError (TypeDeclaration O))
    (name : String) : List (TypeDeclaration O) →
    Except DeclarationError (List (TypeDeclaration O))
  | [] => return [← change (.ofName name)]
  | d :: ds => do
    if d.name = name then return (← change d) :: ds
    else return d :: (← changeType change name ds)

def addMembers (draft : Draft O) (type : String) (members : MemberTable O) :
    Except DeclarationError (Draft O) := do
  return { draft with types := ← changeType (·.addMembers members) type draft.types }

def builtinMembers [Inspectable O] (type : String) : MemberTable O :=
  (Builtin.forType type).map fun b => (b.name, .filter (b.toFilter (type ++ "." ++ b.name)))

/-- Declare a type at once. Members that it has already are kept. -/
def addType (draft : Draft O) (d : TypeDeclaration O) : Except DeclarationError (Draft O) := do
  if draft.explicit.contains d.name then throw (.alreadyDeclared d.name)
  let change := fun (known : TypeDeclaration O) =>
    { known with
      supertypes := known.supertypes ++ d.supertypes
      inherits := d.inherits
      propagates := d.propagates }.addMembers d.members
  return { draft with
    types := ← changeType change d.name draft.types
    explicit := d.name :: draft.explicit }

def addEntry (draft : Draft O) (e : EntryPoint O) : Except DeclarationError (Draft O) :=
  if draft.entries.any fun f => f.name == e.name then .error (.duplicateEntryPoint e.name)
  else .ok { draft with entries := draft.entries ++ [e] }

def add [Inspectable O] (draft : Draft O) : Declaration O → Except DeclarationError (Draft O)
  | .entry e => draft.addEntry e
  | .member type name accessor => draft.addMembers type [(name, accessor)]
  | .builtins type =>
    if (builtinMembers (O := O) type).isEmpty then .error (.noBuiltins type)
    else draft.addMembers type (builtinMembers type)
  | .type d => draft.addType d

def ofSteps [Inspectable O] (steps : List (Declaration O)) : Except DeclarationError (Draft O) :=
  steps.foldlM add empty

end Draft

end GatedQuery
