import GatedQuery.AllowList.Build
import GatedQuery.Proofs.Outcome

/-! Where the accessors of an allow-list come from. Declaring a type only ever adds members, and
inheriting a member copies its accessor, so that a built allow-list has no accessor that was not
declared. -/

namespace GatedQuery

open Outcome

variable {O : Type} {P : Accessor O → Prop}

def MemberTable.All (P : Accessor O → Prop) (members : MemberTable O) : Prop :=
  ∀ m ∈ members, P m.2

/-- Declared types whose own members all have accessors with a property. -/
def Hierarchy.All (P : Accessor O → Prop) (h : Hierarchy O) : Prop :=
  ∀ d ∈ h, MemberTable.All P d.members

/-- A step that declares no accessor without a property. -/
def Declaration.All [Inspectable O] (P : Accessor O → Prop) : Declaration O → Prop
  | .entry _ => True
  | .member _ _ accessor => P accessor
  | .builtins name => MemberTable.All P (Draft.builtinMembers name)
  | .type d => MemberTable.All P d.members

/-- What is found in a table has the property of all its accessors. -/
theorem MemberTable.All.of_lookup {members : MemberTable O} (h : MemberTable.All P members)
    {name : String} {x : Accessor O} (found : members.lookup name = some x) : P x :=
  h (name, x) (mem_of_lookup found)

theorem TypeDeclaration.addMember_all {d e : TypeDeclaration O} {name : String} {x : Accessor O}
    (hDeclared : MemberTable.All P d.members) (hx : P x) (h : d.addMember name x = .ok e) :
    MemberTable.All P e.members := by
  unfold TypeDeclaration.addMember at h
  split at h
  · cases h
  · cases h
    intro m hm
    rw [List.mem_append, List.mem_singleton] at hm
    rcases hm with hOld | rfl
    · exact hDeclared m hOld
    · exact hx

/-- Adding members with the property keeps it. The induction is on the members that are added. -/
theorem TypeDeclaration.addMembers_all {d e : TypeDeclaration O} {members : MemberTable O}
    (hDeclared : MemberTable.All P d.members) (hMembers : MemberTable.All P members)
    (h : d.addMembers members = .ok e) : MemberTable.All P e.members :=
  foldlM_preserves (P := fun d : TypeDeclaration O => MemberTable.All P d.members)
    (fun _ m _ hm hOld hStep => addMember_all hOld (hMembers m hm) hStep) hDeclared h

/-- Changing one type keeps a property of all accessors if the change does. -/
theorem Draft.changeType_all
    {change : TypeDeclaration O → Except DeclarationError (TypeDeclaration O)}
    (hChange : ∀ d e, MemberTable.All P d.members → change d = .ok e →
      MemberTable.All P e.members)
    {name : String} {types changed : List (TypeDeclaration O)} (hTypes : Hierarchy.All P types)
    (h : Draft.changeType change name types = .ok changed) : Hierarchy.All P changed := by
  induction types generalizing changed with
  | nil =>
      obtain ⟨d, hd, hResult⟩ := exists_of_bind_ok h
      cases hResult
      refine List.forall_mem_singleton.mpr (hChange _ d ?_ hd)
      exact fun m hm => absurd hm List.not_mem_nil
  | cons d ds ih =>
      obtain ⟨hHead, hRest⟩ := List.forall_mem_cons.mp hTypes
      unfold Draft.changeType at h
      split at h
      · obtain ⟨e, he, hResult⟩ := exists_of_bind_ok h
        cases hResult
        exact List.forall_mem_cons.mpr ⟨hChange d e hHead he, hRest⟩
      · obtain ⟨es, hes, hResult⟩ := exists_of_bind_ok h
        cases hResult
        exact List.forall_mem_cons.mpr ⟨hHead, ih hRest hes⟩

theorem Draft.addMembers_all {draft next : Draft O} {type : String} {members : MemberTable O}
    (hTypes : Hierarchy.All P draft.types) (hMembers : MemberTable.All P members)
    (h : draft.addMembers type members = .ok next) : Hierarchy.All P next.types := by
  obtain ⟨types, hChanged, hResult⟩ := exists_of_bind_ok h
  cases hResult
  exact changeType_all (fun d e hd he => TypeDeclaration.addMembers_all hd hMembers he) hTypes
    hChanged

theorem Draft.addType_all {draft next : Draft O} {d : TypeDeclaration O}
    (hTypes : Hierarchy.All P draft.types) (hMembers : MemberTable.All P d.members)
    (h : draft.addType d = .ok next) : Hierarchy.All P next.types := by
  unfold Draft.addType at h
  split at h
  · cases h
  · obtain ⟨types, hChanged, hResult⟩ := exists_of_bind_ok h
    cases hResult
    refine changeType_all (fun e f he hf => ?_) hTypes hChanged
    refine TypeDeclaration.addMembers_all ?_ hMembers hf
    exact he

variable [Inspectable O]

/-- One more step keeps the property of all accessors that are declared. -/
theorem Draft.add_all {draft next : Draft O} {step : Declaration O}
    (hTypes : Hierarchy.All P draft.types) (hStep : Declaration.All P step)
    (h : draft.add step = .ok next) : Hierarchy.All P next.types := by
  cases step with
  | entry e =>
      simp only [Draft.add, Draft.addEntry] at h
      split at h
      · cases h
      · cases h
        exact hTypes
  | member type name accessor =>
      exact addMembers_all hTypes (List.forall_mem_singleton.mpr (show P accessor from hStep)) h
  | builtins type =>
      simp only [Draft.add] at h
      split at h
      · cases h
      · exact addMembers_all hTypes hStep h
  | type d => exact addType_all hTypes hStep h

/-- Every accessor of a draft was declared by one of its steps. -/
theorem Draft.ofSteps_all {steps : List (Declaration O)} {draft : Draft O}
    (hSteps : ∀ step ∈ steps, Declaration.All P step) (h : Draft.ofSteps steps = .ok draft) :
    Hierarchy.All P draft.types :=
  foldlM_preserves (P := fun d : Draft O => Hierarchy.All P d.types)
    (fun _ step _ hMem hOld hNext => add_all hOld (hSteps step hMem) hNext)
    (fun _ hd => absurd hd List.not_mem_nil) h

omit [Inspectable O] in
/-- An accessor that decides a member was declared by some type. -/
theorem Hierarchy.decisive_all {h : Hierarchy O} (hTypes : Hierarchy.All P h) {type member : String}
    {c : Candidate O} (hc : c ∈ h.decisive type member) : P c.accessor := by
  have hCandidate : c ∈ h.candidates type member :=
    List.mem_of_mem_filter (List.mem_of_mem_filter hc)
  obtain ⟨⟨owner, distance⟩, _, hFound⟩ := List.mem_filterMap.mp hCandidate
  simp only [Option.bind_eq_bind, Option.bind_eq_some_iff] at hFound
  obtain ⟨d, hOwner, hFound⟩ := hFound
  split at hFound
  · obtain ⟨x, hx, hResult⟩ := Option.bind_eq_some_iff.mp hFound
    cases hResult
    exact (hTypes d (List.mem_of_find?_eq_some hOwner)).of_lookup hx
  · cases hFound

omit [Inspectable O] in
/-- An accessor that is inherited was declared by some type. -/
theorem Hierarchy.inherited_all {h : Hierarchy O} (hTypes : Hierarchy.All P h)
    {type member : String} {x : Accessor O} (hFound : h.inherited? type member = .ok (some x)) :
    P x := by
  unfold Hierarchy.inherited? at hFound
  dsimp only at hFound
  split at hFound
  · cases hFound
  · obtain ⟨c, hHead, rfl⟩ := Option.map_eq_some_iff.mp (Except.ok.inj hFound)
    exact decisive_all hTypes (List.mem_of_mem_head? hHead)

omit [Inspectable O] in
theorem Hierarchy.memberTableVisiting_all {h : Hierarchy O} (hTypes : Hierarchy.All P h)
    {d : TypeDeclaration O} (hd : d ∈ h) {names : List String} {members : MemberTable O}
    (hTable : h.memberTableVisiting names d = .ok members) : MemberTable.All P members := by
  unfold Hierarchy.memberTableVisiting at hTable
  split at hTable
  · cases hTable
    exact hTypes d hd
  · obtain ⟨inherited, hInherited, hResult⟩ := exists_of_bind_ok hTable
    cases hResult
    intro m hm
    rcases List.mem_append.mp hm with hOwn | hHanded
    · exact hTypes d hd m hOwn
    · obtain ⟨m?, hm?, rfl⟩ := List.mem_filterMap.mp hHanded
      obtain ⟨name, _, hName⟩ := exists_of_mem_mapM hInherited hm?
      obtain ⟨x?, hx, hResult⟩ := exists_of_bind_ok hName
      obtain ⟨x, rfl, rfl⟩ := Option.map_eq_some_iff.mp (Except.ok.inj hResult)
      exact inherited_all hTypes hx

/-- An allow-list has only accessors with a property if only such are declared. -/
theorem AllowList.ofStepsVisiting_all {order : VisitingOrder O} {steps : List (Declaration O)}
    {a : AllowList O} (hSteps : ∀ step ∈ steps, Declaration.All P step)
    (h : AllowList.ofStepsVisiting order steps = .ok a)
    {type member : String} {x : Accessor O} (hx : a.accessor? type member = some x) : P x := by
  obtain ⟨draft, hDraft, h⟩ := exists_of_bind_ok h
  have hTypes := Draft.ofSteps_all hSteps hDraft
  obtain ⟨_, _, h⟩ := exists_of_bind_ok h
  obtain ⟨_, _, h⟩ := exists_of_bind_ok h
  obtain ⟨types, hTables, h⟩ := exists_of_bind_ok h
  cases h
  obtain ⟨members, hType, hMember⟩ := Option.bind_eq_some_iff.mp hx
  obtain ⟨d, hd, hTable⟩ := exists_of_mem_mapM hTables (mem_of_lookup hType)
  obtain ⟨table, hTable, hResult⟩ := exists_of_bind_ok hTable
  cases hResult
  exact (Hierarchy.memberTableVisiting_all hTypes hd hTable).of_lookup hMember

end GatedQuery
