import GatedQuery.AllowList.Declaration
import GatedQuery.Proofs.AllowList.Ancestors
import GatedQuery.Proofs.Outcome
import Mathlib.Logic.Function.Basic

/-! What steps declare, read off their list as a whole. A type has the supertypes, members and
switches that any step gives it. Steps are in conflict if they declare something twice, or the
builtins of a type that has none. -/

namespace GatedQuery

open Outcome

variable {O : Type}

/-- What is declared, type by type. The types stand in the order in which they are first mentioned. -/
structure Declared (O : Type) where
  types : List String
  supertypes : String → List String
  members : String → MemberTable O
  inherits : String → Bool
  propagates : String → Bool

def MemberTable.names (members : MemberTable O) : List String :=
  members.map Prod.fst

namespace MemberTable

variable {members : MemberTable O} {name : String}

/-- A table answers for exactly the members that it names. -/
theorem isSome_lookup : (members.lookup name).isSome ↔ name ∈ members.names := by
  rw [List.lookup_isSome_iff, names, List.mem_map]
  simp

theorem isNone_lookup : (members.lookup name).isNone ↔ name ∉ members.names := by
  rw [Option.isNone_iff_eq_none, ← Option.not_isSome_iff_eq_none, isSome_lookup]

theorem mem_names_of_mem {x : Accessor O} (h : (name, x) ∈ members) : name ∈ members.names :=
  List.mem_map_of_mem h

/-- A table without repeated names has one accessor for each of them. -/
theorem eq_of_mem (distinct : members.names.Nodup) {x y : Accessor O} (hx : (name, x) ∈ members)
    (hy : (name, y) ∈ members) : x = y :=
  congrArg Prod.snd (List.inj_on_of_nodup_map distinct hx hy rfl)

/-- Looking a member up is finding its entry if no name is repeated. -/
theorem lookup_eq_some_iff (distinct : members.names.Nodup) {x : Accessor O} :
    members.lookup name = some x ↔ (name, x) ∈ members :=
  ⟨mem_of_lookup, lookup_of_mem distinct⟩

theorem names_append (known more : MemberTable O) :
    names (known ++ more) = known.names ++ more.names :=
  List.map_append

/-- Members that are added are new, or one of them is the first that is not. -/
theorem nodup_or_repeats (known members : MemberTable O) (distinct : known.names.Nodup) :
    (names (known ++ members)).Nodup ∨
      ∃ front name x back, members = front ++ (name, x) :: back ∧
        (names (known ++ front)).Nodup ∧ name ∈ names (known ++ front) := by
  induction members generalizing known with
  | nil => exact .inl (by simpa using distinct)
  | cons m rest ih =>
      obtain ⟨name, x⟩ := m
      by_cases hKnown : name ∈ known.names
      · exact .inr ⟨[], name, x, rest, rfl, by simpa using distinct, by simpa using hKnown⟩
      · have hNext : (names (known ++ [(name, x)])).Nodup := by
          have hNames : names (known ++ [(name, x)]) = known.names.concat name := by
            rw [names_append, List.concat_eq_append]
            rfl
          exact hNames ▸ distinct.concat hKnown
        rcases ih _ hNext with hNew | ⟨front, again, y, back, rfl, hDistinct, hAgain⟩
        · exact .inl (by simpa using hNew)
        · exact .inr ⟨(name, x) :: front, again, y, back, rfl, by simpa using hDistinct,
            by simpa using hAgain⟩

end MemberTable

namespace Declaration

def type? : Declaration O → Option String
  | .entry _ => none
  | .member t _ _ => some t
  | .builtins t => some t
  | .type d => some d.name

def entry? : Declaration O → Option (EntryPoint O)
  | .entry e => some e
  | _ => none

def whole? : Declaration O → Option (TypeDeclaration O)
  | .type d => some d
  | _ => none

def members [Inspectable O] : Declaration O → MemberTable O
  | .entry _ => []
  | .member _ name accessor => [(name, accessor)]
  | .builtins t => Draft.builtinMembers t
  | .type d => d.members

theorem eq_entry_of_entry? {s : Declaration O} {e : EntryPoint O} (h : s.entry? = some e) :
    s = .entry e := by
  cases s with
  | entry f =>
      cases h
      rfl
  | _ => cases h

theorem eq_type_of_whole? {s : Declaration O} {d : TypeDeclaration O} (h : s.whole? = some d) :
    s = .type d := by
  cases s with
  | type e =>
      cases h
      rfl
  | _ => cases h

theorem type?_of_whole? {s : Declaration O} {d : TypeDeclaration O} (h : s.whole? = some d) :
    s.type? = some d.name := by
  rw [eq_type_of_whole? h]
  rfl

end Declaration

namespace Declared

def entryNames (steps : List (Declaration O)) : List String :=
  (steps.filterMap Declaration.entry?).map EntryPoint.name

def wholeNames (steps : List (Declaration O)) : List String :=
  (steps.filterMap Declaration.whole?).map TypeDeclaration.name

def stepsAbout (steps : List (Declaration O)) (type : String) : List (Declaration O) :=
  steps.filter fun s => s.type? == some type

def wholes (steps : List (Declaration O)) (type : String) : List (TypeDeclaration O) :=
  (stepsAbout steps type).filterMap Declaration.whole?

def ofSteps [Inspectable O] (steps : List (Declaration O)) : Declared O where
  types := (steps.filterMap Declaration.type?).eraseDups
  supertypes type := (wholes steps type).flatMap TypeDeclaration.supertypes
  members type := (stepsAbout steps type).flatMap Declaration.members
  inherits type := (wholes steps type).all TypeDeclaration.inherits
  propagates type := (wholes steps type).all TypeDeclaration.propagates

def declaration (D : Declared O) (type : String) : TypeDeclaration O :=
  ⟨type, D.supertypes type, D.members type, D.inherits type, D.propagates type⟩

def hierarchy (D : Declared O) : Hierarchy O :=
  D.types.map D.declaration

/-- No type is listed twice, and nothing is known of types that are not listed. -/
structure Sound (D : Declared O) : Prop where
  types : D.types.Nodup
  undeclared : ∀ t, t ∉ D.types → D.declaration t = .ofName t

section Concat

variable {steps : List (Declaration O)} {s : Declaration O} {t : String}

theorem stepsAbout_append (steps after : List (Declaration O)) (t : String) :
    stepsAbout (steps ++ after) t = stepsAbout steps t ++ stepsAbout after t :=
  List.filter_append _ _

/-- A single step is about its type alone. -/
theorem stepsAbout_singleton (h : s.type? = some t) : stepsAbout [s] t = [s] := by
  simp [stepsAbout, h]

theorem stepsAbout_singleton_of_ne (h : s.type? ≠ some t) : stepsAbout [s] t = [] := by
  simp [stepsAbout, h]

/-- A type that is not declared at once has no such declaration. -/
theorem wholes_eq_nil (h : t ∉ wholeNames steps) : wholes steps t = [] := by
  refine List.filterMap_eq_nil_iff.mpr fun s hs => ?_
  refine Option.eq_none_iff_forall_not_mem.mpr fun d hd => ?_
  obtain ⟨hMem, hAbout⟩ := List.mem_filter.mp hs
  have hName := (Declaration.type?_of_whole? hd).symm.trans (eq_of_beq hAbout)
  exact h (List.mem_map.mpr ⟨d, List.mem_filterMap.mpr ⟨s, hMem, hd⟩, Option.some.inj hName⟩)

theorem wholeNames_append (steps after : List (Declaration O)) :
    wholeNames (steps ++ after) = wholeNames steps ++ wholeNames after := by
  simp [wholeNames]

theorem entryNames_append (steps after : List (Declaration O)) :
    entryNames (steps ++ after) = entryNames steps ++ entryNames after := by
  simp [entryNames]

variable [Inspectable O]

/-- Members are declared in the order of the steps. -/
theorem members_append (steps after : List (Declaration O)) (t : String) :
    (ofSteps (steps ++ after)).members t =
      (ofSteps steps).members t ++ (ofSteps after).members t := by
  simp [ofSteps, stepsAbout_append]

theorem members_singleton (h : s.type? = some t) : (ofSteps [s]).members t = s.members := by
  simp [ofSteps, stepsAbout_singleton h]

/-- A step says nothing about the members of another type. -/
theorem members_singleton_of_ne (h : s.type? ≠ some t) : (ofSteps [s]).members t = [] := by
  simp [ofSteps, stepsAbout_singleton_of_ne h]

/-- A step that is about another type changes nothing of what is declared. -/
theorem declaration_concat_of_ne (h : s.type? ≠ some t) :
    (ofSteps (steps ++ [s])).declaration t = (ofSteps steps).declaration t := by
  simp [declaration, ofSteps, wholes, stepsAbout_append, stepsAbout_singleton_of_ne h]

/-- A step that only adds members. -/
theorem declaration_concat_members (h : s.type? = some t) (hPart : s.whole? = none) :
    (ofSteps (steps ++ [s])).declaration t =
      { (ofSteps steps).declaration t with
        members := (ofSteps steps).members t ++ s.members } := by
  simp [declaration, ofSteps, wholes, stepsAbout_append, stepsAbout_singleton h, hPart]

/-- The step that declares a type at once. -/
theorem declaration_concat_type {d : TypeDeclaration O} (hNew : d.name ∉ wholeNames steps) :
    (ofSteps (steps ++ [.type d])).declaration d.name =
      { (ofSteps steps).declaration d.name with
        supertypes := (ofSteps steps).supertypes d.name ++ d.supertypes
        inherits := d.inherits
        propagates := d.propagates
        members := (ofSteps steps).members d.name ++ d.members } := by
  have hStep : stepsAbout [.type d] d.name = [.type d] := stepsAbout_singleton rfl
  have hWholes : wholes (steps ++ [.type d]) d.name = [d] := by
    rw [wholes, stepsAbout_append, List.filterMap_append, ← wholes, wholes_eq_nil hNew, hStep]
    rfl
  simp [declaration, ofSteps, hWholes, wholes_eq_nil hNew, stepsAbout_append, hStep,
    Declaration.members]

/-- The types with one more, which is added at the end if it is new. -/
def withType (types : List String) (type : String) : List String :=
  if type ∈ types then types else types ++ [type]

theorem eraseDups_concat (names : List String) (name : String) :
    (names ++ [name]).eraseDups = withType names.eraseDups name := by
  have hSingle : [name].eraseDups = [name] := by rw [List.eraseDups_cons]; rfl
  rw [List.eraseDups_append, withType]
  by_cases hKnown : name ∈ names
  · rw [if_pos (List.mem_eraseDups.mpr hKnown)]
    simp [List.removeAll, hKnown]
  · rw [if_neg fun h => hKnown (List.mem_eraseDups.mp h)]
    simp [List.removeAll, hKnown, hSingle]

/-- A type is declared where a step is first about it. -/
theorem types_concat (h : s.type? = some t) :
    (ofSteps (steps ++ [s])).types = withType (ofSteps steps).types t := by
  have hTypes : (steps ++ [s]).filterMap Declaration.type? =
      steps.filterMap Declaration.type? ++ [t] := by simp [h]
  change ((steps ++ [s]).filterMap Declaration.type?).eraseDups = _
  rw [hTypes, eraseDups_concat]
  rfl

theorem types_concat_of_none (h : s.type? = none) :
    (ofSteps (steps ++ [s])).types = (ofSteps steps).types := by
  have hTypes : (steps ++ [s]).filterMap Declaration.type? = steps.filterMap Declaration.type? := by
    simp [h]
  change ((steps ++ [s]).filterMap Declaration.type?).eraseDups = _
  rw [hTypes]
  rfl

/-- An entry point changes nothing about the types. -/
theorem hierarchy_concat_of_none (h : s.type? = none) :
    (ofSteps (steps ++ [s])).hierarchy = (ofSteps steps).hierarchy := by
  rw [hierarchy, hierarchy, types_concat_of_none h]
  refine List.map_congr_left fun t _ => declaration_concat_of_ne ?_
  rw [h]
  exact nofun

end Concat

theorem Sound.mem_of_mem_supertypes {D : Declared O} (sound : D.Sound) {t s : String}
    (h : s ∈ D.supertypes t) : t ∈ D.types := by
  by_contra hUnknown
  have hNone : D.supertypes t = [] :=
    congrArg TypeDeclaration.supertypes (sound.undeclared t hUnknown)
  exact absurd (hNone ▸ h) List.not_mem_nil

/-- The declared types are those that some step is about. -/
theorem mem_types [Inspectable O] {steps : List (Declaration O)} {t : String} :
    t ∈ (ofSteps steps).types ↔ stepsAbout steps t ≠ [] := by
  have hStep : t ∈ (ofSteps steps).types ↔ ∃ s ∈ steps, s.type? = some t :=
    List.mem_eraseDups.trans List.mem_filterMap
  rw [hStep]
  simp [stepsAbout]

/-- What is declared by steps is declared of types that they are about. -/
theorem ofSteps_sound [Inspectable O] (steps : List (Declaration O)) : (ofSteps steps).Sound := by
  refine ⟨nodup_eraseDups _, fun t ht => ?_⟩
  have hNone : stepsAbout steps t = [] := not_not.mp (mem_types.not.mp ht)
  simp [declaration, ofSteps, wholes, hNone, TypeDeclaration.ofName]

end Declared

/-- A problem that a step has with the steps before it. -/
inductive Fault [Inspectable O] (before : List (Declaration O)) :
    Declaration O → DeclarationError → Prop where
  | entry {e : EntryPoint O} (known : e.name ∈ Declared.entryNames before) :
      Fault before (.entry e) (.duplicateEntryPoint e.name)
  | type {d : TypeDeclaration O} (known : d.name ∈ Declared.wholeNames before) :
      Fault before (.type d) (.alreadyDeclared d.name)
  | builtins {type : String} (none : Builtin.forType (O := O) type = []) :
      Fault before (.builtins type) (.noBuiltins type)
  /-- The first member of the step that is declared already, by a step before or earlier in it. -/
  | member {s : Declaration O} {type name : String} {accessor : Accessor O}
      {front back : MemberTable O}
      (about : s.type? = some type)
      (new : ∀ d, s.whole? = some d → d.name ∉ Declared.wholeNames before)
      (split : s.members = front ++ (name, accessor) :: back)
      (distinct : (((Declared.ofSteps before).members type ++ front).names).Nodup)
      (known : name ∈ ((Declared.ofSteps before).members type ++ front).names) :
      Fault before s (.duplicateMember type name)

/-- Steps of which none is in conflict with another. -/
structure Consistent [Inspectable O] (steps : List (Declaration O)) : Prop where
  types : (Declared.wholeNames steps).Nodup
  entries : (Declared.entryNames steps).Nodup
  members : ∀ t, ((Declared.ofSteps steps).members t).names.Nodup
  builtins : ∀ t, .builtins t ∈ steps → Builtin.forType (O := O) t ≠ []

end GatedQuery
