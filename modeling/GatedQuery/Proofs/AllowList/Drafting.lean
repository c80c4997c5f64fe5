import GatedQuery.Proofs.AllowList.Declared

/-! Taking steps one after another. As long as no step is in conflict with those before it, a draft
holds what the steps declare; the first one that is stops the run with its own error. -/

namespace GatedQuery

open Outcome

variable {O : Type}

namespace TypeDeclaration

variable {d : TypeDeclaration O} {members : MemberTable O}

theorem addMembers_cons (name : String) (x : Accessor O) (rest : MemberTable O) :
    d.addMembers ((name, x) :: rest) = d.addMember name x >>= (·.addMembers rest) :=
  List.foldlM_cons

/-- Members of new names are added one after another. -/
theorem addMembers_of_nodup (distinct : (MemberTable.names (d.members ++ members)).Nodup) :
    d.addMembers members = .ok { d with members := d.members ++ members } := by
  induction members generalizing d with
  | nil => simp [addMembers, pure, Except.pure]
  | cons m rest ih =>
      obtain ⟨name, x⟩ := m
      have hNew : (d.members.lookup name).isSome = false := by
        rw [Bool.eq_false_iff, ne_eq, MemberTable.isSome_lookup]
        intro hKnown
        rw [MemberTable.names_append] at distinct
        exact (List.nodup_append.mp distinct).2.2 name hKnown name List.mem_cons_self rfl
      have hAdd : d.addMember name x = .ok { d with members := d.members ++ [(name, x)] } := by
        simp [addMember, hNew]
      have hRest := ih (d := { d with members := d.members ++ [(name, x)] })
        (by simpa using distinct)
      rw [List.append_assoc] at hRest
      rw [addMembers_cons, hAdd]
      exact hRest

theorem addMembers_append {front back : MemberTable O}
    (distinct : (MemberTable.names (d.members ++ front)).Nodup) :
    d.addMembers (front ++ back) =
      { d with members := d.members ++ front }.addMembers back := by
  have hFront := addMembers_of_nodup distinct
  unfold addMembers at hFront ⊢
  rw [List.foldlM_append, hFront]
  rfl

/-- Adding members fails at the first name that is there already. -/
theorem addMembers_of_repeated {front back : MemberTable O} {name : String} {x : Accessor O}
    (distinct : (MemberTable.names (d.members ++ front)).Nodup)
    (known : name ∈ MemberTable.names (d.members ++ front)) :
    d.addMembers (front ++ (name, x) :: back) = .error (.duplicateMember d.name name) := by
  have hAdd : { d with members := d.members ++ front }.addMember name x =
      .error (.duplicateMember d.name name) := by
    simp [addMember, MemberTable.isSome_lookup.mpr known]
  rw [addMembers_append distinct, addMembers_cons, hAdd]
  rfl

end TypeDeclaration

namespace Draft

/-- Changing a type changes its declaration and no other one, or adds the type at the end. -/
theorem changeType_map {change : TypeDeclaration O → Except DeclarationError (TypeDeclaration O)}
    {t : String} {names : List String} {f : String → TypeDeclaration O}
    (hName : ∀ u, (f u).name = u) (distinct : names.Nodup) (hNew : t ∉ names → f t = .ofName t) :
    changeType change t (names.map f) =
      (change (f t)).map fun d => (Declared.withType names t).map (Function.update f t d) := by
  induction names with
  | nil =>
      rw [hNew List.not_mem_nil]
      cases hChange : change (.ofName t) with
      | error e => simp [changeType, hChange, Except.map, bind, Except.bind]
      | ok d => simp [changeType, hChange, Except.map, bind, Except.bind, pure, Except.pure,
          Declared.withType]
  | cons n names ih =>
      obtain ⟨hFirst, hRest⟩ := List.nodup_cons.mp distinct
      rw [List.map_cons, changeType, hName]
      split
      next hSame =>
        subst hSame
        have hOthers (d : TypeDeclaration O) : names.map (Function.update f n d) = names.map f :=
          List.map_congr_left fun u hu => Function.update_of_ne (ne_of_mem_of_not_mem hu hFirst) d f
        cases change (f n) with
        | error e => rfl
        | ok d =>
            simp [Except.map, bind, Except.bind, pure, Except.pure, Declared.withType, hOthers]
      next hOther =>
        have hTypes : Declared.withType (n :: names) t = n :: Declared.withType names t := by
          simp only [Declared.withType, List.mem_cons, Ne.symm hOther, false_or]
          split <;> rfl
        have hLater (h : t ∉ names) : t ∉ n :: names := fun hMem =>
          h ((List.mem_cons.mp hMem).resolve_left (Ne.symm hOther))
        rw [ih hRest fun h => hNew (hLater h), hTypes]
        cases change (f t) with
        | error e => rfl
        | ok d => simp [Except.map, bind, Except.bind, pure, Except.pure, hOther]

section Steps

variable [Inspectable O] {steps : List (Declaration O)} {s : Declaration O} {t : String}
variable {change : TypeDeclaration O → Except DeclarationError (TypeDeclaration O)}

/-- The same of the types that steps have declared so far. -/
theorem changeType_declared :
    changeType change t (Declared.ofSteps steps).hierarchy =
      (change ((Declared.ofSteps steps).declaration t)).map fun d =>
        (Declared.withType (Declared.ofSteps steps).types t).map
          (Function.update (Declared.ofSteps steps).declaration t d) :=
  have hSound := Declared.ofSteps_sound steps
  changeType_map (fun _ => rfl) hSound.types (hSound.undeclared t)

/-- A change of one type to what the steps with one more declare of it. -/
theorem changeType_concat (about : s.type? = some t)
    (h : change ((Declared.ofSteps steps).declaration t) =
      .ok ((Declared.ofSteps (steps ++ [s])).declaration t)) :
    changeType change t (Declared.ofSteps steps).hierarchy =
      .ok (Declared.ofSteps (steps ++ [s])).hierarchy := by
  have hUpdate : Function.update (Declared.ofSteps steps).declaration t
      ((Declared.ofSteps (steps ++ [s])).declaration t) =
      (Declared.ofSteps (steps ++ [s])).declaration := by
    funext u
    by_cases hSame : u = t
    · rw [hSame, Function.update_self]
    · rw [Function.update_of_ne hSame, Declared.declaration_concat_of_ne]
      rw [about]
      exact fun h => hSame (Option.some.inj h).symm
  rw [changeType_declared, h, Declared.hierarchy, Declared.types_concat about]
  exact congrArg (fun f => Except.ok (List.map f _)) hUpdate

/-- Where a change is refused, nothing is declared. -/
theorem changeType_error {e : DeclarationError}
    (h : change ((Declared.ofSteps steps).declaration t) = .error e) :
    changeType change t (Declared.ofSteps steps).hierarchy = .error e := by
  rw [changeType_declared, h]
  rfl

/-- A draft that holds what steps declare. -/
structure Represents (draft : Draft O) (steps : List (Declaration O)) : Prop where
  types : draft.types = (Declared.ofSteps steps).hierarchy
  entries : draft.entries = steps.filterMap Declaration.entry?
  explicit : ∀ t, t ∈ draft.explicit ↔ t ∈ Declared.wholeNames steps

variable {draft : Draft O}

/-- The names of entry points that a draft knows are those that the steps have declared. -/
theorem Represents.any_entry (hDraft : draft.Represents steps) (e : EntryPoint O) :
    (draft.entries.any fun f => f.name == e.name) = true ↔ e.name ∈ Declared.entryNames steps := by
  rw [hDraft.entries, Declared.entryNames, List.any_eq_true, List.mem_map]
  simp only [beq_iff_eq]

theorem Represents.contains_explicit (hDraft : draft.Represents steps) (t : String) :
    draft.explicit.contains t = true ↔ t ∈ Declared.wholeNames steps := by
  rw [List.contains_iff_mem, hDraft.explicit]

omit [Inspectable O] in
/-- A type that is declared at once for the first time joins what single steps said about it. -/
theorem addType_of_new {d : TypeDeclaration O} (hNew : d.name ∉ draft.explicit) :
    draft.addType d =
      (changeType (fun known =>
        { known with
          supertypes := known.supertypes ++ d.supertypes
          inherits := d.inherits
          propagates := d.propagates }.addMembers d.members) d.name draft.types).map fun types =>
        { draft with types, explicit := d.name :: draft.explicit } := by
  have hContains : draft.explicit.contains d.name = false := by
    rw [Bool.eq_false_iff, ne_eq, List.contains_iff_mem]
    exact hNew
  rw [addType, hContains]
  rfl

/-- Builtin members exist for the types that have builtin filters. -/
theorem isEmpty_builtinMembers {type : String} :
    (builtinMembers (O := O) type).isEmpty = true ↔ Builtin.forType (O := O) type = [] := by
  rw [builtinMembers, List.isEmpty_iff, List.map_eq_nil_iff]

/-- A step in conflict with those before it is refused. -/
theorem Represents.add_error {e : DeclarationError} (hDraft : draft.Represents steps)
    (hFault : Fault steps s e) : draft.add s = .error e := by
  cases hFault with
  | @entry entry known => simp [add, addEntry, (hDraft.any_entry entry).mpr known]
  | @type d known =>
      simp only [add, addType, (hDraft.contains_explicit d.name).mpr known]
      rfl
  | builtins none => simp [add, isEmpty_builtinMembers.mpr none]
  | @member _ t name x front back about new split distinct known =>
      have hRepeated {d : TypeDeclaration O} (hName : d.name = t)
          (hMembers : d.members = (Declared.ofSteps steps).members t) :
          d.addMembers s.members = .error (.duplicateMember t name) := by
        rw [← hMembers] at distinct known
        rw [split, TypeDeclaration.addMembers_of_repeated distinct known, hName]
      have hAdd (members : MemberTable O) (hMembers : s.members = members) :
          draft.addMembers t members = .error (.duplicateMember t name) := by
        rw [addMembers, hDraft.types, changeType_error (hMembers ▸ hRepeated rfl rfl)]
        rfl
      cases s with
      | entry entry => cases about
      | member u n y =>
          cases about
          exact hAdd _ rfl
      | builtins u =>
          cases about
          have hSome : (builtinMembers (O := O) t).isEmpty = false := by
            have hMembers : builtinMembers t = front ++ (name, x) :: back := split
            rw [hMembers]
            simp
          rw [add, hSome]
          exact hAdd _ rfl
      | type d =>
          cases about
          rw [add, addType_of_new ((hDraft.explicit d.name).not.mpr (new d rfl)), hDraft.types,
            changeType_error (e := .duplicateMember d.name name) (by exact hRepeated rfl rfl)]
          rfl

/-- A step without a conflict declares only new members. -/
theorem nodup_members_of_no_fault (hMembers : ((Declared.ofSteps steps).members t).names.Nodup)
    (hNone : ∀ e, ¬ Fault steps s e) (about : s.type? = some t) :
    (MemberTable.names ((Declared.ofSteps steps).members t ++ s.members)).Nodup := by
  rcases MemberTable.nodup_or_repeats _ s.members hMembers with
    hNew | ⟨front, name, x, back, hSplit, hDistinct, hKnown⟩
  · exact hNew
  · refine absurd (Fault.member about (fun d hWhole hOld => ?_) hSplit hDistinct hKnown) (hNone _)
    obtain rfl := Declaration.eq_type_of_whole? hWhole
    exact hNone _ (.type hOld)

/-- A step without a conflict is taken. -/
theorem Represents.add_ok (hDraft : draft.Represents steps) (hSteps : Consistent steps)
    (hNone : ∀ e, ¬ Fault steps s e) :
    ∃ next, draft.add s = .ok next ∧ next.Represents (steps ++ [s]) := by
  have hNodup {t : String} (about : s.type? = some t) :=
    nodup_members_of_no_fault (hSteps.members t) hNone about
  have hAdd {t : String} (about : s.type? = some t) (hEntry : s.entry? = none)
      (hWhole : s.whole? = none) :
      ∃ next, draft.addMembers t s.members = .ok next ∧ next.Represents (steps ++ [s]) := by
    refine ⟨{ draft with types := (Declared.ofSteps (steps ++ [s])).hierarchy }, ?_, rfl, ?_, ?_⟩
    · rw [addMembers, hDraft.types, changeType_concat about]
      · rfl
      · rw [Declared.declaration_concat_members about hWhole]
        exact TypeDeclaration.addMembers_of_nodup (hNodup about)
    · simpa [hEntry] using hDraft.entries
    · simpa [Declared.wholeNames, hWhole] using hDraft.explicit
  cases s with
  | entry e =>
      have hNew : ¬ (draft.entries.any fun f => f.name == e.name) = true := by
        rw [hDraft.any_entry]
        exact fun hKnown => hNone _ (.entry hKnown)
      refine ⟨{ draft with entries := draft.entries ++ [e] }, ?_, ?_, ?_, ?_⟩
      · rw [add, addEntry, if_neg hNew]
      · rw [Declared.hierarchy_concat_of_none rfl]
        exact hDraft.types
      · simp [hDraft.entries, Declaration.entry?]
      · simpa [Declared.wholeNames, Declaration.whole?] using hDraft.explicit
  | member t name x => exact hAdd rfl rfl rfl
  | builtins t =>
      have hSome : ¬ (builtinMembers (O := O) t).isEmpty = true :=
        isEmpty_builtinMembers.not.mpr fun hEmpty => hNone _ (.builtins hEmpty)
      rw [add, if_neg hSome]
      exact hAdd rfl rfl rfl
  | type d =>
      have hNew : d.name ∉ Declared.wholeNames steps := fun hOld => hNone _ (.type hOld)
      refine ⟨{ draft with
        types := (Declared.ofSteps (steps ++ [.type d])).hierarchy
        explicit := d.name :: draft.explicit }, ?_, rfl, ?_, ?_⟩
      · rw [add, addType_of_new ((hDraft.explicit d.name).not.mpr hNew), hDraft.types,
          changeType_concat (s := .type d) rfl]
        · rfl
        · rw [Declared.declaration_concat_type hNew]
          exact TypeDeclaration.addMembers_of_nodup (hNodup rfl)
      · simpa [List.filterMap_cons, Declaration.entry?] using hDraft.entries
      · intro t
        simp [hDraft.explicit t, Declared.wholeNames, Declaration.whole?, or_comm]

end Steps

end Draft

section Steps

variable [Inspectable O] {steps : List (Declaration O)} {s : Declaration O}

/-- Steps that go well together also do without the later ones. -/
theorem Consistent.append_left {before after : List (Declaration O)}
    (h : Consistent (before ++ after)) : Consistent before := by
  obtain ⟨hTypes, hEntries, hMembers, hBuiltins⟩ := h
  refine ⟨?_, ?_, fun t => ?_, fun t ht => hBuiltins t (List.mem_append_left _ ht)⟩
  · rw [Declared.wholeNames_append] at hTypes
    exact hTypes.of_append_left
  · rw [Declared.entryNames_append] at hEntries
    exact hEntries.of_append_left
  · have hBoth := hMembers t
    rw [Declared.members_append, MemberTable.names_append] at hBoth
    exact hBoth.of_append_left

/-- In consistent steps none is in conflict with those before it. -/
theorem Consistent.not_fault {before after : List (Declaration O)} {e : DeclarationError}
    (h : Consistent (before ++ s :: after)) : ¬ Fault before s e := by
  have hSingle : before ++ s :: after = before ++ [s] ++ after := by simp
  rw [hSingle] at h
  obtain ⟨hTypes, hEntries, hMembers, hBuiltins⟩ := h.append_left
  intro hFault
  cases hFault with
  | @entry e known =>
      rw [Declared.entryNames_append] at hEntries
      exact List.disjoint_of_nodup_append hEntries known
        (by simp [Declared.entryNames, Declaration.entry?])
  | @type d known =>
      rw [Declared.wholeNames_append] at hTypes
      exact List.disjoint_of_nodup_append hTypes known
        (by simp [Declared.wholeNames, Declaration.whole?])
  | builtins none => exact hBuiltins _ (by simp) none
  | @member _ t name x front back about new split distinct known =>
      have hBoth := hMembers t
      rw [Declared.members_append, Declared.members_singleton about, split, ← List.append_assoc,
        MemberTable.names_append] at hBoth
      exact List.disjoint_of_nodup_append hBoth known (by simp [MemberTable.names])

/-- A step without a conflict leaves the steps consistent. -/
theorem Consistent.concat (h : Consistent steps) (hNone : ∀ e, ¬ Fault steps s e) :
    Consistent (steps ++ [s]) := by
  obtain ⟨hTypes, hEntries, hMembers, hBuiltins⟩ := h
  refine ⟨?_, ?_, fun t => ?_, fun t ht => ?_⟩
  · cases hWhole : s.whole? with
    | none => simpa [Declared.wholeNames, hWhole] using hTypes
    | some d =>
        obtain rfl := Declaration.eq_type_of_whole? hWhole
        have hNames : Declared.wholeNames (steps ++ [.type d]) =
            (Declared.wholeNames steps).concat d.name := by
          simp [Declared.wholeNames, Declaration.whole?]
        rw [hNames]
        exact hTypes.concat fun hOld => hNone _ (.type hOld)
  · cases hEntry : s.entry? with
    | none => simpa [Declared.entryNames, hEntry] using hEntries
    | some e =>
        obtain rfl := Declaration.eq_entry_of_entry? hEntry
        have hNames : Declared.entryNames (steps ++ [.entry e]) =
            (Declared.entryNames steps).concat e.name := by
          simp [Declared.entryNames, Declaration.entry?]
        rw [hNames]
        exact hEntries.concat fun hOld => hNone _ (.entry hOld)
  · rw [Declared.members_append]
    by_cases hAbout : s.type? = some t
    · rw [Declared.members_singleton hAbout]
      exact Draft.nodup_members_of_no_fault (hMembers t) hNone hAbout
    · rw [Declared.members_singleton_of_ne hAbout, List.append_nil]
      exact hMembers t
  · rcases List.mem_append.mp ht with hOld | hNew
    · exact hBuiltins t hOld
    · obtain rfl := List.mem_singleton.mp hNew
      exact fun hEmpty => hNone _ (.builtins hEmpty)

/-- Consistent steps make a draft of what they declare. Of other steps the first one in conflict
with those before it is refused. -/
theorem Draft.ofSteps_cases (steps : List (Declaration O)) :
    (Consistent steps ∧ ∃ draft, Draft.ofSteps steps = .ok draft ∧ draft.Represents steps) ∨
      ∃ before s after e, steps = before ++ s :: after ∧ Consistent before ∧ Fault before s e ∧
        Draft.ofSteps steps = .error e := by
  induction steps using List.reverseRecOn with
  | nil =>
      refine .inl ⟨⟨.nil, .nil, fun t => .nil, fun t ht => absurd ht List.not_mem_nil⟩, Draft.empty,
        rfl, rfl, rfl, fun t => Iff.rfl⟩
  | append_singleton steps s ih =>
      have hRun : Draft.ofSteps (steps ++ [s]) = Draft.ofSteps steps >>= (·.add s) := by
        simp [Draft.ofSteps]
      rw [hRun]
      rcases ih with
        ⟨hSteps, draft, hDraft, hHolds⟩ | ⟨before, r, after, e, rfl, hBefore, hFault, hError⟩
      · rw [hDraft]
        by_cases hNone : ∀ e, ¬ Fault steps s e
        · exact .inl ⟨hSteps.concat hNone, hHolds.add_ok hSteps hNone⟩
        · push Not at hNone
          obtain ⟨e, hFault⟩ := hNone
          exact .inr ⟨steps, s, [], e, rfl, hSteps, hFault, hHolds.add_error hFault⟩
      · rw [hError]
        exact .inr ⟨before, r, after ++ [s], e, by simp, hBefore, hFault, rfl⟩

end Steps

end GatedQuery
