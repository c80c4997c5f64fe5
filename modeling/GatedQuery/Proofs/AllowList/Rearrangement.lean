import GatedQuery.Proofs.AllowList.Resolution

/-! The order of declarations does not matter. Steps may be taken in any order, the members and the
supertypes of a type may be listed in any order, and inherited members may be visited in any order:
the same allow-list is built, or none. -/

namespace GatedQuery

variable {O : Type}

/-- A step as it is, or the declaration of a type that lists its supertypes and members in another
order. -/
inductive SameDeclaration : Declaration O → Declaration O → Prop where
  | refl (s : Declaration O) : SameDeclaration s s
  | type {d e : TypeDeclaration O} (name : d.name = e.name)
      (supertypes : d.supertypes.Perm e.supertypes) (members : d.members.Perm e.members)
      (inherits : d.inherits = e.inherits) (propagates : d.propagates = e.propagates) :
      SameDeclaration (.type d) (.type e)

/-- Reordering what a step lists does not change which type it is about. -/
theorem SameDeclaration.type?_eq {s s' : Declaration O} (h : SameDeclaration s s') :
    s.type? = s'.type? := by
  cases h with
  | refl s => rfl
  | type name => exact congrArg some name

/-- Reordering goes both ways. -/
theorem SameDeclaration.symm {s s' : Declaration O} (h : SameDeclaration s s') :
    SameDeclaration s' s := by
  cases h with
  | refl s => exact .refl s
  | type name supertypes members inherits propagates =>
      exact .type name.symm supertypes.symm members.symm inherits.symm propagates.symm

def Rearranged (steps steps' : List (Declaration O)) : Prop :=
  ∃ permuted, steps.Perm permuted ∧ List.Forall₂ SameDeclaration permuted steps'

namespace Rearranged

variable {steps steps' : List (Declaration O)}

theorem symm (h : Rearranged steps steps') : Rearranged steps' steps := by
  obtain ⟨permuted, hPerm, hSame⟩ := h
  obtain ⟨same, hSame', hPerm'⟩ := List.perm_comp_forall₂ hPerm hSame
  exact ⟨same, hPerm'.symm, (hSame'.imp fun _ _ hStep => hStep.symm).flip⟩

/-- What single steps contribute is the same in all if steps that are the same contribute the same. -/
theorem flatMap {β : Type} {f : Declaration O → List β} (h : Rearranged steps steps')
    (same : ∀ s s', SameDeclaration s s' → (f s).Perm (f s')) :
    (steps.flatMap f).Perm (steps'.flatMap f) := by
  obtain ⟨permuted, hPerm, hSame⟩ := h
  refine (hPerm.flatMap_right f).trans ?_
  clear hPerm
  induction hSame with
  | nil => exact .refl _
  | cons hStep _ ih =>
      rw [List.flatMap_cons, List.flatMap_cons]
      exact (same _ _ hStep).append ih

/-- What the steps give one by one is the same up to order. -/
theorem filterMap {β : Type} {f : Declaration O → Option β} (h : Rearranged steps steps')
    (same : ∀ s s', SameDeclaration s s' → f s = f s') :
    (steps.filterMap f).Perm (steps'.filterMap f) := by
  rw [List.filterMap_eq_flatMap_toList, List.filterMap_eq_flatMap_toList]
  exact h.flatMap fun s s' hStep => by rw [same s s' hStep]

/-- The same entry points are declared, in another order. -/
theorem entries (h : Rearranged steps steps') :
    (steps.filterMap Declaration.entry?).Perm (steps'.filterMap Declaration.entry?) := by
  refine h.filterMap fun s s' hStep => ?_
  cases hStep <;> rfl

theorem wholeNames (h : Rearranged steps steps') :
    (Declared.wholeNames steps).Perm (Declared.wholeNames steps') := by
  rw [Declared.wholeNames, Declared.wholeNames, List.map_filterMap, List.map_filterMap]
  refine h.filterMap fun s s' hStep => ?_
  cases hStep with
  | refl s => rfl
  | type name => exact congrArg some name

/-- The same types get their builtin filters. -/
theorem mem_builtins (h : Rearranged steps steps') (t : String) :
    .builtins t ∈ steps ↔ .builtins t ∈ steps' := by
  obtain ⟨permuted, hPerm, hSame⟩ := h
  rw [hPerm.mem_iff]
  clear hPerm
  induction hSame with
  | nil => exact Iff.rfl
  | cons hStep _ ih =>
      rw [List.mem_cons, List.mem_cons, ih]
      cases hStep with
      | refl s => exact Iff.rfl
      | type => simp

/-- The steps about one type are in another order as well. -/
theorem stepsAbout (h : Rearranged steps steps') (t : String) :
    Rearranged (Declared.stepsAbout steps t) (Declared.stepsAbout steps' t) := by
  obtain ⟨permuted, hPerm, hSame⟩ := h
  refine ⟨Declared.stepsAbout permuted t, hPerm.filter _, ?_⟩
  clear hPerm
  induction hSame with
  | nil => exact .nil
  | @cons s s' steps steps' hStep _ ih =>
      simp only [Declared.stepsAbout, List.filter_cons, hStep.type?_eq] at ih ⊢
      split
      · exact .cons hStep ih
      · exact ih

/-- What the declarations of a type at once list is the same up to order. -/
theorem wholes {β : Type} {f : TypeDeclaration O → List β} (h : Rearranged steps steps')
    (same : ∀ d e, SameDeclaration (.type d) (.type e) → (f d).Perm (f e)) (t : String) :
    ((Declared.wholes steps t).flatMap f).Perm ((Declared.wholes steps' t).flatMap f) := by
  have hSteps (steps : List (Declaration O)) : (Declared.wholes steps t).flatMap f =
      (Declared.stepsAbout steps t).flatMap fun s => s.whole?.toList.flatMap f := by
    rw [Declared.wholes, List.filterMap_eq_flatMap_toList, List.flatMap_assoc]
  rw [hSteps, hSteps]
  refine (h.stepsAbout t).flatMap fun s s' hStep => ?_
  cases hStep with
  | refl s => exact .refl _
  | @type d e name supertypes members inherits propagates =>
      simpa [Declaration.whole?] using same d e (.type name supertypes members inherits propagates)

theorem all_wholes {p : TypeDeclaration O → Bool} (h : Rearranged steps steps')
    (same : ∀ d e, SameDeclaration (.type d) (.type e) → p d = p e) (t : String) :
    (Declared.wholes steps t).all p = (Declared.wholes steps' t).all p := by
  have hPerm := h.wholes (f := fun d => [p d]) (fun d e hStep => by rw [same d e hStep]) t
  have hAll (ds : List (TypeDeclaration O)) : ds.all p = (ds.flatMap fun d => [p d]).all id := by
    simp
  rw [hAll, hAll, hPerm.all_eq]

variable [Inspectable O]

/-- Steps in another order say the same of each type. -/
theorem agreeAt (h : Rearranged steps steps') (t : String) :
    (Declared.ofSteps steps).AgreeAt (Declared.ofSteps steps') t := by
  constructor
  · rw [Declared.ofSteps, Declared.ofSteps, List.mem_eraseDups, List.mem_eraseDups]
    refine (h.filterMap fun s s' hStep => ?_).mem_iff
    exact hStep.type?_eq
  · refine h.wholes (fun d e hStep => ?_) t
    cases hStep with
    | refl => exact .refl _
    | type _ supertypes => exact supertypes
  · refine (h.stepsAbout t).flatMap fun s s' hStep => ?_
    cases hStep with
    | refl => exact .refl _
    | type _ _ members => exact members
  · refine h.all_wholes (fun d e hStep => ?_) t
    cases hStep with
    | refl => rfl
    | type _ _ _ inherits => exact inherits
  · refine h.all_wholes (fun d e hStep => ?_) t
    cases hStep with
    | refl => rfl
    | type _ _ _ _ propagates => exact propagates

/-- Steps in another order are in no conflict either. -/
theorem consistent (h : Rearranged steps steps') (hSteps : Consistent steps) :
    Consistent steps' := by
  obtain ⟨hTypes, hEntries, hMembers, hBuiltins⟩ := hSteps
  refine ⟨h.wholeNames.nodup_iff.mp hTypes, ?_, fun t => ?_, fun t ht => ?_⟩
  · exact (h.entries.map EntryPoint.name).nodup_iff.mp hEntries
  · exact ((h.agreeAt t).members.map Prod.fst).nodup_iff.mp (hMembers t)
  · exact hBuiltins t ((h.mem_builtins t).mpr ht)

end Rearranged

/-- Declarations that agree on every type are valid together. -/
theorem Declared.Valid.congr {D D' : Declared O} (agree : ∀ t, D.AgreeAt D' t) (h : D.Valid) :
    D'.Valid := by
  have hFrom (t : String) : D.AgreeFrom D' t := fun _ s _ => agree s
  refine ⟨fun t s hs => ?_, fun t hCycle => ?_, fun t m hm => ?_⟩
  · exact (agree s).types.mp (h.closed t s ((agree t).supertypes.mem_iff.mpr hs))
  · exact h.acyclic t ((hFrom t).symm.ancestor hCycle)
  · exact h.clear t m ((hFrom t).symm.ambiguous hm)

namespace AllowList

/-- An entry point is found by its name, as no name is repeated. -/
theorem entryPoint?_eq_some_iff {a : AllowList O} (distinct : (a.entries.map EntryPoint.name).Nodup)
    {n : String} {e : EntryPoint O} : a.entryPoint? n = some e ↔ e ∈ a.entries ∧ e.name = n := by
  constructor
  · intro h
    exact ⟨List.mem_of_find?_eq_some h, by simpa using List.find?_some h⟩
  · rintro ⟨he, rfl⟩
    have hSome : (a.entryPoint? e.name).isSome :=
      List.find?_isSome.mpr ⟨e, he, beq_self_eq_true e.name⟩
    obtain ⟨f, hf⟩ := Option.isSome_iff_exists.mp hSome
    have hName : f.name = e.name := by simpa using List.find?_some hf
    rw [hf, List.inj_on_of_nodup_map distinct (List.mem_of_find?_eq_some hf) he hName]

variable [Inspectable O]

/-- The same allow-list is built from the same steps in another order, or none is. -/
theorem ofSteps_rearranged {steps steps' : List (Declaration O)} (h : Rearranged steps steps')
    (order : VisitingOrder O) :
    ((∃ a, ofSteps steps = .ok a) ↔ ∃ a', ofStepsVisiting order steps' = .ok a') ∧
      ∀ a a', ofSteps steps = .ok a → ofStepsVisiting order steps' = .ok a' →
        (∀ t m, a'.accessor? t m = a.accessor? t m) ∧ ∀ n, a'.entryPoint? n = a.entryPoint? n := by
  refine ⟨?_, fun a a' ha ha' => ?_⟩
  · rw [ofSteps, ofStepsVisiting_ok_iff, ofStepsVisiting_ok_iff]
    refine and_congr ⟨h.consistent, h.symm.consistent⟩ ⟨?_, ?_⟩
    · exact Declared.Valid.congr h.agreeAt
    · exact Declared.Valid.congr h.symm.agreeAt
  · obtain ⟨⟨hSteps, _⟩, hEntries, hResolves⟩ := ofStepsVisiting_ok .found ha
    obtain ⟨⟨hSteps', _⟩, hEntries', hResolves'⟩ := ofStepsVisiting_ok order ha'
    refine ⟨fun t m => ?_, fun n => Option.ext fun e => ?_⟩
    · have agree : (Declared.ofSteps steps).AgreeFrom (Declared.ofSteps steps') t :=
        fun _ s _ => h.agreeAt s
      exact (hResolves' t m).unique (agree.resolves (hResolves t m)) hSteps'.members
    · rw [entryPoint?_eq_some_iff (hEntries'.symm ▸ hSteps'.entries),
        entryPoint?_eq_some_iff (hEntries.symm ▸ hSteps.entries), hEntries, hEntries',
        h.entries.mem_iff]

/-- The same types from the last one on, with supertypes and members from the last one on. -/
def bookStepsBackward : List (Declaration DocumentObject) :=
  [.type ⟨"Book", ["Borrowed", "Printed"], [], true, true⟩,
    .type ⟨"Borrowed", ["Item"], [("pages", .native)], false, true⟩,
    .type ⟨"Printed", ["Item"], [("title", .native), ("pages", .native)], true, true⟩,
    .type ⟨"Item", [], [("id", .native)], true, true⟩,
    .member "Item" "title" .native]

theorem ofSteps_rearranged_pages :
    Rearranged bookSteps bookStepsBackward ∧
      ∃ a a', ofSteps bookSteps = .ok a ∧
        ofStepsVisiting ⟨fun h d => (h.inheritedNames d).reverse, fun _ _ => List.reverse_perm _⟩
          bookStepsBackward = .ok a' ∧
        a.accessor? "Book" "pages" = some .native ∧ a'.accessor? "Book" "pages" = some .native := by
  have hSame : Rearranged bookSteps bookStepsBackward := by
    refine ⟨bookSteps.reverse, (List.reverse_perm _).symm, ?_⟩
    exact .cons (.type rfl (.swap _ _ _) (.refl _) rfl rfl) (.cons (.refl _)
      (.cons (.type rfl (.refl _) (.swap _ _ _) rfl rfl) (.cons (.refl _) (.cons (.refl _) .nil))))
  obtain ⟨a, ha, hPages⟩ : ∃ a, ofSteps bookSteps = .ok a ∧
      a.accessor? "Book" "pages" = some .native := ⟨_, rfl, rfl⟩
  obtain ⟨hBuilt, hAnswers⟩ := ofSteps_rearranged hSame
    ⟨fun h d => (h.inheritedNames d).reverse, fun _ _ => List.reverse_perm _⟩
  obtain ⟨a', ha'⟩ := hBuilt.mp ⟨a, ha⟩
  exact ⟨hSame, a, a', ha, ha', hPages, ((hAnswers a a' ha ha').1 "Book" "pages").trans hPages⟩

end AllowList

end GatedQuery
