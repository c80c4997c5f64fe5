import GatedQuery.Proofs.AllowList.Validation
import GatedQuery.Proofs.Canonical.Execution
import GatedQuery.Proofs.Secrecy.Running
import Mathlib.Data.String.Basic

/-! Which roots of a document a query can reach: those that the configuration lists, or all of them
if it has no list. Neither the keys of a document nor the types of a configuration repeat, so adding
the roots to what the configuration declares cannot fail, and what the roots that are not listed hold
is never looked at. -/

namespace GatedQuery

open Outcome

namespace Json

variable {key k : String} {value : Json} {ms : List (String × Json)}

/-- Setting a member adds its key and loses none. -/
theorem mem_keys_setMember :
    k ∈ (setMember key value ms).map Prod.fst ↔ k = key ∨ k ∈ ms.map Prod.fst := by
  induction ms with
  | nil => simp [setMember]
  | cons m ms ih =>
      obtain ⟨l, v⟩ := m
      rw [setMember]
      split
      next hSame => simp [hSame]
      next => rw [List.map_cons, List.mem_cons, ih, List.map_cons, List.mem_cons, or_left_comm]

/-- A key that is there already gets another value where it stands. -/
theorem nodup_keys_setMember (distinct : (ms.map Prod.fst).Nodup) :
    ((setMember key value ms).map Prod.fst).Nodup := by
  induction ms with
  | nil => simp [setMember]
  | cons m ms ih =>
      obtain ⟨l, v⟩ := m
      obtain ⟨hFirst, hRest⟩ := List.nodup_cons.mp distinct
      rw [setMember]
      split
      next => exact distinct
      next hOther =>
        refine List.nodup_cons.mpr ⟨fun hMem => ?_, ih hRest⟩
        exact (mem_keys_setMember.mp hMem).elim hOther hFirst

/-- Merged members have each key once. The induction is on the members that are merged in. -/
theorem nodup_keys_mergeMembers (ms : List (String × Json)) :
    ((mergeMembers ms).map Prod.fst).Nodup :=
  List.foldlRecOn (motive := fun known : List (String × Json) => (known.map Prod.fst).Nodup) ms _
    List.nodup_nil fun _ distinct _ _ => nodup_keys_setMember distinct

end Json

/-- The keys of a document do not repeat. -/
theorem nodup_keys_of_documentRoots {text : String} {roots : List (String × Json)}
    (h : documentRoots text = .ok roots) : (roots.map Prod.fst).Nodup := by
  unfold documentRoots at h
  split at h
  next found hMerged =>
    cases h
    obtain ⟨j, _, hObject⟩ := Option.map_eq_some_iff.mp hMerged
    cases j with
    | object members =>
        cases hObject
        exact Json.nodup_keys_mergeMembers _
    | _ => cases hObject
  next => cases h
  next => cases h

namespace Configuration

section Sorted

variable {α : Type} {key k : String} {value : α} {es : List (String × α)}

theorem mem_keys_insertSorted (h : k ∈ (insertSorted key value es).map Prod.fst) :
    k = key ∨ k ∈ es.map Prod.fst := by
  induction es with
  | nil => exact .inl (List.mem_singleton.mp h)
  | cons e es ih =>
      obtain ⟨l, v⟩ := e
      rw [insertSorted] at h
      split at h
      next hSame =>
        subst hSame
        exact .inr h
      next =>
        split at h
        next => exact List.mem_cons.mp h
        next =>
          rcases List.mem_cons.mp h with hFirst | hRest
          · exact .inr (List.mem_cons.mpr (.inl hFirst))
          · exact (ih hRest).imp_right fun hMem => List.mem_cons.mpr (.inr hMem)

/-- An entry is put where its key belongs, or replaces the entry of this key. -/
theorem sorted_insertSorted (sorted : (es.map Prod.fst).Pairwise (· < ·)) :
    ((insertSorted key value es).map Prod.fst).Pairwise (· < ·) := by
  induction es with
  | nil => exact List.pairwise_singleton _ _
  | cons e es ih =>
      obtain ⟨l, v⟩ := e
      obtain ⟨hFirst, hRest⟩ := List.pairwise_cons.mp sorted
      rw [insertSorted]
      split
      next hSame =>
        subst hSame
        exact sorted
      next hOther =>
        split
        next hLess =>
          refine List.pairwise_cons.mpr ⟨fun k hk => ?_, sorted⟩
          rcases List.mem_cons.mp hk with rfl | hk
          · exact hLess
          · exact hLess.trans (hFirst k hk)
        next hNotLess =>
          have hLater : l < key := lt_of_le_of_ne (not_lt.mp hNotLess) (Ne.symm hOther)
          refine List.pairwise_cons.mpr ⟨fun k hk => ?_, ih hRest⟩
          rcases mem_keys_insertSorted hk with rfl | hk
          · exact hLater
          · exact hFirst k hk

end Sorted

theorem nodup_types_of_typesOfJson? {j : Json} {types : List (String × TypeConfiguration)}
    (h : typesOfJson? j = some types) : (types.map Prod.fst).Nodup := by
  cases j with
  | object members =>
      obtain ⟨read, _, hSorted⟩ := Option.bind_eq_some_iff.mp h
      cases hSorted
      have sorted : ((read.foldl (fun es e => insertSorted e.1 e.2 es) []).map Prod.fst).Pairwise
          (· < ·) :=
        List.foldlRecOn
          (motive := fun es : List (String × TypeConfiguration) => (es.map Prod.fst).Pairwise (· < ·))
          read _ .nil fun _ sorted _ _ => sorted_insertSorted sorted
      exact sorted.imp ne_of_lt
  | _ => cases h

/-- A configuration has one declaration of each type. -/
theorem nodup_types_of_ofText {s : String} {c : Configuration} (h : ofText s = .ok c) :
    (c.types.map Prod.fst).Nodup := by
  unfold ofText at h
  split at h
  next found hFound =>
    cases h
    obtain ⟨j, _, hRead⟩ := Option.bind_eq_some_iff.mp hFound
    obtain ⟨fields, _, hRead⟩ := Option.bind_eq_some_iff.mp hRead
    obtain ⟨names, _, hRead⟩ := Option.bind_eq_some_iff.mp hRead
    obtain ⟨types, hTypes, hRead⟩ := Option.bind_eq_some_iff.mp hRead
    cases hRead
    unfold Json.field? at hTypes
    split at hTypes
    next => exact nodup_types_of_typesOfJson? hTypes
    next =>
      cases hTypes
      exact List.nodup_nil
  next => cases h

section Steps

variable {O : Type} [Inspectable O]

/-- The steps for a type declare it once, under its name. -/
theorem wholeNames_typeSteps {name : String} {t : TypeConfiguration} {part : List (Declaration O)}
    (h : typeSteps name t = .ok part) : Declared.wholeNames part = [name] := by
  obtain ⟨members, _, hPart⟩ := exists_of_bind_ok h
  cases hPart
  cases t.builtins <;> rfl

/-- A configuration declares its types at once, each of them under its own name. -/
theorem wholeNames_steps {c : Configuration} {steps : List (Declaration O)}
    (h : c.steps = .ok steps) : Declared.wholeNames steps = c.types.map Prod.fst := by
  obtain ⟨parts, hParts, hSteps⟩ := exists_of_bind_ok h
  cases hSteps
  have hEach := mapM_ok hParts
  generalize c.types = types at hEach
  clear hParts h
  induction hEach with
  | nil => rfl
  | cons head _ ih =>
      rw [List.flatten_cons, Declared.wholeNames_append, wholeNames_typeSteps head, ih]
      rfl

/-- Making the steps of a configuration fails for an unknown builtin filter only. -/
theorem steps_error {c : Configuration} {e : CommandError} (h : c.steps (O := O) = .error e) :
    ∃ message, e = .invalidConfiguration message := by
  obtain ⟨⟨name, t⟩, _, hPart⟩ := mapM_error (bind_pure_error_iff.mp h)
  cases hMembers : t.allow.mapM (member (O := O)) with
  | ok members =>
      simp only [typeSteps, hMembers] at hPart
      cases hPart
  | error e' =>
      simp only [typeSteps, hMembers] at hPart
      cases hPart
      obtain ⟨entry, _, hEntry⟩ := mapM_error hMembers
      cases entry with
      | name n => cases hEntry
      | filter n qualified =>
          rw [member] at hEntry
          split at hEntry
          next => cases hEntry
          next =>
            cases hEntry
            exact ⟨_, rfl⟩

end Steps

end Configuration

namespace Secrecy

variable {order : VisitingOrder DocumentObject} {c : Configuration}

/-- What a configuration declares is not refused for a repeated entry point or type. -/
theorem not_repeats_of_problem {steps : List (Declaration DocumentObject)} (hSteps : c.steps = .ok steps)
    (distinct : (c.types.map Prod.fst).Nodup) {e : DeclarationError} (h : Problem steps e) :
    (∀ n, e ≠ .duplicateEntryPoint n) ∧ ∀ t, e ≠ .alreadyDeclared t := by
  cases h with
  | @step before after s _ split _ fault =>
      cases fault with
      | entry known =>
          -- The steps of a configuration declare no entry points; the roots come after them.
          rcases mem_steps hSteps (split ▸ List.mem_append_right _ List.mem_cons_self) with
            ⟨d, hType, _⟩ | ⟨type, hBuiltins⟩
          · cases hType
          · cases hBuiltins
      | @type d known =>
          rw [← Configuration.wholeNames_steps hSteps, split, Declared.wholeNames_append] at distinct
          exact absurd known fun hKnown =>
            List.disjoint_of_nodup_append distinct hKnown List.mem_cons_self
      | builtins _ => exact ⟨nofun, nofun⟩
      | member _ _ _ _ _ => exact ⟨nofun, nofun⟩
  | declared _ refused =>
      cases refused <;> exact ⟨nofun, nofun⟩

section Entries

variable {O : Type}

/-- Entry points with names of their own are all added. -/
theorem addEntries_of_nodup [Inspectable O] (es : List (EntryPoint O)) (draft : Draft O)
    (distinct : ((draft.entries ++ es).map EntryPoint.name).Nodup) :
    (es.map .entry).foldlM Draft.add draft = .ok { draft with entries := draft.entries ++ es } := by
  induction es generalizing draft with
  | nil =>
      rw [List.append_nil]
      rfl
  | cons e es ih =>
      have hNew : (draft.entries.any fun f => f.name == e.name) = false := by
        rw [List.map_append, List.map_cons] at distinct
        rw [List.any_eq_false]
        intro f hf hSame
        exact List.disjoint_of_nodup_append distinct (List.mem_map_of_mem hf)
          (eq_of_beq hSame ▸ List.mem_cons_self)
      have hAdd : draft.add (.entry e) = .ok { draft with entries := draft.entries ++ [e] } := by
        rw [Draft.add, Draft.addEntry, hNew]
        rfl
      have hRest := ih { draft with entries := draft.entries ++ [e] } (by rwa [List.append_assoc])
      rw [List.append_assoc] at hRest
      rw [List.map_cons, List.foldlM_cons, hAdd]
      exact hRest

end Entries

theorem nodup_exposedEntries {roots : List (String × Json)} (distinct : (roots.map Prod.fst).Nodup) :
    ((exposedEntries c roots).map EntryPoint.name).Nodup := by
  unfold exposedEntries
  rw [List.map_map]
  exact distinct.sublist (List.filter_sublist.map Prod.fst)

variable (order) in
/-- The allow-list for a document is that of the configuration with the exposed roots. -/
theorem documentAllowList_of_nodup {roots : List (String × Json)}
    (distinct : (roots.map Prod.fst).Nodup) :
    documentAllowList order c roots =
      (documentAllowList order c []).map fun a => { a with entries := exposedEntries c roots } := by
  rw [documentAllowList_eq, documentAllowList_nil]
  cases hSteps : c.steps (O := DocumentObject) with
  | error e => rfl
  | ok steps =>
      change (AllowList.ofStepsVisiting order _).mapError _ =
        ((AllowList.ofStepsVisiting order steps).mapError _).map _
      unfold AllowList.ofStepsVisiting
      rw [ofSteps_append]
      cases hDraft : Draft.ofSteps steps with
      | error e => rfl
      | ok draft =>
          have hNone := entries_of_steps hSteps hDraft
          have hAdd := addEntries_of_nodup (exposedEntries c roots) draft
            (by rw [hNone]; exact nodup_exposedEntries distinct)
          rw [hNone, List.nil_append] at hAdd
          change ((List.map .entry (exposedEntries c roots)).foldlM Draft.add draft >>=
            AllowList.ofDraftVisiting order).mapError _ =
              ((AllowList.ofDraftVisiting order draft).mapError _).map _
          rw [hAdd]
          change (AllowList.ofDraftVisiting order
            { draft with entries := exposedEntries c roots }).mapError _ = _
          rw [ofDraftVisiting_of_types_eq order (d := draft)
            (e := { draft with entries := exposedEntries c roots }) rfl]
          cases AllowList.ofDraftVisiting order draft <;> rfl

def root? (roots : List (String × Json)) (key : String) : Option (EntryPoint DocumentObject) :=
  (roots.lookup key).map fun j => documentRoot key j.toDocument

/-- Among the exposed roots, a key is found if it is exposed and in the document. -/
theorem find?_exposedEntries (c : Configuration) (roots : List (String × Json)) (key : String) :
    (exposedEntries c roots).find? (fun e => e.name == key) =
      if c.exposes key then root? roots key else none := by
  induction roots with
  | nil => split <;> rfl
  | cons root roots ih =>
      obtain ⟨k, j⟩ := root
      unfold exposedEntries root? at ih ⊢
      by_cases hSame : key = k
      · subst hSame
        cases hExposed : c.exposes key with
        | true => simp [hExposed, documentRoot]
        | false =>
            rw [List.filter_cons_of_neg (by simpa using hExposed), ih, hExposed]
            rfl
      · have hOther : (k == key) = false := beq_eq_false_iff_ne.mpr (Ne.symm hSame)
        rw [lookup_cons_of_ne hSame, ← ih]
        cases hExposed : c.exposes k with
        | true => simp [hExposed, documentRoot, hOther]
        | false => rw [List.filter_cons_of_neg (by simpa using hExposed)]

/-- The entry points of the allow-list for a document are the exposed roots. -/
theorem entryPoint?_of_documentAllowList {roots : List (String × Json)}
    (distinct : (roots.map Prod.fst).Nodup) {a : AllowList DocumentObject}
    (h : documentAllowList order c roots = .ok a) (key : String) :
    a.entryPoint? key = if c.exposes key then root? roots key else none := by
  rw [documentAllowList_of_nodup order distinct] at h
  cases hBase : documentAllowList order c [] with
  | error e =>
      rw [hBase] at h
      cases h
  | ok base =>
      rw [hBase] at h
      cases h
      exact find?_exposedEntries c roots key

theorem exposes_of_some {names : List String} (h : c.entryPoints = some names) (key : String) :
    c.exposes key = names.contains key := by
  rw [Configuration.exposes, h]
  rfl

theorem exposes_of_none (h : c.entryPoints = none) (key : String) : c.exposes key = true := by
  rw [Configuration.exposes, h]
  rfl

section Listed

variable {names : List String} {first second : List (String × Json)}

/-- The check asks for the listed keys only. -/
theorem checkEntryPoints_congr (h : c.entryPoints = some names)
    (agree : ∀ n ∈ names, first.lookup n = second.lookup n) :
    checkEntryPoints c first = checkEntryPoints c second := by
  unfold checkEntryPoints
  rw [h]
  exact forM_congr fun n hn => by rw [agree n hn]

theorem checkEntryPoints_of_present (h : c.entryPoints = some names)
    (present : ∀ n ∈ names, (first.lookup n).isSome) : checkEntryPoints c first = .ok () := by
  cases hCheck : checkEntryPoints c first with
  | ok _ => rfl
  | error e =>
      unfold checkEntryPoints at hCheck
      rw [h] at hCheck
      obtain ⟨n, hMissing, hError⟩ := forM_error hCheck
      rw [if_pos (present n hMissing.mem)] at hError
      cases hError

variable (order) in
/-- Documents that agree on the listed keys make the same errors, or allow-lists that answer alike. -/
theorem solve_of_agreeing_roots (h : c.entryPoints = some names)
    (distinctFirst : (first.map Prod.fst).Nodup) (distinctSecond : (second.map Prod.fst).Nodup)
    (agree : ∀ n ∈ names, first.lookup n = second.lookup n) (q : Query) :
    SameOutcome (fun a b => (solve a q).outcome = (solve b q).outcome)
      (documentAllowList order c first) (documentAllowList order c second) := by
  rw [documentAllowList_of_nodup order distinctFirst, documentAllowList_of_nodup order distinctSecond]
  cases documentAllowList order c [] with
  | error e => exact .error e
  | ok base =>
      apply SameOutcome.ok
      refine solve_congr (a := ⟨exposedEntries c first, base.types⟩)
        (b := ⟨exposedEntries c second, base.types⟩) (fun key => ?_) (fun _ _ => rfl) q
      change (exposedEntries c first).find? _ = (exposedEntries c second).find? _
      rw [find?_exposedEntries, find?_exposedEntries, exposes_of_some h]
      split
      next hListed => rw [root?, root?, agree key (List.contains_iff_mem.mp hListed)]
      next => rfl

end Listed

/-- A query that starts from no entry point stops there. -/
theorem solve_of_unknown {O : Type} [Backend O] {a : AllowList O} {q : Query} {first : Step}
    {chain : List Step} (start : q.head.chain = first :: chain)
    (unknown : a.entryPoint? q.entryPoint = none) :
    (solve a q).outcome = .error (.unknownEntryPoint q.entryPoint first.position) := by
  simp only [solve, start, enter, unknown]
  rfl

/-- Neither the keys of a document nor the types of a configuration are repeated, so that nothing is
declared twice. -/
theorem not_repeats_of_documentAllowList {roots : List (String × Json)}
    (distinctTypes : (c.types.map Prod.fst).Nodup) (distinct : (roots.map Prod.fst).Nodup)
    {e : DeclarationError} (h : documentAllowList order c roots = .error (.declaration e)) :
    (∀ n, e ≠ .duplicateEntryPoint n) ∧ ∀ t, e ≠ .alreadyDeclared t := by
  rw [documentAllowList_of_nodup order distinct, documentAllowList_nil] at h
  cases hSteps : c.steps (O := DocumentObject) with
  | error e' =>
      rw [hSteps] at h
      obtain ⟨message, rfl⟩ := Configuration.steps_error hSteps
      cases h
  | ok steps =>
      rw [hSteps] at h
      change ((AllowList.ofStepsVisiting order steps).mapError _).map _ = _ at h
      cases hBuild : AllowList.ofStepsVisiting order steps with
      | ok base =>
          rw [hBuild] at h
          cases h
      | error e' =>
          rw [hBuild] at h
          cases h
          exact not_repeats_of_problem hSteps distinctTypes
            (AllowList.ofStepsVisiting_error order hBuild)

/-- Running a query exposes exactly the roots that are declared. Documents that agree on the listed
keys give the same output or the same error, up to which ambiguous member of a type is named; a query
that starts from a key that is not listed fails for that reason; without a list every key of a
document is an entry point; and no entry point and no type is ever declared twice. -/
theorem runQuery_exposes_declared_roots (options : RunOptions) {c : Configuration}
    (hConfiguration : Configuration.ofText options.configuration = .ok c) :
    (∀ names, c.entryPoints = some names →
      (∀ first second left right, documentRoots first = .ok left → documentRoots second = .ok right →
        (∀ n ∈ names, left.lookup n = right.lookup n) →
        RunsAlike { options with document := some first } { options with document := some second }) ∧
      ∀ order text roots a q, documentRoots text = .ok roots →
        (∀ n ∈ names, (roots.lookup n).isSome) → documentAllowList order c roots = .ok a →
        Query.ofText options.query = .ok q → q.entryPoint ∉ names →
        ∃ first chain, q.head.chain = first :: chain ∧
          runQueryVisiting order { options with document := some text } =
            .error (.resolution (.unknownEntryPoint q.entryPoint first.position))) ∧
    ∀ order text roots, documentRoots text = .ok roots →
      (∀ a, documentAllowList order c roots = .ok a → ∀ key,
        (c.entryPoints = none → a.entryPoint? key = root? roots key) ∧
        ∀ names, c.entryPoints = some names →
          a.entryPoint? key = if key ∈ names then root? roots key else none) ∧
      ∀ e, documentAllowList order c roots = .error (.declaration e) →
        (∀ n, e ≠ .duplicateEntryPoint n) ∧ ∀ t, e ≠ .alreadyDeclared t := by
  have hExposed {order : VisitingOrder DocumentObject} {text : String} {roots : List (String × Json)}
      (hRoots : documentRoots text = .ok roots) {a : AllowList DocumentObject}
      (hBuild : documentAllowList order c roots = .ok a) :=
    entryPoint?_of_documentAllowList (nodup_keys_of_documentRoots hRoots) hBuild
  refine ⟨fun names hNames => ⟨?_, ?_⟩, fun order text roots hRoots => ⟨?_, ?_⟩⟩
  · intro first second left right hFirst hSecond agree
    refine runsAlike_of_answerAlike fun d hRead => ?_
    cases hRead.symm.trans hConfiguration
    rw [hFirst, hSecond]
    refine .ok ⟨checkEntryPoints_congr hNames agree, fun order q => ?_⟩
    exact solve_of_agreeing_roots order hNames (nodup_keys_of_documentRoots hFirst)
      (nodup_keys_of_documentRoots hSecond) agree q
  · intro order text roots a q hRoots present hBuild hQuery hUnlisted
    obtain ⟨first, chain, hStart, _⟩ := (wellFormed_of_ofText hQuery).head.named
    refine ⟨first, chain, hStart, ?_⟩
    have hUnknown : a.entryPoint? q.entryPoint = none := by
      rw [hExposed hRoots hBuild, exposes_of_some hNames, if_neg (by simpa using hUnlisted)]
    simp only [runQueryVisiting, hQuery, hConfiguration, hRoots]
    change (checkEntryPoints c roots >>= fun _ => _) = _
    rw [checkEntryPoints_of_present hNames present]
    change (documentAllowList order c roots >>= _) = _
    rw [hBuild]
    change ((solve a q).outcome.mapError CommandError.resolution >>= _) = _
    rw [solve_of_unknown hStart hUnknown]
    rfl
  · intro a hBuild key
    refine ⟨fun hNone => ?_, fun names hNames => ?_⟩
    · rw [hExposed hRoots hBuild, exposes_of_none hNone, if_pos rfl]
    · rw [hExposed hRoots hBuild, exposes_of_some hNames]
      exact if_congr List.contains_iff_mem rfl rfl
  · intro e hError
    exact not_repeats_of_documentAllowList (Configuration.nodup_types_of_ofText hConfiguration)
      (nodup_keys_of_documentRoots hRoots) hError

section Equal

variable {allowed : Permissions} {opens : String → String → Bool}

mutual

/-- Where nothing is denied, trees that are alike are equal. -/
theorem eq_of_alike (granted : ∀ type name, allowed type name ≠ none) :
    ∀ {opened : Bool} {j k : Json}, Alike allowed opens opened j k → j = k
  | _, _, _, .null => rfl
  | _, _, _, .boolean _ => rfl
  | _, _, _, .integer _ => rfl
  | _, _, _, .float _ => rfl
  | _, _, _, .string _ => rfl
  | _, _, _, .array items => congrArg Json.array (eq_of_alikeItems granted items)
  | _, _, _, .map _ _ members => congrArg Json.object (eq_of_alikeMembers granted members)
  | _, _, _, .record _ _ fields => congrArg Json.object (eq_of_alikeFields granted fields)

theorem eq_of_alikeItems (granted : ∀ type name, allowed type name ≠ none) :
    ∀ {js ks : List Json}, AlikeItems allowed opens js ks → js = ks
  | _, _, .nil => rfl
  | _, _, .cons head rest =>
      congrArg₂ List.cons (eq_of_alike granted head) (eq_of_alikeItems granted rest)

theorem eq_of_alikeMembers (granted : ∀ type name, allowed type name ≠ none) :
    ∀ {ms ns : List (String × Json)}, AlikeMembers allowed opens ms ns → ms = ns
  | _, _, .nil => rfl
  | _, _, .cons head rest => by rw [eq_of_alike granted head, eq_of_alikeMembers granted rest]

theorem eq_of_alikeFields (granted : ∀ type name, allowed type name ≠ none) :
    ∀ {opened : Bool} {type : String} {ms ns : List (String × Json)},
      AlikeFields allowed opens opened type ms ns → ms = ns
  | _, _, _, _, .nil => rfl
  | _, _, _, _, .kept value rest => by
      rw [eq_of_alike granted value, eq_of_alikeFields granted rest]
  | _, _, _, _, .denied _ hidden _ => absurd hidden (granted _ _)

end

/-- What a document is read as can be found out by comparing trees, where no difference is
permitted. -/
theorem documentRoots_eq {text : String} {roots : List (String × Json)}
    (h : (documentRoots text).toOption.any
      (alikeMembers? (fun _ _ => some .native) (fun _ _ => false) · roots) = true) :
    documentRoots text = .ok roots := by
  obtain ⟨found, hFound, hAlike⟩ := (Option.any_eq_true _ _).mp h
  rw [ok_of_toOption hFound]
  exact congrArg Except.ok
    (eq_of_alikeMembers (fun _ _ => Option.some_ne_none _) (alikeMembers_of_alikeMembers? _ _ hAlike))

end Equal

def onlyMe : String :=
  "\x7b\"entry_points\":[\"Me\"],\"types\":\x7b\"User\":\x7b\"allow\":[\"name\"]\x7d\x7d\x7d"

def onlyMeRead : Configuration :=
  ⟨some ["Me"], [("User", ⟨[], [.name "name"], false, true, true⟩)]⟩

def meThenVault : String :=
  "\x7b\"Me\":\x7b\"__type__\":\"User\",\"name\":\"Ada\"\x7d,\"Vault\":\"gold\"\x7d"

def planThenMe : String :=
  "\x7b\"Plan\":\"retreat\",\"Me\":\x7b\"__type__\":\"User\",\"name\":\"Ada\"\x7d\x7d"

def ada : Json :=
  .object [("__type__", .string "User"), ("name", .string "Ada")]

theorem runQuery_exposes_me_alone :
    (Configuration.ofText onlyMe = .ok onlyMeRead ∧
      RunsAlike ⟨"Me \x7b name \x7d", onlyMe, some meThenVault, false⟩
        ⟨"Me \x7b name \x7d", onlyMe, some planThenMe, false⟩ ∧
      ∃ position, runQuery ⟨"Vault \x7b name \x7d", onlyMe, some meThenVault, false⟩ =
        .error (.resolution (.unknownEntryPoint "Vault" position))) ∧
    ∃ roots a, documentRoots meThenVault = .ok roots ∧
      documentAllowList .found ⟨none, []⟩ roots = .ok a ∧
        a.entryPoint? "Vault" = root? roots "Vault" := by
  have hRead : Configuration.ofText onlyMe = .ok onlyMeRead := ok_of_toOption (by decide +kernel)
  have hFirst : documentRoots meThenVault = .ok [("Me", ada), ("Vault", .string "gold")] :=
    documentRoots_eq (by decide +kernel)
  have hSecond : documentRoots planThenMe = .ok [("Plan", .string "retreat"), ("Me", ada)] :=
    documentRoots_eq (by decide +kernel)
  have hVault : (Query.ofText "Vault \x7b name \x7d").toOption.map Query.entryPoint = some "Vault" := by
    decide +kernel
  have hListed : (documentAllowList .found onlyMeRead
      [("Me", ada), ("Vault", .string "gold")]).toOption.isSome = true := by
    decide +kernel
  have hUnlimited : Configuration.ofText "\x7b\x7d" = .ok ⟨none, []⟩ :=
    ok_of_toOption (by decide +kernel)
  have hAll : (documentAllowList .found ⟨none, []⟩
      [("Me", ada), ("Vault", .string "gold")]).toOption.isSome = true := by
    decide +kernel
  refine ⟨⟨hRead, ?_, ?_⟩, ?_⟩
  · have hRuns := runQuery_exposes_declared_roots ⟨"Me \x7b name \x7d", onlyMe, none, false⟩ hRead
    exact (hRuns.1 ["Me"] rfl).1 meThenVault planThenMe _ _ hFirst hSecond
      (List.forall_mem_singleton.mpr rfl)
  · have hRuns := runQuery_exposes_declared_roots ⟨"Vault \x7b name \x7d", onlyMe, none, false⟩ hRead
    obtain ⟨q, hQuery, hStart⟩ := Option.map_eq_some_iff.mp hVault
    obtain ⟨a, hBuild⟩ := Option.isSome_iff_exists.mp hListed
    obtain ⟨first, _, _, hUnknown⟩ := (hRuns.1 ["Me"] rfl).2 .found meThenVault _ a q hFirst
      (List.forall_mem_singleton.mpr rfl) (ok_of_toOption hBuild) (ok_of_toOption hQuery) (by simp [hStart])
    rw [hStart] at hUnknown
    exact ⟨first.position, hUnknown⟩
  · have hRuns := runQuery_exposes_declared_roots ⟨"Me \x7b name \x7d", "\x7b\x7d", none, false⟩
      hUnlimited
    obtain ⟨a, hBuild⟩ := Option.isSome_iff_exists.mp hAll
    refine ⟨_, a, hFirst, ok_of_toOption hBuild, ?_⟩
    exact ((hRuns.2 .found meThenVault _ hFirst).1 a (ok_of_toOption hBuild) "Vault").1 rfl

/-- The members in the opposite order. -/
def lastFound {O : Type} : VisitingOrder O :=
  ⟨fun h d => (h.inheritedNames d).reverse, fun _ _ => List.reverse_perm _⟩

def ambiguous? : Except CommandError String → Option String
  | .error (.declaration (.ambiguousMember _ m _)) => some m
  | _ => none

def bothUpper : String :=
  "[\x7b\"name\":\"x\",\"filter\":\"string.upper\"\x7d,\x7b\"name\":\"y\",\"filter\":\"string.upper\"\x7d]"

/-- A configuration in which a type inherits two members from two supertypes. -/
def twoAmbiguous : String :=
  "\x7b\"entry_points\":[\"Me\"],\"types\":\x7b\"A\":\x7b\"allow\":" ++ bothUpper
    ++ "\x7d,\"B\":\x7b\"allow\":" ++ bothUpper ++ "\x7d,\"C\":\x7b\"extends\":[\"A\",\"B\"]\x7d\x7d\x7d"

/-- A configuration that lets queries see the keys of maps. -/
def mapsOnly : String :=
  "\x7b\"entry_points\":[\"Me\"],\"types\":\x7b\"map\":\x7b\"builtins\":true\x7d\x7d\x7d"

def aThenB : String :=
  "\x7b\"Me\":\x7b\"a\":1,\"b\":2\x7d\x7d"

def bThenA : String :=
  "\x7b\"Me\":\x7b\"b\":2,\"a\":1\x7d\x7d"

/-- Runs of one query against one document may name different members, and a query sees in which
order the keys of a listed root stand. -/
theorem runQuery_differs_on_agreeing_roots :
    ((Configuration.ofText twoAmbiguous).toOption.bind Configuration.entryPoints = some ["Me"] ∧
      ambiguous? (runQueryVisiting .found ⟨"Me \x7b x \x7d", twoAmbiguous, some aThenB, false⟩) =
        some "x" ∧
      ambiguous? (runQueryVisiting lastFound ⟨"Me \x7b x \x7d", twoAmbiguous, some aThenB, false⟩) =
        some "y") ∧
    (Configuration.ofText mapsOnly).toOption.bind Configuration.entryPoints = some ["Me"] ∧
      documentRoots aThenB = .ok [("Me", .object [("a", .integer 1), ("b", .integer 2)])] ∧
      documentRoots bThenA = .ok [("Me", .object [("b", .integer 2), ("a", .integer 1)])] ∧
      runQuery ⟨"Me \x7b keys \x7d", mapsOnly, some aThenB, false⟩ =
        .ok "\x7b\"keys\":[\"a\",\"b\"]\x7d" ∧
      runQuery ⟨"Me \x7b keys \x7d", mapsOnly, some bThenA, false⟩ =
        .ok "\x7b\"keys\":[\"b\",\"a\"]\x7d" := by
  refine ⟨⟨?_, ?_, ?_⟩, ?_, ?_, ?_, ?_, ?_⟩
  · decide +kernel
  · decide +kernel
  · decide +kernel
  · decide +kernel
  · exact documentRoots_eq (by decide +kernel)
  · exact documentRoots_eq (by decide +kernel)
  · exact ok_of_toOption (by decide +kernel)
  · exact ok_of_toOption (by decide +kernel)

end Secrecy

end GatedQuery
