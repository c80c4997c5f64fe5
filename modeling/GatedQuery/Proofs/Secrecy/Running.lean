import GatedQuery.Proofs.AllowList.Accessors
import GatedQuery.Proofs.Secrecy.Document
import GatedQuery.Proofs.Secrecy.Visiting

/-! Running a query against a document. What stands under a denied field does not change the output,
unless a call reads it out of a record that stands under a field of its own right. -/

namespace GatedQuery

open Outcome

/-- How a configuration resolves the members of types. It allows nothing if it makes no allow-list,
and the order of visiting does not matter. -/
def Configuration.accessor? (c : Configuration) : Permissions := fun type member =>
  match documentAllowList .found c [] with
  | .ok a => a.accessor? type member
  | .error _ => none

namespace Secrecy

section Accessors

variable {rel : Value DocumentObject → Value DocumentObject → Prop}

/-- Listed members are native or builtin filters, which answer related receivers alike. -/
theorem member_sameAccessor (h : Structural rel) {e : AllowEntry} {m : String × Accessor DocumentObject}
    (hm : Configuration.member e = .ok m) : SameAccessor rel m.2 m.2 := by
  cases e with
  | name n =>
      cases hm
      exact .native
  | filter n qualified =>
      simp only [Configuration.member] at hm
      split at hm
      · rename_i b hb
        cases hm
        obtain ⟨⟨type, name⟩, _, hFind⟩ := Option.bind_eq_some_iff.mp hb
        exact h.sameAccessor (List.mem_of_find?_eq_some hFind) qualified
      · cases hm

theorem builtinMembers_sameAccessor (h : Structural rel) (type : String) :
    MemberTable.All (fun x => SameAccessor rel x x) (Draft.builtinMembers type) := by
  intro m hm
  obtain ⟨b, hb, rfl⟩ := List.mem_map.mp hm
  exact h.sameAccessor hb _

/-- A configuration declares types, with members that it lists, and builtin filters of types. -/
theorem mem_steps {c : Configuration} {steps : List (Declaration DocumentObject)}
    (hSteps : c.steps = .ok steps) {step : Declaration DocumentObject} (hStep : step ∈ steps) :
    (∃ d, step = .type d ∧ ∀ m ∈ d.members, ∃ e, Configuration.member e = .ok m) ∨
      ∃ type, step = .builtins type := by
  obtain ⟨parts, hParts, hResult⟩ := exists_of_bind_ok hSteps
  cases hResult
  obtain ⟨part, hPart, hStep⟩ := List.mem_flatten.mp hStep
  obtain ⟨⟨name, t⟩, _, hPart⟩ := exists_of_mem_mapM hParts hPart
  obtain ⟨members, hMembers, hResult⟩ := exists_of_bind_ok hPart
  have hListed : ∀ m ∈ members, ∃ e, Configuration.member e = .ok m := by
    intro m hm
    obtain ⟨e, _, he⟩ := exists_of_mem_mapM hMembers hm
    exact ⟨e, he⟩
  cases hBuiltins : t.builtins with
  | true =>
      rw [hBuiltins] at hResult
      cases hResult
      rcases List.mem_cons.mp hStep with rfl | hStep
      · exact .inl ⟨_, rfl, hListed⟩
      · exact .inr ⟨name, List.mem_singleton.mp hStep⟩
  | false =>
      rw [hBuiltins] at hResult
      cases hResult
      exact .inl ⟨_, List.mem_singleton.mp hStep, hListed⟩

/-- The accessors of a configuration do the same for related receivers. -/
theorem steps_all (h : Structural rel) {c : Configuration}
    {steps : List (Declaration DocumentObject)} (hSteps : c.steps = .ok steps) :
    ∀ step ∈ steps, Declaration.All (fun x => SameAccessor rel x x) step := by
  intro step hStep
  rcases mem_steps hSteps hStep with ⟨d, rfl, hListed⟩ | ⟨type, rfl⟩
  · intro m hm
    obtain ⟨e, he⟩ := hListed m hm
    exact member_sameAccessor h he
  · exact builtinMembers_sameAccessor h type

/-- A configuration declares no entry points of its own. -/
theorem entries_of_steps {c : Configuration} {steps : List (Declaration DocumentObject)}
    (hSteps : c.steps = .ok steps) {draft : Draft DocumentObject}
    (hDraft : Draft.ofSteps steps = .ok draft) : draft.entries = [] := by
  refine foldlM_preserves (P := fun d : Draft DocumentObject => d.entries = []) ?_ rfl hDraft
  intro d step e hStep hNone hNext
  rcases mem_steps hSteps hStep with ⟨t, rfl, _⟩ | ⟨type, rfl⟩
  · simp only [Draft.add, Draft.addType] at hNext
    split at hNext
    · cases hNext
    · obtain ⟨types, _, hResult⟩ := exists_of_bind_ok hNext
      cases hResult
      exact hNone
  · simp only [Draft.add] at hNext
    split at hNext
    · cases hNext
    · obtain ⟨types, _, hResult⟩ := exists_of_bind_ok hNext
      cases hResult
      exact hNone

end Accessors

section Entries

variable {O : Type} {rel : Value O → Value O → Prop}

/-- Entry points of one name with related roots. -/
def SameEntryPoint (rel : Value O → Value O → Prop) (e f : EntryPoint O) : Prop :=
  e.name = f.name ∧ ∀ args : List Argument,
    SameOutcome rel (e.enter (.ofQuery args)) (f.enter (.ofQuery args))

/-- Drafts that declare the same types. -/
def SameDraft (rel : Value O → Value O → Prop) (d e : Draft O) : Prop :=
  d.types = e.types ∧ List.Forall₂ (SameEntryPoint rel) d.entries e.entries

theorem addEntry_sameDraft {d d' : Draft O} (h : SameDraft rel d d') {e f : EntryPoint O}
    (hEntry : SameEntryPoint rel e f) :
    SameOutcome (SameDraft rel) (d.addEntry e) (d'.addEntry f) := by
  have hKnown {xs ys : List (EntryPoint O)} (hEntries : List.Forall₂ (SameEntryPoint rel) xs ys) :
      (xs.any fun x => x.name == f.name) = ys.any fun x => x.name == f.name := by
    induction hEntries with
    | nil => rfl
    | cons head _ ih => rw [List.any_cons, List.any_cons, head.1, ih]
  unfold Draft.addEntry
  rw [hEntry.1, hKnown h.2]
  split
  · exact .error _
  · exact .ok ⟨h.1, List.rel_append h.2 (.cons hEntry .nil)⟩

/-- Adding related roots to drafts of the same types fails alike or gives such drafts again. -/
theorem addEntries_sameDraft [Inspectable O] {es fs : List (EntryPoint O)}
    (h : List.Forall₂ (SameEntryPoint rel) es fs) {d d' : Draft O} (hDraft : SameDraft rel d d') :
    SameOutcome (SameDraft rel) ((es.map .entry).foldlM Draft.add d)
      ((fs.map .entry).foldlM Draft.add d') := by
  induction h generalizing d d' with
  | nil => exact .ok hDraft
  | cons head _ ih =>
      rw [List.map_cons, List.map_cons, List.foldlM_cons, List.foldlM_cons]
      exact sameOutcome_bind (addEntry_sameDraft hDraft head) fun _ _ hNext => ih hNext

theorem ofSteps_append [Inspectable O] (steps more : List (Declaration O)) :
    Draft.ofSteps (steps ++ more) = Draft.ofSteps steps >>= fun d => more.foldlM Draft.add d := by
  unfold Draft.ofSteps
  rw [List.foldlM_append]

/-- Entry points change nothing about the types of a draft. -/
theorem addEntries_types [Inspectable O] {es : List (EntryPoint O)} {d d' : Draft O}
    (h : (es.map .entry).foldlM Draft.add d = .ok d') : d'.types = d.types := by
  refine foldlM_preserves (P := fun x : Draft O => x.types = d.types) ?_ rfl h
  intro b step c hStep hTypes hNext
  obtain ⟨e, _, rfl⟩ := List.mem_map.mp hStep
  simp only [Draft.add, Draft.addEntry] at hNext
  split at hNext
  · cases hNext
  · cases hNext
    exact hTypes

/-- Drafts of the same types build alike, as entry points do not take part in it. -/
theorem ofDraftVisiting_sameTypes (order : VisitingOrder O) {d e : Draft O}
    (h : SameDraft rel d e) :
    SameOutcome (fun a b => a.types = b.types ∧ List.Forall₂ (SameEntryPoint rel) a.entries b.entries)
      (AllowList.ofDraftVisiting order d) (AllowList.ofDraftVisiting order e) := by
  unfold AllowList.ofDraftVisiting
  rw [h.1]
  apply sameOutcome_bind_same
  intro _
  apply sameOutcome_bind_same
  intro _
  apply sameOutcome_bind_same
  intro types
  exact .ok ⟨rfl, h.2⟩

/-- An allow-list has the entry points of its draft, which decide nothing else about it. -/
theorem ofDraftVisiting_of_types_eq (order : VisitingOrder O) {d e : Draft O}
    (h : e.types = d.types) :
    AllowList.ofDraftVisiting order e =
      (AllowList.ofDraftVisiting order d).map fun a => { a with entries := e.entries } := by
  simp only [AllowList.ofDraftVisiting, h]
  cases Hierarchy.checkSupertypes d.types with
  | error _ => rfl
  | ok _ =>
      cases Hierarchy.checkCycles d.types with
      | error _ => rfl
      | ok _ =>
          cases d.types.mapM (Hierarchy.tableEntry d.types order) with
          | error _ => rfl
          | ok _ => rfl

theorem entryPoint?_sameEntries {a b : AllowList O}
    (h : List.Forall₂ (SameEntryPoint rel) a.entries b.entries) (name : String) :
    Option.Rel
      (fun e f => ∀ args : List Argument,
        SameOutcome rel (e.enter (.ofQuery args)) (f.enter (.ofQuery args)))
      (a.entryPoint? name) (b.entryPoint? name) := by
  unfold AllowList.entryPoint?
  generalize a.entries = es at h
  generalize b.entries = fs at h
  induction h with
  | nil => exact .none
  | @cons e f _ _ head _ ih =>
      rw [List.find?_cons, List.find?_cons, head.1]
      cases f.name == name with
      | true => exact .some head.2
      | false => exact ih

end Entries

section Documents

variable {order : VisitingOrder DocumentObject} {c : Configuration} {opens : String → String → Bool}

/-- The roots that a configuration exposes, as entry points. -/
def exposedEntries (c : Configuration) (roots : List (String × Json)) :
    List (EntryPoint DocumentObject) :=
  (roots.filter fun root => c.exposes root.1).map fun root =>
    documentRoot root.1 root.2.toDocument

/-- A document adds its exposed roots to what the configuration declares. -/
theorem documentAllowList_eq (order : VisitingOrder DocumentObject) (c : Configuration)
    (roots : List (String × Json)) :
    documentAllowList order c roots = c.steps >>= fun types =>
      (AllowList.ofStepsVisiting order (types ++ (exposedEntries c roots).map .entry)).mapError
        .declaration := by
  unfold documentAllowList exposedEntries
  rw [List.map_map]
  rfl

/-- Without roots there are the declarations of the configuration alone. -/
theorem documentAllowList_nil (order : VisitingOrder DocumentObject) (c : Configuration) :
    documentAllowList order c [] = c.steps >>= fun types =>
      (AllowList.ofStepsVisiting order types).mapError .declaration := by
  rw [documentAllowList_eq]
  change (c.steps >>= fun types => (AllowList.ofStepsVisiting order (types ++ [])).mapError _) = _
  simp only [List.append_nil]

/-- Members that are alike stand under the same keys, one by one. -/
theorem alikeMembers_forall₂ {ms ns : List (String × Json)}
    (h : AlikeMembers c.accessor? opens ms ns) :
    List.Forall₂ (fun m n => m.1 = n.1 ∧ Alike c.accessor? opens false m.2 n.2) ms ns := by
  induction ms generalizing ns with
  | nil =>
      cases h
      exact .nil
  | cons m ms ih =>
      cases h with
      | cons head rest => exact .cons ⟨rfl, head⟩ (ih rest)

theorem alikeMembers_lookup_isSome {ms ns : List (String × Json)}
    (h : AlikeMembers c.accessor? opens ms ns) (name : String) :
    (ms.lookup name).isSome = (ns.lookup name).isSome := by
  induction ms generalizing ns with
  | nil =>
      cases h
      rfl
  | cons m ms ih =>
      cases h with
      | cons head rest =>
          rw [List.lookup_cons, List.lookup_cons]
          split
          · rfl
          · exact ih rest

/-- Alike documents expose roots of the same names that look alike. -/
theorem exposedEntries_same {first second : List (String × Json)}
    (h : AlikeMembers c.accessor? c.accessor?.opened first second) :
    List.Forall₂ (SameEntryPoint (LookAlike c.accessor?)) (exposedEntries c first)
      (exposedEntries c second) := by
  unfold exposedEntries
  refine List.rel_map ?_ (List.rel_filter ?_ (alikeMembers_forall₂ h))
  · rintro ⟨key, j⟩ ⟨_, k⟩ ⟨rfl, hAlike⟩
    refine ⟨rfl, fun args => ?_⟩
    unfold documentRoot
    dsimp only
    split
    · exact .ok (lookAlike_of_alike hAlike)
    · exact .error _
  · rintro ⟨key, j⟩ ⟨_, k⟩ ⟨rfl, _⟩
    exact Iff.rfl

/-- The entry points of a document and the order of visiting do not change how members are
resolved. -/
theorem accessor?_of_documentAllowList {roots : List (String × Json)}
    {a : AllowList DocumentObject} (h : documentAllowList order c roots = .ok a) :
    c.accessor? = a.accessor? := by
  have hSame := documentAllowList_same .found order c []
  rw [documentAllowList_eq] at h
  obtain ⟨steps, hSteps, h⟩ := exists_of_bind_ok h
  obtain ⟨draft, hDraft, hBuild⟩ := exists_of_bind_ok (mapError_ok h)
  rw [ofSteps_append] at hDraft
  obtain ⟨base, hBase, hEntries⟩ := exists_of_bind_ok hDraft
  have hBuilt : AllowList.ofDraftVisiting order base = .ok { a with entries := base.entries } := by
    rw [ofDraftVisiting_of_types_eq order (addEntries_types hEntries).symm, hBuild]
    rfl
  -- The configuration alone makes the same tables in this order, and in any other one the same
  -- answers.
  have hAlone : documentAllowList order c [] = .ok { a with entries := base.entries } := by
    rw [documentAllowList_nil, hSteps]
    change (AllowList.ofStepsVisiting order steps).mapError _ = _
    unfold AllowList.ofStepsVisiting
    rw [hBase]
    change (AllowList.ofDraftVisiting order base).mapError _ = _
    rw [hBuilt]
    rfl
  rw [hAlone] at hSame
  funext type member
  unfold Configuration.accessor?
  cases hFound : documentAllowList .found c [] with
  | error e =>
      rw [hFound] at hSame
      cases hSame
  | ok f =>
      rw [hFound] at hSame
      cases hSame with
      | ok same => exact same.2 type member

/-- Alike documents give drafts of the same types. -/
theorem ofSteps_sameDraft {steps : List (Declaration DocumentObject)} (hSteps : c.steps = .ok steps)
    {first second : List (String × Json)}
    (h : AlikeMembers c.accessor? c.accessor?.opened first second) :
    SameOutcome (SameDraft (LookAlike c.accessor?))
      (Draft.ofSteps (steps ++ (exposedEntries c first).map .entry))
      (Draft.ofSteps (steps ++ (exposedEntries c second).map .entry)) := by
  rw [ofSteps_append, ofSteps_append]
  cases hBase : Draft.ofSteps steps with
  | error e => exact .error e
  | ok base =>
      have hSame : SameDraft (LookAlike c.accessor?) base base := by
        refine ⟨rfl, ?_⟩
        rw [entries_of_steps hSteps hBase]
        exact .nil
      exact addEntries_sameDraft (exposedEntries_same h) hSame

variable (order) in
theorem documentAllowList_sameTypes {first second : List (String × Json)}
    (h : AlikeMembers c.accessor? c.accessor?.opened first second) :
    SameOutcome
      (fun a b => a.types = b.types ∧
        List.Forall₂ (SameEntryPoint (LookAlike c.accessor?)) a.entries b.entries)
      (documentAllowList order c first) (documentAllowList order c second) := by
  rw [documentAllowList_eq, documentAllowList_eq]
  cases hSteps : c.steps (O := DocumentObject) with
  | error e => exact .error e
  | ok steps =>
      refine sameOutcome_mapError ?_ _
      exact sameOutcome_bind (ofSteps_sameDraft hSteps h) fun _ _ hDraft =>
        ofDraftVisiting_sameTypes order hDraft

/-- Every accessor of a document's allow-list answers values that look alike in the same way. -/
theorem accessor?_sameAccessor {roots : List (String × Json)} {a : AllowList DocumentObject}
    (h : documentAllowList order c roots = .ok a) {type name : String} {x : Accessor DocumentObject}
    (hx : a.accessor? type name = some x) :
    SameAccessor (LookAlike c.accessor?) x x := by
  rw [documentAllowList_eq] at h
  obtain ⟨steps, hSteps, h⟩ := exists_of_bind_ok h
  refine AllowList.ofStepsVisiting_all (P := fun x => SameAccessor (LookAlike c.accessor?) x x) ?_
    (mapError_ok h) hx
  intro step hStep
  rcases List.mem_append.mp hStep with hType | hEntry
  · exact steps_all (lookAlike_structural c.accessor?) hSteps step hType
  · obtain ⟨e, _, rfl⟩ := List.mem_map.mp hEntry
    trivial

variable (order) in
/-- Documents that are alike make the same errors, or worlds that no query can tell apart. -/
theorem documentAllowList_indistinguishable {first second : List (String × Json)}
    (h : AlikeMembers c.accessor? c.accessor?.opened first second) :
    SameOutcome (fun a b => Indistinguishable a b (LookAlike c.accessor?))
      (documentAllowList order c first) (documentAllowList order c second) := by
  have hSame := documentAllowList_sameTypes order h
  generalize documentAllowList order c second = built at hSame
  cases hFirst : documentAllowList order c first with
  | error e =>
      rw [hFirst] at hSame
      cases hSame
      exact .error e
  | ok a =>
      rw [hFirst] at hSame
      cases hSame with
      | @ok _ b related =>
          obtain ⟨hTypes, hEntries⟩ := related
          have hAccessor := accessor?_of_documentAllowList hFirst
          refine .ok (.of_iff (lookAlike_iff_sameShape _) ?_ (entryPoint?_sameEntries hEntries) ?_)
          · intro o p ho
            rw [hAccessor] at ho ⊢
            exact lookAlike_sameView ho
          · intro type name
            have hEqual : b.accessor? type name = a.accessor? type name := by
              unfold AllowList.accessor?
              rw [hTypes]
            rw [hEqual]
            cases hx : a.accessor? type name with
            | none => exact .none
            | some x => exact .some (accessor?_sameAccessor hFirst hx)

theorem checkEntryPoints_eq {first second : List (String × Json)}
    (h : AlikeMembers c.accessor? opens first second) :
    checkEntryPoints c first = checkEntryPoints c second := by
  unfold checkEntryPoints
  congr 1
  funext name
  rw [alikeMembers_lookup_isSome h name]

end Documents

/-- A call of a field that holds a record reads any entry of that record, whatever the allow-list says
about its type. -/
theorem takeStep_reads_into_record {a : AllowList DocumentObject} {r s : Record DocumentObject}
    {name : String} (native : a.accessor? r.typeName name = some .native)
    (field : r.read name = some (.object (.record s))) (key : String) (position : Position) :
    (takeStep a (.call name [.positional (.string key)] position) (.object (.record r))).outcome =
      .ok ((s.read key).getD .null) := by
  have hAllowed : allowed a name position (.object (.record r)) = pure .native := by
    unfold allowed
    rw [show a.accessor? (Value.object (DocumentObject.record r)).typeName name = some .native
      from native]
  have hCall : Backend.call (DocumentObject.record r) name
      (.ofQuery [.positional (.string key)]) = some (.ok ((s.read key).getD .null)) := by
    change r.call name _ = _
    unfold Record.call
    rw [field]
    rfl
  simp only [takeStep, hAllowed]
  change (callMember name (.ofQuery [.positional (.string key)]) position
    (.object (DocumentObject.record r))).outcome = _
  unfold callMember callMethod
  dsimp only
  rw [hCall]
  rfl

def alikeRoots? (c : Configuration) (opens : String → String → Bool) (first second : String) : Bool :=
  match documentRoots first, documentRoots second with
  | .ok left, .ok right => alikeMembers? c.accessor? opens left right
  | _, _ => false

/-- The comparison of two documents only holds of documents that are alike. -/
theorem alike_of_alikeRoots? {c : Configuration} {opens : String → String → Bool}
    {first second : String} (h : alikeRoots? c opens first second = true) :
    SameOutcome (AlikeMembers c.accessor? opens) (documentRoots first) (documentRoots second) := by
  unfold alikeRoots? at h
  generalize documentRoots first = x at h ⊢
  generalize documentRoots second = y at h ⊢
  cases x with
  | error e => cases h
  | ok left =>
      cases y with
      | error e => cases h
      | ok right => exact .ok (alikeMembers_of_alikeMembers? _ _ h)

theorem ok_of_toOption {ε α : Type} {x : Except ε α} {y : α} (h : x.toOption = some y) :
    x = .ok y := by
  cases x with
  | ok z => exact congrArg Except.ok (Option.some.inj h)
  | error e => cases h

def profile (password : String) : String :=
  "\x7b\"__type__\":\"User\",\"name\":\"Ada\",\"password\":\"" ++ password ++ "\"\x7d"

def me (password : String) : String :=
  "\x7b\"Me\":" ++ profile password ++ "\x7d"

def staff (password : String) : String :=
  "\x7b\"Staff\":\x7b\"__type__\":\"Team\",\"boss\":" ++ profile password ++ "\x7d\x7d"

/-- A configuration that lets queries see bosses and their names. -/
def namesOnly : String :=
  "\x7b\"types\":\x7b\"Team\":\x7b\"allow\":[\"boss\"]\x7d,\"User\":\x7b\"allow\":[\"name\"]\x7d\x7d\x7d"

def namesOnlyRead : Configuration :=
  ⟨none, [("Team", ⟨[], [.name "boss"], false, true, true⟩),
    ("User", ⟨[], [.name "name"], false, true, true⟩)]⟩

theorem namesOnly_read : Configuration.ofText namesOnly = .ok namesOnlyRead :=
  ok_of_toOption (by decide +kernel)

/-- What stands under a field that the configuration denies does not change the output of a query,
as long as it does not stand in a record that is itself the value of a field that a query may
call. -/
theorem runQuery_ignores_denied_fields (options : RunOptions) {first second : String}
    (h : ∀ c, Configuration.ofText options.configuration = .ok c →
      SameOutcome (AlikeMembers c.accessor? c.accessor?.opened) (documentRoots first)
        (documentRoots second)) :
    RunsAlike { options with document := some first } { options with document := some second } := by
  refine runsAlike_of_answerAlike fun c hConfiguration => ?_
  refine (h c hConfiguration).imp fun left right hRoots => ⟨checkEntryPoints_eq hRoots, ?_⟩
  intro order q
  refine (documentAllowList_indistinguishable order hRoots).imp fun a b hAlike => ?_
  obtain ⟨answer, hFirst, hSecond⟩ := exists_plain_of_sameOutcome (hAlike.solve q)
  exact hFirst.trans hSecond.symm

theorem runQuery_ignores_password :
    (∀ c, Configuration.ofText namesOnly = .ok c →
      SameOutcome (AlikeMembers c.accessor? c.accessor?.opened) (documentRoots (me "hunter2"))
        (documentRoots (me "letmein"))) ∧
    RunsAlike ⟨"Me \x7b name, password \x7d", namesOnly, some (me "hunter2"), false⟩
      ⟨"Me \x7b name, password \x7d", namesOnly, some (me "letmein"), false⟩ := by
  have hAlike : ∀ c, Configuration.ofText namesOnly = .ok c →
      SameOutcome (AlikeMembers c.accessor? c.accessor?.opened) (documentRoots (me "hunter2"))
        (documentRoots (me "letmein")) := by
    intro c hc
    have hCompared : alikeRoots? namesOnlyRead namesOnlyRead.accessor?.opened (me "hunter2")
        (me "letmein") = true := by
      decide +kernel
    cases hc.symm.trans namesOnly_read
    exact alike_of_alikeRoots? hCompared
  exact ⟨hAlike, runQuery_ignores_denied_fields
    ⟨"Me \x7b name, password \x7d", namesOnly, none, false⟩ hAlike⟩

/-- Two documents that differ in a denied field alone, which a call still reads out. -/
theorem runQuery_reads_denied_field :
    (∀ c, Configuration.ofText namesOnly = .ok c →
      SameOutcome (AlikeMembers c.accessor? fun _ _ => false) (documentRoots (staff "hunter2"))
        (documentRoots (staff "letmein"))) ∧
    (runQuery ⟨"Staff \x7b leak: boss('password') \x7d", namesOnly, some (staff "hunter2"), false⟩ ≠
      runQuery ⟨"Staff \x7b leak: boss('password') \x7d", namesOnly, some (staff "letmein"), false⟩) := by
  constructor
  · intro c hc
    have hAlike : alikeRoots? namesOnlyRead (fun _ _ => false) (staff "hunter2") (staff "letmein") =
        true := by
      decide +kernel
    cases hc.symm.trans namesOnly_read
    exact alike_of_alikeRoots? hAlike
  · intro hEqual
    have hDiffers : (runQuery ⟨"Staff \x7b leak: boss('password') \x7d", namesOnly,
        some (staff "hunter2"), false⟩).toOption ≠ (runQuery ⟨"Staff \x7b leak: boss('password') \x7d",
        namesOnly, some (staff "letmein"), false⟩).toOption := by
      decide +kernel
    exact hDiffers (congrArg Except.toOption hEqual)

end Secrecy

end GatedQuery
