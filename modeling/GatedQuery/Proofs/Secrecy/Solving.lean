import GatedQuery.Proofs.Secrecy.Relation
import GatedQuery.Proofs.Solve.Chains

/-! Solving cannot tell two worlds apart that a relation makes look alike. Every step keeps the
current values related, and a result holds no object by which two answers could still differ. -/

namespace GatedQuery

/-- A value without objects. -/
abbrev PlainValue := Value Empty

namespace Value

variable {O : Type}

mutual

def ofPlain : PlainValue → Value O
  | null => null
  | boolean b => boolean b
  | integer n => integer n
  | float x => float x
  | string s => string s
  | list items => list (ofPlainItems items)
  | map entries => map (ofPlainEntries entries)

def ofPlainItems : List PlainValue → List (Value O)
  | [] => []
  | v :: vs => ofPlain v :: ofPlainItems vs

def ofPlainEntries : List (String × PlainValue) → List (String × Value O)
  | [] => []
  | (k, v) :: es => (k, ofPlain v) :: ofPlainEntries es

end

end Value

namespace Secrecy

variable {O P : Type}

/-- Two values that are one and the same plain data. -/
def SameData (v : Value O) (w : Value P) : Prop :=
  ∃ x : PlainValue, v = .ofPlain x ∧ w = .ofPlain x

theorem sameData_list {vs : List (Value O)} {ws : List (Value P)}
    (h : List.Forall₂ SameData vs ws) : SameData (.list vs) (.list ws) := by
  have hItems : ∃ xs : List PlainValue, vs = Value.ofPlainItems xs ∧ ws = Value.ofPlainItems xs := by
    induction h with
    | nil => exact ⟨[], rfl, rfl⟩
    | cons head _ ih =>
        obtain ⟨x, rfl, rfl⟩ := head
        obtain ⟨xs, rfl, rfl⟩ := ih
        exact ⟨x :: xs, rfl, rfl⟩
  obtain ⟨xs, rfl, rfl⟩ := hItems
  exact ⟨.list xs, rfl, rfl⟩

theorem sameData_map {es : List (String × Value O)} {fs : List (String × Value P)}
    (h : List.Forall₂ (SameEntry SameData) es fs) : SameData (.map es) (.map fs) := by
  have hEntries : ∃ xs : List (String × PlainValue),
      es = Value.ofPlainEntries xs ∧ fs = Value.ofPlainEntries xs := by
    induction h with
    | nil => exact ⟨[], rfl, rfl⟩
    | @cons e f _ _ head _ ih =>
        obtain ⟨k, v⟩ := e
        obtain ⟨l, w⟩ := f
        obtain ⟨hKey, x, hv, hw⟩ := head
        obtain ⟨xs, rfl, rfl⟩ := ih
        refine ⟨(k, x) :: xs, ?_, ?_⟩
        · rw [Value.ofPlainEntries, ← hv]
        · rw [Value.ofPlainEntries, ← hw]
          exact congrArg (fun key => (key, w) :: Value.ofPlainEntries xs) hKey.symm
  obtain ⟨xs, rfl, rfl⟩ := hEntries
  exact ⟨.map xs, rfl, rfl⟩

mutual

/-- What a query answers where there is nothing to start from is the same everywhere. -/
theorem sameData_nullForm : ∀ r : Resource,
    SameData (r.nullForm : Value O) (r.nullForm : Value P)
  | .field _ => ⟨.null, rfl, rfl⟩
  | .list _ _ => sameData_list .nil
  | .object _ children => sameData_map (sameData_nullForms children)

/-- The null forms of resources are plain data that does not depend on a backend. -/
theorem sameData_nullForms : ∀ rs : List Resource,
    List.Forall₂ (SameEntry SameData) (Resource.nullForms rs : List (String × Value O))
      (Resource.nullForms rs : List (String × Value P))
  | [] => .nil
  | r :: rs => .cons ⟨rfl, sameData_nullForm r⟩ (sameData_nullForms rs)

end

/-- Outcomes that agree on plain data are one outcome without objects. -/
theorem exists_plain_of_sameOutcome {x : Except ResolutionError (Value O)}
    {y : Except ResolutionError (Value P)} (h : SameOutcome SameData x y) :
    ∃ answer : Except ResolutionError PlainValue,
      x = answer.map .ofPlain ∧ y = answer.map .ofPlain := by
  cases h with
  | ok related =>
      obtain ⟨v, rfl, rfl⟩ := related
      exact ⟨.ok v, rfl, rfl⟩
  | error e => exact ⟨.error e, rfl, rfl⟩

/-- Two runs with the same failure or with related results. -/
def SameRun {α β : Type} (rel : α → β → Prop) (r : Run O α) (s : Run P β) : Prop :=
  SameOutcome rel r.outcome s.outcome

section Runs

variable {α β γ δ : Type} {R : α → β → Prop} {S : γ → δ → Prop}

theorem sameRun_pure {x : α} {y : β} (h : R x y) :
    SameRun R (pure x : Run O α) (pure y : Run P β) :=
  .ok h

theorem sameRun_fail (e : ResolutionError) :
    SameRun R (Run.fail e : Run O α) (Run.fail e : Run P β) :=
  .error e

/-- Going on from related results in a related way. -/
theorem sameRun_bind {r : Run O α} {s : Run P β} {f : α → Run O γ} {g : β → Run P δ}
    (h : SameRun R r s) (next : ∀ x y, R x y → SameRun S (f x) (g y)) :
    SameRun S (r >>= f) (s >>= g) := by
  obtain ⟨_, x⟩ := r
  obtain ⟨_, y⟩ := s
  change SameOutcome R x y at h
  cases h with
  | ok related => exact next _ _ related
  | error e => exact .error e

/-- Loops over related items run alike if their rounds do. -/
theorem sameRun_each {f : α → Run O γ} {g : β → Run P δ} {xs : List α} {ys : List β}
    (h : List.Forall₂ R xs ys) (run : ∀ x y, R x y → SameRun S (f x) (g y)) :
    SameRun (List.Forall₂ S) (Run.each f xs) (Run.each g ys) := by
  induction h with
  | nil => exact sameRun_pure .nil
  | cons head _ ih =>
      apply sameRun_bind (run _ _ head)
      intro x y hxy
      exact sameRun_bind ih fun _ _ hRest => sameRun_pure (.cons hxy hRest)

/-- The outcome of a call by name, which keeps the cause of a failure. -/
theorem sameOutcome_called {x : Except CallFailure α} {y : Except CallFailure β}
    (h : SameOutcome R x y) (name : String) (position : Position) :
    SameOutcome R (called name position x) (called name position y) :=
  sameOutcome_mapError h _

end Runs

namespace Indistinguishable

variable [Backend O] [Backend P] {a : AllowList O} {b : AllowList P}
  {rel : Value O → Value P → Prop}

mutual

/-- A field replaces related objects by one text, so nothing is left in which they could differ. -/
theorem plain (h : Indistinguishable a b rel) :
    ∀ (v : Value O) (w : Value P), rel v w → SameData v.plain w.plain
  | .null, _, hv => by
      cases h.shape _ _ hv
      exact ⟨.null, rfl, rfl⟩
  | .boolean x, _, hv => by
      cases h.shape _ _ hv
      exact ⟨.boolean x, rfl, rfl⟩
  | .integer n, _, hv => by
      cases h.shape _ _ hv
      exact ⟨.integer n, rfl, rfl⟩
  | .float x, _, hv => by
      cases h.shape _ _ hv
      exact ⟨.float x, rfl, rfl⟩
  | .string s, _, hv => by
      cases h.shape _ _ hv
      exact ⟨.string s, rfl, rfl⟩
  | .list xs, _, hv => by
      cases h.shape _ _ hv with
      | list items => exact sameData_list (plainItems h xs _ items)
  | .map es, _, hv => by
      cases h.shape _ _ hv with
      | map entries => exact sameData_map (plainEntries h es _ entries)
  | .object o, _, hv => by
      cases h.shape _ _ hv with
      | @object _ p related =>
          have hRender := (h.objects _ _ related).render
          exact ⟨.string (Backend.render o), rfl, congrArg Value.string hRender.symm⟩

/-- Related values are the same plain data once their objects are replaced by texts. -/
theorem plainItems (h : Indistinguishable a b rel) :
    ∀ (xs : List (Value O)) (ys : List (Value P)), List.Forall₂ rel xs ys →
      List.Forall₂ SameData (Value.plainItems xs) (Value.plainItems ys)
  | [], _, .nil => .nil
  | x :: xs, _, .cons head rest => .cons (plain h x _ head) (plainItems h xs _ rest)

theorem plainEntries (h : Indistinguishable a b rel) :
    ∀ (es : List (String × Value O)) (fs : List (String × Value P)),
      List.Forall₂ (SameEntry rel) es fs →
        List.Forall₂ (SameEntry SameData) (Value.plainEntries es) (Value.plainEntries fs)
  | [], _, .nil => .nil
  | (_, v) :: es, _, .cons ⟨hKey, hValue⟩ rest =>
      .cons ⟨hKey, plain h v _ hValue⟩ (plainEntries h es _ rest)

end

variable {v : Value O} {w : Value P}

/-- A missing member is reported in the same words, as these tell the kind of the value alone. -/
theorem memberNotFound (h : Indistinguishable a b rel) (hv : rel v w) (name : String)
    (position : Position) :
    SameRun rel (Run.fail (memberNotFound name v position) : Run O (Value O))
      (Run.fail (GatedQuery.memberNotFound name w position) : Run P (Value P)) := by
  unfold GatedQuery.memberNotFound
  rw [h.typeName_eq hv]
  exact sameRun_fail _

/-- A member is read only when the allow-list leaves it to the value itself. -/
theorem readMember (h : Indistinguishable a b rel) (hv : rel v w) {name : String}
    (native : a.accessor? v.typeName name = some .native) (position : Position) :
    SameRun rel (readMember name position v) (GatedQuery.readMember name position w) := by
  have hMissing := h.memberNotFound hv name position
  cases h.shape v w hv with
  | @map es fs entries =>
      have hEntry := related_lookup entries name
      unfold GatedQuery.readMember
      dsimp only
      revert hEntry
      generalize es.lookup name = x
      generalize fs.lookup name = y
      intro hEntry
      cases hEntry with
      | none => exact hMissing
      | some related => exact sameRun_pure related
  | @object o p related =>
      have hView := h.objects _ _ related
      have hRead : SameRun (Option.Rel rel) (readAttribute o name) (readAttribute p name) :=
        .ok (hView.read name native)
      have hCall : SameRun (Option.Rel (SameOutcome rel)) (callMethod o name .none)
          (callMethod p name .none) :=
        .ok (hView.call name native [])
      apply sameRun_bind hRead
      intro x y hxy
      cases hxy with
      | some related => exact sameRun_pure related
      | none =>
          apply sameRun_bind hCall
          intro x y hxy
          cases hxy with
          | some answer => exact sameOutcome_called answer name position
          | none => exact hMissing
  | _ => exact hMissing

/-- Whether a member is missing or only cannot be called is told by what the allow-list leaves to the
value, too. -/
theorem notCallable (h : Indistinguishable a b rel) (hv : rel v w) (name : String)
    (position : Position) {x : Option (Value O)} {y : Option (Value P)}
    (found : Option.Rel rel x y) :
    SameRun rel (notCallable name v position x.isSome)
      (GatedQuery.notCallable name w position y.isSome) := by
  cases found with
  | none => exact h.memberNotFound hv name position
  | some _ => exact sameRun_fail _

/-- Objects are called alike where the allow-list leaves the member to them. -/
theorem callMember (h : Indistinguishable a b rel) (hv : rel v w) {name : String}
    (native : a.accessor? v.typeName name = some .native) (args : List Argument)
    (position : Position) :
    SameRun rel (callMember name (.ofQuery args) position v)
      (GatedQuery.callMember name (.ofQuery args) position w) := by
  have hMissing := h.memberNotFound hv name position
  cases h.shape v w hv with
  | map entries => exact h.notCallable hv name position (related_lookup entries name)
  | @object o p related =>
      have hView := h.objects _ _ related
      have hCall : SameRun (Option.Rel (SameOutcome rel)) (callMethod o name (.ofQuery args))
          (callMethod p name (.ofQuery args)) :=
        .ok (hView.call name native args)
      have hRead : SameRun (Option.Rel rel) (readAttribute o name) (readAttribute p name) :=
        .ok (hView.read name native)
      apply sameRun_bind hCall
      intro x y hxy
      cases hxy with
      | some answer => exact sameOutcome_called answer name position
      | none => exact sameRun_bind hRead fun _ _ found => h.notCallable hv name position found
  | _ => exact hMissing

/-- The accessor that a step gets, with what is known about it. -/
theorem allowed (h : Indistinguishable a b rel) (hv : rel v w) (name : String)
    (position : Position) :
    SameRun
      (fun x y => SameAccessor rel x y ∧ a.accessor? v.typeName name = some x)
      (allowed a name position v) (GatedQuery.allowed b name position w) := by
  have hAccessors := h.accessors v.typeName name
  unfold GatedQuery.allowed
  rw [← h.typeName_eq hv]
  revert hAccessors
  generalize a.accessor? v.typeName name = x
  generalize b.accessor? v.typeName name = y
  intro hAccessors
  cases hAccessors with
  | none => exact sameRun_fail _
  | some same => exact sameRun_pure ⟨same, rfl⟩

/-- A step runs alike on related values: the allow-list is asked about one and the same type, and a
filter gets related receivers. -/
theorem takeStep (h : Indistinguishable a b rel) (hv : rel v w) (s : Step) :
    SameRun rel (takeStep a s v) (GatedQuery.takeStep b s w) := by
  cases s with
  | member name position =>
      apply sameRun_bind (h.allowed hv name position)
      intro x y hxy
      obtain ⟨hSame, hAllowed⟩ := hxy
      cases hSame with
      | native => exact h.readMember hv hAllowed position
      | filter answers => exact sameOutcome_called (answers v w hv []) name position
  | call name args position =>
      apply sameRun_bind (h.allowed hv name position)
      intro x y hxy
      obtain ⟨hSame, hAllowed⟩ := hxy
      cases hSame with
      | native => exact h.callMember hv hAllowed args position
      | filter answers => exact sameOutcome_called (answers v w hv args) name position
  | index i position => exact h.item hv i position
  | slice start stop step position => exact h.slice hv start stop (step.getD 1) position

/-- A chain runs alike on related values. The induction is on the steps. -/
theorem follow (h : Indistinguishable a b rel) (chain : List Step) (hv : rel v w) :
    SameRun rel (follow a chain v) (GatedQuery.follow b chain w) := by
  induction chain generalizing v w with
  | nil => exact sameRun_pure hv
  | cons s chain ih =>
      unfold GatedQuery.follow
      rw [← h.isNull_eq hv]
      cases hNull : v.isNull with
      | true => exact sameRun_pure (h.null_of_isNull hv hNull)
      | false => exact sameRun_bind (h.takeStep hv s) fun _ _ hNext => ih hNext

/-- Related values list related items, or both list none. -/
theorem iterate (h : Indistinguishable a b rel) (position : Position) (hv : rel v w) :
    SameRun (List.Forall₂ rel) (iterate position v) (GatedQuery.iterate position w) := by
  have hElements := h.elements hv
  unfold GatedQuery.iterate
  rw [h.typeName_eq hv]
  revert hElements
  generalize v.elements = x
  generalize w.elements = y
  intro hElements
  cases hElements with
  | none => exact sameRun_fail _
  | some items => exact sameRun_pure items

mutual

/-- A resource gives the same data or the same failure for related values. The induction is on the
tree. -/
theorem resolve (h : Indistinguishable a b rel) :
    ∀ (r : Resource) (v : Value O) (w : Value P), rel v w →
      SameRun SameData (resolve a r v) (GatedQuery.resolve b r w)
  | .field head, _, _, hv => by
      apply sameRun_bind (h.follow head.chain hv)
      intro x y hxy
      exact sameRun_pure (h.plain x y hxy)
  | .list head body, _, _, hv => by
      apply sameRun_bind (h.follow head.chain hv)
      intro x y hxy
      apply sameRun_bind (h.iterate head.position hxy)
      intro _ _ hItems
      have hEach := sameRun_each hItems fun x y hItem => resolveBody h body x y hItem
      exact sameRun_bind hEach fun _ _ hResults => sameRun_pure (sameData_list hResults)
  | .object head children, _, _, hv => by
      apply sameRun_bind (h.follow head.chain hv)
      intro x y hxy
      apply sameRun_bind (resolveChildren h children x y hxy)
      intro _ _ hEntries
      exact sameRun_pure (sameData_map hEntries)

theorem resolveBody (h : Indistinguishable a b rel) :
    ∀ (body : List Resource) (v : Value O) (w : Value P), rel v w →
      SameRun SameData (resolveBody a body v) (GatedQuery.resolveBody b body w)
  | [], _, _, _ => sameRun_pure (sameData_list .nil)
  | [r], v, w, hv => resolve h r v w hv
  | r :: s :: rs, v, w, hv => by
      apply sameRun_bind (resolve h r v w hv)
      intro _ _ hFirst
      apply sameRun_bind (resolveAll h (s :: rs) v w hv)
      intro _ _ hRest
      exact sameRun_pure (sameData_list (.cons hFirst hRest))

theorem resolveAll (h : Indistinguishable a b rel) :
    ∀ (rs : List Resource) (v : Value O) (w : Value P), rel v w →
      SameRun (List.Forall₂ SameData) (resolveAll a rs v) (GatedQuery.resolveAll b rs w)
  | [], _, _, _ => sameRun_pure .nil
  | r :: rs, v, w, hv => by
      apply sameRun_bind (resolve h r v w hv)
      intro _ _ hFirst
      apply sameRun_bind (resolveAll h rs v w hv)
      intro _ _ hRest
      exact sameRun_pure (.cons hFirst hRest)

theorem resolveChildren (h : Indistinguishable a b rel) :
    ∀ (rs : List Resource) (v : Value O) (w : Value P), rel v w →
      SameRun (List.Forall₂ (SameEntry SameData)) (resolveChildren a rs v)
        (GatedQuery.resolveChildren b rs w)
  | [], _, _, _ => sameRun_pure .nil
  | r :: rs, v, w, hv => by
      apply sameRun_bind (resolve h r v w hv)
      intro _ _ hFirst
      apply sameRun_bind (resolveChildren h rs v w hv)
      intro _ _ hRest
      exact sameRun_pure (.cons ⟨rfl, hFirst⟩ hRest)

end

theorem enter (h : Indistinguishable a b rel) (q : Query) (position : Position) :
    SameRun rel (enter a q position) (GatedQuery.enter b q position) := by
  have hEntry := h.entries q.entryPoint
  unfold GatedQuery.enter
  revert hEntry
  generalize a.entryPoint? q.entryPoint = x
  generalize b.entryPoint? q.entryPoint = y
  intro hEntry
  cases hEntry with
  | none => exact sameRun_fail _
  | some answers => exact sameOutcome_called (answers q.entryArguments) q.entryPoint position

/-- A query has the same answer in both worlds. -/
theorem solve (h : Indistinguishable a b rel) (q : Query) :
    SameRun SameData (solve a q) (GatedQuery.solve b q) := by
  have hChildren (v : Value O) (w : Value P) (hv : rel v w) :
      SameRun SameData
        (GatedQuery.resolveChildren a q.children v >>= fun entries => pure (.map entries))
        (GatedQuery.resolveChildren b q.children w >>= fun entries => pure (.map entries)) :=
    sameRun_bind (h.resolveChildren q.children v w hv) fun _ _ hEntries =>
      sameRun_pure (sameData_map hEntries)
  unfold GatedQuery.solve
  cases q.head.chain with
  | nil =>
      change SameRun SameData
        (GatedQuery.resolveChildren a q.children .null >>= fun entries => pure (.map entries))
        (GatedQuery.resolveChildren b q.children .null >>= fun entries => pure (.map entries))
      rw [resolveChildren_null a fun r _ => resolve_null a r,
        resolveChildren_null b fun r _ => resolve_null b r]
      exact sameRun_pure (sameData_map (sameData_nullForms q.children))
  | cons first chain =>
      apply sameRun_bind (h.enter q first.position)
      intro _ _ hRoot
      exact sameRun_bind (h.follow chain hRoot) hChildren

end Indistinguishable

/-- What an object holds under a member that the allow-list does not leave to its type changes
neither an answer nor a failure. The two answers are the same plain data. -/
theorem solve_ignores_denied_members [Backend O] [Backend P] {a : AllowList O} {b : AllowList P}
    {rel : Value O → Value P → Prop} (h : Indistinguishable a b rel) (q : Query) :
    ∃ answer : Except ResolutionError PlainValue,
      (solve a q).outcome = answer.map .ofPlain ∧ (solve b q).outcome = answer.map .ofPlain :=
  exists_plain_of_sameOutcome (h.solve q)

theorem sameAccessor_refl (x : Accessor O) : SameAccessor Eq x x := by
  cases x with
  | native => exact .native
  | filter f => exact .filter fun v w hv args => hv ▸ sameOutcome_refl _ fun _ => rfl

/-- Equal values have one shape with equal parts, and the other way round. -/
theorem eq_iff_sameShape (v w : Value O) : v = w ↔ SameShape Eq v w := by
  constructor
  · rintro rfl
    cases v with
    | null => exact .null
    | boolean x => exact .boolean x
    | integer n => exact .integer n
    | float x => exact .float x
    | string s => exact .string s
    | list items => exact .list (List.forall₂_refl items)
    | map entries => exact .map (List.forall₂_same.mpr fun _ _ => ⟨rfl, rfl⟩)
    | object o => exact .object rfl
  · intro h
    cases h with
    | list items =>
        rw [List.forall₂_eq_eq_eq] at items
        rw [items]
    | map entries =>
        have hEntries := entries.imp fun _ _ hEntry => Prod.ext hEntry.1 hEntry.2
        rw [List.forall₂_eq_eq_eq] at hEntries
        rw [hEntries]
    | object related => exact related
    | _ => rfl

/-- Backends for the same objects look alike when they agree on what an allow-list leaves to the
objects. -/
theorem indistinguishable_of_sameView (left right : Backend O) (a : AllowList O)
    (h : ∀ o, @SameView O O left right a Eq o o) :
    @Indistinguishable O O left right a a Eq := by
  refine @Indistinguishable.of_iff O O Eq left right a a eq_iff_sameShape ?_ ?_ ?_
  · intro o p hObject
    cases hObject
    exact h o
  · exact fun name => optionRel_refl (fun _ _ => sameOutcome_refl _ fun _ => rfl) _
  · exact fun type name => optionRel_refl sameAccessor_refl _

/-- Solving asks an allow-list for entry points and for members of types, and for nothing else. -/
theorem solve_congr [Backend O] {a b : AllowList O}
    (entries : ∀ name, a.entryPoint? name = b.entryPoint? name)
    (accessors : ∀ type name, a.accessor? type name = b.accessor? type name) (q : Query) :
    (solve a q).outcome = (solve b q).outcome := by
  have hAlike : Indistinguishable a b Eq := by
    refine .of_iff eq_iff_sameShape ?_ (fun name => ?_) (fun type name => ?_)
    · rintro o _ ⟨⟩
      refine ⟨rfl, rfl, optionRel_refl List.forall₂_refl _, fun name _ => ?_, fun name _ args => ?_⟩
      · exact optionRel_refl (fun _ => rfl) _
      · exact optionRel_refl (fun answer => sameOutcome_refl answer fun _ => rfl) _
    · rw [entries name]
      exact optionRel_refl (fun _ _ => sameOutcome_refl _ fun _ => rfl) _
    · rw [accessors type name]
      exact optionRel_refl sameAccessor_refl _
  obtain ⟨answer, hFirst, hSecond⟩ := exists_plain_of_sameOutcome (hAlike.solve q)
  exact hFirst.trans hSecond.symm

/-- A backend of a single account that tells its owner and its pin. -/
abbrev account (pin : String) : Backend Unit where
  typeName _ := "Account"
  read _ name :=
    if name = "owner" then some (.string "Ada")
    else if name = "pin" then some (.string pin)
    else none

/-- An allow-list that lets queries see the owner and not the pin. -/
def ownerOnly : AllowList Unit :=
  ⟨[⟨"Me", fun _ => .ok (.object ())⟩], [("Account", [("owner", .native)])]⟩

/-- Accounts that differ in their pin look the same to a query, which may not ask for it. -/
theorem account_sameView (first second : String) :
    @SameView Unit Unit (account first) (account second) ownerOnly Eq () () := by
  refine @SameView.mk Unit Unit (account first) (account second) ownerOnly Eq () () rfl rfl .none ?_ ?_
  · intro name hName
    by_cases hOwner : name = "owner"
    · subst hOwner
      exact .some rfl
    · have hDenied : ownerOnly.accessor? "Account" name = none := by
        simp [AllowList.accessor?, ownerOnly, List.lookup_cons, List.lookup_nil,
          beq_eq_false_iff_ne.mpr hOwner]
      exact absurd (hDenied.symm.trans hName) (by simp)
  · intro name _ args
    exact .none

def askForPin : Query :=
  ⟨⟨none, [.member "Me" .start], .start⟩,
    [.field ⟨none, [.member "owner" .start], .start⟩, .field ⟨none, [.member "pin" .start], .start⟩]⟩

theorem solve_ignores_pin :
    @Indistinguishable Unit Unit (account "1234") (account "9876") ownerOnly ownerOnly Eq ∧
    ∃ answer : Except ResolutionError PlainValue,
      (@solve Unit (account "1234") ownerOnly askForPin).outcome = answer.map .ofPlain ∧
      (@solve Unit (account "9876") ownerOnly askForPin).outcome = answer.map .ofPlain := by
  have h := @indistinguishable_of_sameView Unit (account "1234") (account "9876") ownerOnly
    fun _ => account_sameView "1234" "9876"
  exact ⟨h, @solve_ignores_denied_members Unit Unit (account "1234") (account "9876") _ _ _ h _⟩

/-- The host of a party and a guest, who may wear a mask. -/
inductive Person where
  | host
  | guest (masked : Bool)

/-- A party of two guests, both with a mask or both without one. -/
abbrev party (masked : Bool) : Backend Person where
  typeName
    | .host => "Host"
    | .guest _ => "Guest"
  read
    | .host, name =>
      if name = "guests" then some (.list [.object (.guest masked), .object (.guest masked)])
      else none
    | .guest _, _ => none

/-- Count guests. Somebody with a mask who is alone counts as two. -/
def headCount : Filter Person :=
  ⟨"list.size", fun v _ => match v with
    | .list [.object (.guest true)] => .ok (.integer 2)
    | .list guests => .ok (.integer (Int64.ofNat guests.length))
    | _ => .error (.failed "only guests are counted")⟩

/-- An allow-list that lets queries see the guests of a host and count them. -/
def countOnly : AllowList Person :=
  ⟨[⟨"Me", fun _ => .ok (.object .host)⟩],
    [("Host", [("guests", .native)]), ("list", [("size", .filter headCount)])]⟩

/-- What stands for each other at the two parties. A single guest in a list stands for nobody. -/
inductive SameParty : Value Person → Value Person → Prop where
  | host : SameParty (.object .host) (.object .host)
  | guest : SameParty (.object (.guest false)) (.object (.guest true))
  | guests : SameParty (.list [.object (.guest false), .object (.guest false)])
      (.list [.object (.guest true), .object (.guest true)])
  | size : SameParty (.integer 2) (.integer 2)

/-- Both parties answer alike for whatever the relation holds of. -/
theorem corresponds_sameParty :
    @Corresponds Person Person (party false) (party true) countOnly countOnly SameParty := by
  refine @Corresponds.mk Person Person (party false) (party true) countOnly countOnly SameParty
    ?_ ?_ ?_ ?_
  · rintro _ _ (_ | _ | _ | _)
    · exact .object .host
    · exact .object .guest
    · exact .list (.cons .guest (.cons .guest .nil))
    · exact .integer 2
  · rintro _ _ (_ | _)
    · refine @SameView.mk Person Person (party false) (party true) _ _ _ _ rfl rfl .none
        (fun name _ => ?_) fun _ _ _ => .none
      change Option.Rel SameParty (if name = "guests" then _ else none)
        (if name = "guests" then _ else none)
      split
      · exact .some .guests
      · exact .none
    · exact @SameView.mk Person Person (party false) (party true) _ _ _ _ rfl rfl .none
        (fun _ _ => .none) fun _ _ _ => .none
  · intro name
    cases hEntry : countOnly.entryPoint? name with
    | none => exact .none
    | some e =>
        obtain rfl := List.mem_singleton.mp (List.mem_of_find?_eq_some hEntry)
        exact .some fun _ => .ok .host
  · intro type name
    cases hAccessor : countOnly.accessor? type name with
    | none => exact .none
    | some x =>
        obtain ⟨table, hTable, hMember⟩ := Option.bind_eq_some_iff.mp hAccessor
        have hTables := mem_of_lookup hTable
        have hMembers := mem_of_lookup hMember
        rcases List.mem_cons.mp hTables with hHost | hList
        · cases hHost
          cases List.mem_singleton.mp hMembers
          exact .some .native
        · cases List.mem_singleton.mp hList
          cases List.mem_singleton.mp hMembers
          refine .some (.filter fun v w hv args => ?_)
          cases hv with
          | guests => exact .ok .size
          | _ => exact .error _

def askForSize : Query :=
  ⟨⟨none, [.member "Me" .start, .member "guests" .start, .slice (some 0) (some 1) none .start],
    .start⟩, [.field ⟨none, [.member "size" .start], .start⟩]⟩

/-- Worlds that correspond may be told apart by a filter of a slice, where the relation does not hold
of slices. -/
theorem solve_tells_slices_apart :
    @Corresponds Person Person (party false) (party true) countOnly countOnly SameParty ∧
    (@solve Person (party false) countOnly askForSize).outcome = .ok (.map [("size", .integer 1)]) ∧
    (@solve Person (party true) countOnly askForSize).outcome = .ok (.map [("size", .integer 2)]) :=
  ⟨corresponds_sameParty, rfl, rfl⟩

end Secrecy

end GatedQuery
