import GatedQuery.Proofs.Solve.Walks

/-! Every access is justified. A run enters at most one entry point, at first. After that it reaches out
only at a step with a name, on the value that the step is taken from, and only in the way in which
the allow-list resolves that name for the type of the value. After a failure it reaches out no more. -/

namespace GatedQuery

open Run

variable {O : Type} [Backend O] {a : AllowList O}

/-- The accesses that an allow-list permits to a visit. -/
inductive Justified (a : AllowList O) (x : Visit O) : Access O → Prop where
  | filter {n : String} {f : Filter O} (named : x.step.name? = some n)
      (allowed : a.accessor? x.value.typeName n = some (.filter f)) :
      Justified a x (.filter f x.value (.ofQuery x.step.arguments))
  | read {n : String} {o : O} (named : x.step.name? = some n) (object : x.value = .object o)
      (allowed : a.accessor? (Inspectable.typeName o) n = some .native) : Justified a x (.read o n)
  | call {n : String} {o : O} (named : x.step.name? = some n) (object : x.value = .object o)
      (allowed : a.accessor? (Inspectable.typeName o) n = some .native) :
      Justified a x (.call o n (.ofQuery x.step.arguments))

theorem allowed_of_some {name : String} {position : Position} {v : Value O} {x : Accessor O}
    (h : a.accessor? v.typeName name = some x) : allowed a name position v = pure x := by
  rw [allowed, h]

/-- A member that the allow-list does not know is refused before the value is asked. -/
theorem allowed_of_none {name : String} {position : Position} {v : Value O}
    (h : a.accessor? v.typeName name = none) :
    allowed a name position v = .fail (.notAllowed name v.typeName position) := by
  rw [allowed, h]

/-- A member is read by reading an attribute of an object, and perhaps by calling it. -/
theorem readMember_accesses {name : String} {position : Position} {v : Value O} {x : Access O}
    (h : x ∈ (readMember name position v).accesses) :
    ∃ o, v = .object o ∧ (x = .read o name ∨ x = .call o name .none) := by
  cases v with
  | object o =>
      refine ⟨o, rfl, ?_⟩
      rw [readMember, bind_of_ok (r := readAttribute o name) rfl] at h
      rcases List.mem_append.mp h with hRead | hMore
      · exact .inl (List.mem_singleton.mp hRead)
      · cases hFound : Inspectable.read o name with
        | some y => simp [hFound, pure, done] at hMore
        | none =>
            rw [hFound] at hMore
            rw [bind_of_ok (r := callMethod o name .none) rfl] at hMore
            refine .inr ?_
            cases hCalled : Backend.call o name .none <;>
              simpa [hCalled, callMethod, access, ofOutcome, fail] using hMore
  | map entries =>
      rw [readMember] at h
      cases hFound : entries.lookup name <;> simp [hFound, fail, pure, done] at h
  | _ => cases h

/-- A member is called by calling a method of an object, and perhaps by reading the attribute. -/
theorem callMember_accesses {name : String} {args : Arguments O} {position : Position} {v : Value O}
    {x : Access O} (h : x ∈ (callMember name args position v).accesses) :
    ∃ o, v = .object o ∧ (x = .read o name ∨ x = .call o name args) := by
  have hNone (w : Value O) (isAttribute : Bool) :
      (notCallable name w position isAttribute).accesses = [] := by
    cases isAttribute <;> rfl
  cases v with
  | object o =>
      refine ⟨o, rfl, ?_⟩
      rw [callMember, bind_of_ok (r := callMethod o name args) rfl] at h
      rcases List.mem_append.mp h with hCall | hMore
      · exact .inr (List.mem_singleton.mp hCall)
      · cases hCalled : Backend.call o name args with
        | some answer => simp [hCalled, ofOutcome] at hMore
        | none =>
            rw [hCalled] at hMore
            rw [bind_of_ok (r := readAttribute o name) rfl, hNone] at hMore
            exact .inl (by simpa [readAttribute, access] using hMore)
  | map entries => simp [callMember, hNone] at h
  | _ => simp [callMember, hNone] at h

/-- A step with a name asks the allow-list first, and then reaches out as it is told. -/
theorem justified_of_allowed {x : Visit O} {n : String} {position : Position}
    (named : x.step.name? = some n) {native : Run O (Value O)} {y : Access O}
    (hNative : y ∈ native.accesses → ∃ o, x.value = .object o ∧
      (y = .read o n ∨ y = .call o n (.ofQuery x.step.arguments)))
    (h : y ∈ (allowed a n position x.value >>= fun accessor =>
      match accessor with
      | .native => native
      | .filter f => runFilter f n (.ofQuery x.step.arguments) position x.value).accesses) :
    Justified a x y := by
  cases hAccessor : a.accessor? x.value.typeName n with
  | none =>
      rw [allowed_of_none hAccessor] at h
      cases h
  | some accessor =>
      rw [allowed_of_some hAccessor] at h
      cases accessor with
      | filter f =>
          obtain rfl := List.mem_singleton.mp h
          exact .filter named hAccessor
      | native =>
          obtain ⟨o, hObject, hAccess⟩ := hNative h
          rw [hObject] at hAccessor
          rcases hAccess with rfl | rfl
          · exact .read named hObject hAccessor
          · exact .call named hObject hAccessor

/-- A step reaches out only as the allow-list permits it. -/
theorem Visit.justified (x : Visit O) : ∀ y ∈ (x.run a).accesses, Justified a x y := by
  obtain ⟨s, v⟩ := x
  intro y hy
  rw [run, takeStep.eq_def] at hy
  cases s with
  | member n position => exact justified_of_allowed rfl readMember_accesses hy
  | call n args position => exact justified_of_allowed rfl callMember_accesses hy
  | index i position => cases hy
  | slice start stop step position => cases hy

/-- Visits of some nodes, in good order. They are steps of these nodes, taken from something; the
first one that fails is the last one; and if they end with a failure, then a visit or a list failed. -/
structure Orderly (a : AllowList O) (nodes : List Resource) (visits : List (Visit O))
    (failure : Option ResolutionError) : Prop where
  placed : ∀ x ∈ visits, x.value.isNull = false ∧ ∃ r ∈ nodes, x.step ∈ r.head.chain
  stops : ∀ front x back e, visits = front ++ x :: back → (x.run a).outcome = .error e →
    back = [] ∧ failure = some e
  failed : ∀ e, failure = some e → (∃ x ∈ visits, (x.run a).outcome = .error e) ∨
    ∃ h body type, .list h body ∈ nodes ∧ e = .notIterable type h.position

namespace Orderly

variable {nodes : List Resource} {first visits : List (Visit O)} {failure : Option ResolutionError}

theorem nil : Orderly a nodes [] none :=
  ⟨nofun, fun front x back e h => by simp at h, nofun⟩

/-- Visits stay in order if the nodes have more steps and lists to offer. -/
theorem mono {more : List Resource} (h : Orderly a nodes visits failure)
    (steps : ∀ r ∈ nodes, ∀ s ∈ r.head.chain, ∃ n ∈ more, s ∈ n.head.chain)
    (lists : ∀ h body, .list h body ∈ nodes → .list h body ∈ more) :
    Orderly a more visits failure := by
  refine ⟨fun x hx => ?_, h.stops, fun e he => ?_⟩
  · obtain ⟨hSome, r, hr, hStep⟩ := h.placed x hx
    exact ⟨hSome, steps r hr x.step hStep⟩
  · refine (h.failed e he).imp_right ?_
    rintro ⟨head, body, type, hList, hError⟩
    exact ⟨head, body, type, lists head body hList, hError⟩

theorem of_subset {more : List Resource} (h : Orderly a nodes visits failure)
    (sub : ∀ r ∈ nodes, r ∈ more) : Orderly a more visits failure :=
  h.mono (fun r hr _ hs => ⟨r, sub r hr, hs⟩) fun _ _ hList => sub _ hList

/-- Visits that ended without failure can be followed by others. -/
theorem append (hFirst : Orderly a nodes first none) (h : Orderly a nodes visits failure) :
    Orderly a nodes (first ++ visits) failure := by
  refine ⟨List.forall_mem_append.mpr ⟨hFirst.placed, h.placed⟩, ?_, ?_⟩
  · intro front x back e hVisits hFails
    rcases List.append_eq_append_iff.mp hVisits with ⟨middle, _, hMore⟩ | ⟨middle, hBefore, hMore⟩
    · exact h.stops middle x back e hMore hFails
    · cases middle with
      | nil => exact h.stops [] x back e hMore.symm hFails
      | cons y middle =>
          obtain ⟨rfl, _⟩ := List.cons.inj hMore
          exact absurd (hFirst.stops front x middle e hBefore hFails).2 nofun
  · intro e he
    refine (h.failed e he).imp_left ?_
    rintro ⟨x, hx, hFails⟩
    exact ⟨x, List.mem_append_right first hx, hFails⟩

/-- Visits after which a list cannot be iterated. -/
theorem notIterable {h : Head} {body : List Resource} {type : String}
    (hVisits : Orderly a nodes visits none) (hList : .list h body ∈ nodes) :
    Orderly a nodes visits (some (.notIterable type h.position)) := by
  refine ⟨hVisits.placed, fun front x back e hx hFails => ?_, fun e he => .inr ?_⟩
  · exact absurd (hVisits.stops front x back e hx hFails).2 nofun
  · cases he
    exact ⟨h, body, type, hList, rfl⟩

/-- A visit of a step of some node, which fails if the walk fails. -/
theorem single {x : Visit O} (some : x.value.isNull = false) {r : Resource} (hr : r ∈ nodes)
    (hStep : x.step ∈ r.head.chain) (hFailure : (x.run a).failure = failure) :
    Orderly a nodes [x] failure := by
  subst hFailure
  refine ⟨List.forall_mem_singleton.mpr ⟨some, r, hr, hStep⟩, ?_, fun e he => .inl ?_⟩
  · intro front y back e hVisits hFails
    obtain ⟨rfl, hMore⟩ | ⟨_, rfl, hMore⟩ := List.cons_eq_append_iff.mp hVisits
    · cases hMore
      exact ⟨rfl, failure_of_error hFails⟩
    · simp at hMore
  · exact ⟨x, List.mem_cons_self, failure_eq_some_iff.mp he⟩

end Orderly

/-- The visits of a chain are visits of its steps, up to the one that fails. -/
theorem Follows.orderly_of_subset {chain : List Step} {v : Value O} {visits : List (Visit O)}
    {outcome : Except ResolutionError (Value O)} (h : Follows a chain v visits outcome)
    {nodes : List Resource} {r : Resource} (hr : r ∈ nodes) (sub : ∀ s ∈ chain, s ∈ r.head.chain) :
    Orderly a nodes visits (Outcome.failure? outcome) := by
  induction h with
  | nil => exact .nil
  | null => exact .nil
  | fails some failure =>
      exact .single some hr (sub _ List.mem_cons_self) (failure_of_error failure)
  | @cons s chain v w _ _ some step _ ih =>
      have hFirst : Orderly a nodes [⟨s, v⟩] none :=
        .single some hr (sub s List.mem_cons_self) (failure_of_ok step)
      exact hFirst.append (ih fun t ht => sub t (List.mem_cons_of_mem s ht))

/-- The visits along the chain of a resource. -/
theorem Follows.orderly (r : Resource) {v : Value O} {visits : List (Visit O)}
    {outcome : Except ResolutionError (Value O)} (h : Follows a r.head.chain v visits outcome) :
    Orderly a r.nodes visits (Outcome.failure? outcome) :=
  h.orderly_of_subset (Resource.mem_nodes_self r) fun _ hs => hs

/-- Parts that are walked one after another visit steps in their order. -/
theorem InTurn.orderly {part : Resource → Value O → List (Visit O) → Option ResolutionError → Prop}
    {parts : List (Resource × Value O)} {visits : List (Visit O)}
    {failure : Option ResolutionError} {nodes : List Resource}
    (h : InTurn part parts visits failure)
    (each : ∀ p ∈ parts, ∀ visits failure, part p.1 p.2 visits failure →
      Orderly a nodes visits failure) : Orderly a nodes visits failure := by
  induction h with
  | nil => exact .nil
  | fails head => exact each _ List.mem_cons_self _ _ head
  | cons head _ ih =>
      exact (each _ List.mem_cons_self _ _ head).append
        (ih fun p hp => each p (List.mem_cons_of_mem _ hp))

/-- All visits of a resource are visits of steps of its nodes. The induction is on the walk. -/
theorem Walks.orderly {r : Resource} {v : Value O} {visits : List (Visit O)}
    {failure : Option ResolutionError} (h : Walks a r v visits failure) :
    Orderly a r.nodes visits failure := by
  induction r using Resource.induct generalizing v visits failure with
  | field head =>
      cases h with
      | fails chain => exact Follows.orderly (.field head) chain
      | field chain => exact Follows.orderly (.field head) chain
  | object head children ih =>
      cases h with
      | fails chain => exact Follows.orderly (.object head children) chain
      | object chain parts =>
          refine (Follows.orderly (.object head children) chain).append ?_
          refine parts.orderly fun p hp visits failure hWalks => ?_
          obtain ⟨r, hr, rfl⟩ := List.mem_map.mp hp
          exact (ih r hr hWalks).of_subset fun n hn => Resource.mem_nodes_object hr hn
  | list head body ih =>
      cases h with
      | fails chain => exact Follows.orderly (.list head body) chain
      | notIterable chain =>
          exact (Follows.orderly (.list head body) chain).notIterable (Resource.mem_nodes_self _)
      | list chain iterates parts =>
          refine (Follows.orderly (.list head body) chain).append ?_
          refine parts.orderly fun p hp visits failure hWalks => ?_
          obtain ⟨item, _, hp⟩ := List.mem_flatMap.mp hp
          obtain ⟨r, hr, rfl⟩ := List.mem_map.mp hp
          exact (ih r hr hWalks).of_subset fun n hn => Resource.mem_nodes_list hr hn

inductive EntryFailure (q : Query) : ResolutionError → Prop where
  | unknown {first : Step} {chain : List Step} (start : q.head.chain = first :: chain) :
      EntryFailure q (.unknownEntryPoint q.entryPoint first.position)
  | failed {first : Step} {chain : List Step} (start : q.head.chain = first :: chain)
      (cause : CallFailure) : EntryFailure q (.callFailed q.entryPoint first.position cause)

/-- All visits of a query are visits of its steps, unless its entry point fails before any. -/
theorem Query.Walks.orderly {q : Query} {entered : List (Access O)} {visits : List (Visit O)}
    {failure : Option ResolutionError} (h : q.Walks a entered visits failure) :
    Orderly a q.nodes visits failure ∨ visits = [] ∧ ∃ e, failure = some e ∧ EntryFailure q e := by
  cases h with
  | none start root => exact .inl root.orderly
  | unknown start => exact .inr ⟨rfl, _, rfl, .unknown start⟩
  | fails start => exact .inr ⟨rfl, _, rfl, .failed start _⟩
  | @entered first chain e v visits failure start found enters root =>
      have hBelow {n : Resource} (hn : n ∈ Resource.nodesAll q.children) : n ∈ q.nodes :=
        List.mem_cons_of_mem q.root hn
      refine .inl (root.orderly.mono ?_ ?_)
      · intro r hr s hs
        rcases List.mem_cons.mp hr with rfl | hMore
        · refine ⟨q.root, Resource.mem_nodes_self q.root, ?_⟩
          show s ∈ q.head.chain
          rw [start]
          exact List.mem_cons_of_mem first hs
        · exact ⟨r, hBelow hMore, hs⟩
      · intro h body hList
        rcases List.mem_cons.mp hList with hRoot | hMore
        · cases hRoot
        · exact hBelow hMore

/-- The value on which an access is made. An entry point is entered from nowhere. -/
def Access.receiver? : Access O → Option (Value O)
  | .enter .. => none
  | .filter _ v _ => some v
  | .read o _ => some (.object o)
  | .call o _ _ => some (.object o)

/-- No access is made on null. -/
theorem Justified.receiver_isNull {x : Visit O} {y : Access O} (h : Justified a x y)
    (some : x.value.isNull = false) {v : Value O} (hv : y.receiver? = .some v) :
    v.isNull = false := by
  cases h <;> cases hv
  · exact some
  · rfl
  · rfl

/-- A query enters at most its own entry point. -/
theorem Query.Walks.entered_eq {q : Query} {entered : List (Access O)} {visits : List (Visit O)}
    {failure : Option ResolutionError} (h : q.Walks a entered visits failure) :
    entered = [] ∨ ∃ e first chain, q.head.chain = first :: chain ∧
      a.entryPoint? q.entryPoint = some e ∧
      entered = [.enter q.entryPoint (.ofQuery first.arguments)] := by
  cases h with
  | none => exact .inl rfl
  | unknown => exact .inl rfl
  | fails start found => exact .inr ⟨_, _, _, start, found, rfl⟩
  | entered start found => exact .inr ⟨_, _, _, start, found, rfl⟩

/-- After a visit that fails there are no others. -/
theorem Query.Walks.stops {q : Query} {entered : List (Access O)} {visits front back : List (Visit O)}
    {failure : Option ResolutionError} (h : q.Walks a entered visits failure) {x : Visit O}
    {e : ResolutionError} (hVisits : visits = front ++ x :: back)
    (hFails : (x.run a).outcome = .error e) : back = [] ∧ failure = some e := by
  rcases h.orderly with hOrderly | ⟨rfl, _⟩
  · exact hOrderly.stops front x back e hVisits hFails
  · simp at hVisits

/-- Only steps of the query are visited, and none of them on null. -/
theorem Query.Walks.placed {q : Query} {entered : List (Access O)} {visits : List (Visit O)}
    {failure : Option ResolutionError} (h : q.Walks a entered visits failure) :
    ∀ x ∈ visits, x.step ∈ q.steps ∧ x.value.isNull = false := by
  rcases h.orderly with hOrderly | ⟨rfl, _⟩
  · intro x hx
    obtain ⟨hSome, r, hr, hStep⟩ := hOrderly.placed x hx
    exact ⟨List.mem_flatMap.mpr ⟨r, hr, hStep⟩, hSome⟩
  · exact fun x hx => absurd hx List.not_mem_nil

/-- Every access of a run is justified by the allow-list. The accesses are those of the entry, if there
is one, and then those of the steps that are taken, one after the other in the order of the tree. The
entry point is the one that the allow-list holds for the name of the first step. Each step reaches out
only as the allow-list resolves its name for the type of the value that it is taken from, which is
never null, and after the first step that fails nothing is accessed. -/
theorem solve_accesses_justified (a : AllowList O) (q : Query) :
    ∃ entered visits, q.Walks a entered visits (solve a q).failure ∧
      (solve a q).accesses = entered ++ Visit.accesses a visits ∧
      (entered = [] ∨ ∃ e first chain, q.head.chain = first :: chain ∧
        a.entryPoint? q.entryPoint = some e ∧
        entered = [.enter q.entryPoint (.ofQuery first.arguments)]) ∧
      (∀ x ∈ visits, x.step ∈ q.steps ∧ x.value.isNull = false ∧
        ∀ y ∈ (x.run a).accesses, Justified a x y) ∧
      (∀ y ∈ (solve a q).accesses, ∀ v, y.receiver? = some v → v.isNull = false) ∧
      ∀ front x back e, visits = front ++ x :: back → (x.run a).outcome = .error e →
        back = [] ∧ (solve a q).outcome = .error e := by
  obtain ⟨entered, visits, hWalks, hAccesses⟩ := solve_walks (a := a) q
  have hEntered := hWalks.entered_eq
  refine ⟨entered, visits, hWalks, hAccesses, hEntered, ?_, ?_, ?_⟩
  · intro x hx
    obtain ⟨hStep, hSome⟩ := hWalks.placed x hx
    exact ⟨hStep, hSome, x.justified⟩
  · intro y hy v hv
    rw [hAccesses] at hy
    rcases List.mem_append.mp hy with hEntry | hVisit
    · rcases hEntered with rfl | ⟨e, first, chain, _, _, rfl⟩
      · cases hEntry
      · obtain rfl := List.mem_singleton.mp hEntry
        cases hv
    · obtain ⟨x, hx, hy⟩ := List.mem_flatMap.mp hVisit
      exact (x.justified y hy).receiver_isNull (hWalks.placed x hx).2 hv
  · intro front x back e hVisits hFails
    obtain ⟨hBack, hFailure⟩ := hWalks.stops hVisits hFails
    exact ⟨hBack, failure_eq_some_iff.mp hFailure⟩

end GatedQuery
