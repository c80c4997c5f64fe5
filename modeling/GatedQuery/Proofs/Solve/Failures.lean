import GatedQuery.Proofs.Solve.Accesses

/-! What a failure tells of the query. Every failure is that of a step, and tells its place and the name
or the index that is written there, or it is that of a list that has nothing to iterate. -/

namespace GatedQuery

open Run

/-- A failure to reach something by its name at a place. -/
inductive NamedFailure (n : String) (p : Position) : ResolutionError → Prop where
  | unknownEntryPoint : NamedFailure n p (.unknownEntryPoint n p)
  | notAllowed (type : String) : NamedFailure n p (.notAllowed n type p)
  | memberNotFound (type : String) : NamedFailure n p (.memberNotFound n type p)
  | callFailed (cause : CallFailure) : NamedFailure n p (.callFailed n p cause)

inductive Step.Failure (s : Step) : ResolutionError → Prop where
  | named {n : String} {e : ResolutionError} (name : s.name? = some n)
      (failure : NamedFailure n s.position e) : Failure s e
  | index {i : Int64} {p : Position} (type : String) (index : s = .index i p) :
      Failure s (.indexNotFound i type p)
  | subscript (type : String) : Failure s (.notSubscriptable type s.position)

/-- A failure to resolve a query: to enter it, to take one of its steps, or to iterate over what one
of its lists finds. -/
inductive Query.Failure (q : Query) : ResolutionError → Prop where
  | entry {first : Step} {chain : List Step} {e : ResolutionError}
      (start : q.head.chain = first :: chain)
      (failure : NamedFailure q.entryPoint first.position e) : Failure q e
  | step {s : Step} {e : ResolutionError} (mem : s ∈ q.steps) (failure : s.Failure e) : Failure q e
  | list {h : Head} {body : List Resource} (mem : .list h body ∈ q.nodes) (type : String) :
      Failure q (.notIterable type h.position)

variable {O : Type} {a : AllowList O}

/-- A callable that fails is reported under the name and the place of its step. -/
theorem called_error {α : Type} {name : String} {position : Position}
    {answer : Except CallFailure α} {e : ResolutionError}
    (h : called name position answer = .error e) : NamedFailure name position e := by
  cases answer with
  | ok x => cases h
  | error cause =>
      cases h
      exact .callFailed cause

variable [Backend O] {v : Value O} {name : String} {position : Position} {e : ResolutionError}

/-- Reading a member fails under the name and the place of its step. -/
theorem readMember_error (h : (readMember name position v).outcome = .error e) :
    NamedFailure name position e := by
  unfold readMember at h
  split at h
  next =>
    split at h
    next => cases h
    next =>
      cases h
      exact .memberNotFound _
  next o =>
    rw [bind_of_ok (r := readAttribute o name) rfl] at h
    dsimp only at h
    split at h
    next => cases h
    next =>
      rw [bind_of_ok (r := callMethod o name .none) rfl] at h
      dsimp only at h
      split at h
      next => exact called_error h
      next =>
        cases h
        exact .memberNotFound _
  next =>
    cases h
    exact .memberNotFound _

theorem notCallable_error {isAttribute : Bool}
    (h : (notCallable name v position isAttribute).outcome = .error e) :
    NamedFailure name position e := by
  cases isAttribute <;> cases h
  · exact .memberNotFound _
  · exact .callFailed _

/-- Calling a member fails under the name and the place of its step. -/
theorem callMember_error {args : Arguments O}
    (h : (callMember name args position v).outcome = .error e) :
    NamedFailure name position e := by
  unfold callMember at h
  split at h
  next => exact notCallable_error h
  next o =>
    rw [bind_of_ok (r := callMethod o name args) rfl] at h
    dsimp only at h
    split at h
    next => exact called_error h
    next =>
      rw [bind_of_ok (r := readAttribute o name) rfl] at h
      exact notCallable_error h
  next => exact notCallable_error h

/-- A step with a name fails by that name, whether it is denied or not there. -/
theorem named_of_allowed {args : Arguments O} {native : Run O (Value O)}
    (hNative : native.outcome = .error e → NamedFailure name position e)
    (h : (allowed a name position v >>= fun accessor =>
      match accessor with
      | .native => native
      | .filter f => runFilter f name args position v).outcome = .error e) :
    NamedFailure name position e := by
  cases hAccessor : a.accessor? v.typeName name with
  | none =>
      rw [allowed_of_none hAccessor] at h
      cases h
      exact .notAllowed _
  | some accessor =>
      rw [allowed_of_some hAccessor] at h
      cases accessor with
      | native => exact hNative h
      | filter f => exact called_error h

/-- A visit fails as its step can fail. -/
theorem Visit.failure {x : Visit O} (h : (x.run a).outcome = .error e) : x.step.Failure e := by
  obtain ⟨s, v⟩ := x
  rw [run, takeStep.eq_def] at h
  cases s with
  | member n position => exact .named rfl (named_of_allowed readMember_error h)
  | call n args position => exact .named rfl (named_of_allowed callMember_error h)
  | index i position =>
      have hItem : v.item i position = .error e := h
      unfold Value.item at hItem
      dsimp only at hItem
      split at hItem <;> cases hItem
      · exact .subscript _
      · exact .index _ rfl
  | slice start stop step position =>
      have hSlice : v.slice start stop (step.getD 1) position = .error e := h
      unfold Value.slice at hSlice
      split at hSlice
      next => cases hSlice
      next =>
        split at hSlice <;> cases hSlice
        exact .subscript _

/-- A query fails in one of its steps, at a list that cannot be iterated, or at its entry point. -/
theorem solve_failure {q : Query} (h : (solve a q).outcome = .error e) : q.Failure e := by
  obtain ⟨entered, visits, hWalks, _⟩ := solve_walks (a := a) q
  rw [failure_of_error h] at hWalks
  rcases hWalks.orderly with hOrderly | ⟨_, e', he, hEntry⟩
  · rcases hOrderly.failed e rfl with ⟨x, hx, hFails⟩ | ⟨head, body, type, hList, rfl⟩
    · exact .step (hWalks.placed x hx).1 (Visit.failure hFails)
    · exact .list hList type
  · cases he
    cases hEntry with
    | unknown start => exact .entry start .unknownEntryPoint
    | failed start cause => exact .entry start (.callFailed cause)

theorem NamedFailure.position_eq {n : String} {p : Position} (h : NamedFailure n p e) :
    e.position = p := by
  cases h <;> rfl

/-- A failure to take a step is reported at the step. -/
theorem Step.Failure.position_eq {s : Step} (h : s.Failure e) : e.position = s.position := by
  cases h with
  | named name failure => exact failure.position_eq
  | index type index => rw [index]; rfl
  | subscript => rfl

theorem Query.mem_places_of_step {q : Query} {s : Step} (h : s ∈ q.steps) :
    s.position ∈ q.places := by
  obtain ⟨r, hr, hs⟩ := List.mem_flatMap.mp h
  exact List.mem_flatMap.mpr ⟨r, hr, List.mem_cons_of_mem _ (List.mem_map_of_mem hs)⟩

/-- The entry point is one of the steps of a query. -/
theorem Query.first_mem_steps {q : Query} {first : Step} {chain : List Step}
    (h : q.head.chain = first :: chain) : first ∈ q.steps := by
  refine List.mem_flatMap.mpr ⟨q.root, Resource.mem_nodes_self q.root, ?_⟩
  show first ∈ q.head.chain
  rw [h]
  exact List.mem_cons_self

/-- A failure is at the place of a step or of a list. -/
theorem Query.Failure.mem_places {q : Query} (h : q.Failure e) : e.position ∈ q.places := by
  cases h with
  | entry start failure =>
      rw [failure.position_eq]
      exact Query.mem_places_of_step (Query.first_mem_steps start)
  | step mem failure =>
      rw [failure.position_eq]
      exact Query.mem_places_of_step mem
  | list mem type => exact List.mem_flatMap.mpr ⟨_, mem, List.mem_cons_self⟩

end GatedQuery
