import GatedQuery.Proofs.Solve.Answers

/-! Walks. Resolving a query takes its steps one after the other, each from the value that the steps
before it lead to, and ends at the first failure. Null ends a chain. Which steps are taken, and in
which order, is told by the tree and the values alone; every access belongs to one of these steps. -/

namespace GatedQuery

open Run

variable {O α β γ : Type}

def Outcome.failure? {ε : Type} : Except ε α → Option ε
  | .ok _ => none
  | .error e => some e

def Run.failure (r : Run O α) : Option ResolutionError :=
  Outcome.failure? r.outcome

theorem Run.failure_of_ok {r : Run O α} {x : α} (h : r.outcome = .ok x) : r.failure = none := by
  rw [failure, h, Outcome.failure?]

theorem Run.failure_of_error {r : Run O α} {e : ResolutionError} (h : r.outcome = .error e) :
    r.failure = some e := by
  rw [failure, h, Outcome.failure?]

/-- How a run failed is its outcome, seen as a failure. -/
theorem Run.failure_eq_some_iff {r : Run O α} {e : ResolutionError} :
    r.failure = some e ↔ r.outcome = .error e := by
  cases h : r.outcome with
  | ok x => simp [failure, h, Outcome.failure?]
  | error e' => simp [failure, h, Outcome.failure?]

/-- A step that is taken, and the value from which it is taken. -/
structure Visit (O : Type) where
  step : Step
  value : Value O

/-- The visits of resources, each with its own value, one after the other up to the first failure. -/
inductive InTurn (part : Resource → Value O → List (Visit O) → Option ResolutionError → Prop) :
    List (Resource × Value O) → List (Visit O) → Option ResolutionError → Prop where
  | nil : InTurn part [] [] none
  | fails {r : Resource} {v : Value O} {parts : List (Resource × Value O)} {visits : List (Visit O)}
      {e : ResolutionError} (head : part r v visits (some e)) :
      InTurn part ((r, v) :: parts) visits (some e)
  | cons {r : Resource} {v : Value O} {parts : List (Resource × Value O)}
      {first visits : List (Visit O)} {failure : Option ResolutionError}
      (head : part r v first none) (tail : InTurn part parts visits failure) :
      InTurn part ((r, v) :: parts) (first ++ visits) failure

section InTurn

variable {part : Resource → Value O → List (Visit O) → Option ResolutionError → Prop}
  {first visits : List (Visit O)} {failure : Option ResolutionError}
  {parts more : List (Resource × Value O)}

theorem InTurn.single {r : Resource} {v : Value O} (h : part r v visits failure) :
    InTurn part [(r, v)] visits failure := by
  cases failure with
  | some e => exact .fails h
  | none => exact List.append_nil visits ▸ .cons h .nil

/-- Where a part fails, later parts are not begun. -/
theorem InTurn.append_of_fails {e : ResolutionError} (h : InTurn part parts visits (some e)) :
    InTurn part (parts ++ more) visits (some e) := by
  generalize hFailure : some e = failure at h
  induction h with
  | nil => cases hFailure
  | fails head => exact .fails head
  | cons head _ ih => exact .cons head (ih hFailure)

/-- Parts that ended without failure can be followed by others. -/
theorem InTurn.append (h : InTurn part parts first none) (rest : InTurn part more visits failure) :
    InTurn part (parts ++ more) (first ++ visits) failure := by
  generalize hFailure : none = ended at h
  induction h with
  | nil => exact rest
  | fails => cases hFailure
  | cons head _ ih =>
      rw [List.append_assoc]
      exact .cons head (ih hFailure)

end InTurn

variable [Backend O] (a : AllowList O)

def Visit.run (x : Visit O) : Run O (Value O) :=
  takeStep a x.step x.value

def Visit.accesses (visits : List (Visit O)) : List (Access O) :=
  visits.flatMap fun x => (x.run a).accesses

/-- The visits along a chain, and what the chain comes to. -/
inductive Follows : List Step → Value O → List (Visit O) → Except ResolutionError (Value O) →
    Prop where
  | nil (v : Value O) : Follows [] v [] (.ok v)
  | null (s : Step) (chain : List Step) : Follows (s :: chain) .null [] (.ok .null)
  | fails {s : Step} {chain : List Step} {v : Value O} {e : ResolutionError}
      (some : v.isNull = false) (failure : (takeStep a s v).outcome = .error e) :
      Follows (s :: chain) v [⟨s, v⟩] (.error e)
  | cons {s : Step} {chain : List Step} {v w : Value O} {visits : List (Visit O)}
      {outcome : Except ResolutionError (Value O)} (some : v.isNull = false)
      (step : (takeStep a s v).outcome = .ok w) (rest : Follows chain w visits outcome) :
      Follows (s :: chain) v (⟨s, v⟩ :: visits) outcome

/-- The visits of a resource at a value, and the failure that ends them, if there is one. -/
inductive Walks : Resource → Value O → List (Visit O) → Option ResolutionError → Prop where
  | fails {r : Resource} {v : Value O} {visits : List (Visit O)} {e : ResolutionError}
      (chain : Follows a r.head.chain v visits (.error e)) : Walks r v visits (some e)
  | field {h : Head} {v w : Value O} {visits : List (Visit O)}
      (chain : Follows a h.chain v visits (.ok w)) : Walks (.field h) v visits none
  | object {h : Head} {children : List Resource} {v w : Value O} {first visits : List (Visit O)}
      {failure : Option ResolutionError} (chain : Follows a h.chain v first (.ok w))
      (parts : InTurn Walks (children.map (·, w)) visits failure) :
      Walks (.object h children) v (first ++ visits) failure
  | notIterable {h : Head} {body : List Resource} {v w : Value O} {visits : List (Visit O)}
      (chain : Follows a h.chain v visits (.ok w)) (none : ∀ items, ¬ w.Iterates items) :
      Walks (.list h body) v visits (some (.notIterable w.typeName h.position))
  /-- Every element is walked with every resource of the body before the next element is. -/
  | list {h : Head} {body : List Resource} {v w : Value O} {items : List (Value O)}
      {first visits : List (Visit O)} {failure : Option ResolutionError}
      (chain : Follows a h.chain v first (.ok w)) (iterates : w.Iterates items)
      (parts : InTurn Walks (items.flatMap fun item => body.map (·, item)) visits failure) :
      Walks (.list h body) v (first ++ visits) failure

/-- The entry and the visits of a query. The entry point is the one that the allow-list holds for the
name of the first step; the other steps follow on its value. -/
inductive Query.Walks (q : Query) :
    List (Access O) → List (Visit O) → Option ResolutionError → Prop where
  | none {visits : List (Visit O)} {failure : Option ResolutionError}
      (start : q.head.chain = []) (root : GatedQuery.Walks a q.root .null visits failure) :
      Query.Walks q [] visits failure
  | unknown {first : Step} {chain : List Step} (start : q.head.chain = first :: chain)
      (unknown : a.entryPoint? q.entryPoint = .none) :
      Query.Walks q [] [] (some (.unknownEntryPoint q.entryPoint first.position))
  | fails {first : Step} {chain : List Step} {e : EntryPoint O} {cause : CallFailure}
      (start : q.head.chain = first :: chain) (found : a.entryPoint? q.entryPoint = some e)
      (failure : e.enter (.ofQuery first.arguments) = .error cause) :
      Query.Walks q [.enter q.entryPoint (.ofQuery first.arguments)] []
        (some (.callFailed q.entryPoint first.position cause))
  | entered {first : Step} {chain : List Step} {e : EntryPoint O} {v : Value O}
      {visits : List (Visit O)} {failure : Option ResolutionError}
      (start : q.head.chain = first :: chain) (found : a.entryPoint? q.entryPoint = some e)
      (enters : e.enter (.ofQuery first.arguments) = .ok v)
      (root : GatedQuery.Walks a (.object { q.head with chain } q.children) v visits failure) :
      Query.Walks q [.enter q.entryPoint (.ofQuery first.arguments)] visits failure

/-- A run makes the accesses of visits of a kind, and fails as they do. -/
def Performs (r : Run O α) (walk : List (Visit O) → Option ResolutionError → Prop) : Prop :=
  ∃ visits, walk visits r.failure ∧ r.accesses = Visit.accesses a visits

variable {a}

theorem Visit.accesses_append (first visits : List (Visit O)) :
    accesses a (first ++ visits) = accesses a first ++ accesses a visits :=
  List.flatMap_append

theorem Performs.pure {walk : List (Visit O) → Option ResolutionError → Prop} (h : walk [] none)
    (x : α) : Performs a (pure x : Run O α) walk :=
  ⟨[], h, rfl⟩

/-- A run that goes on after visits performs the visits before and after, or those before alone. -/
theorem Performs.bind {r : Run O α} {f : α → Run O β}
    {before after : List (Visit O) → Option ResolutionError → Prop} (h : Performs a r before)
    (fails : ∀ visits e, before visits (some e) → after visits (some e))
    (more : ∀ first x, before first none → r.outcome = .ok x →
      Performs a (f x) fun visits failure => after (first ++ visits) failure) :
    Performs a (r >>= f) after := by
  obtain ⟨first, hWalk, hAccesses⟩ := h
  cases hOutcome : r.outcome with
  | error e =>
      rw [failure_of_error hOutcome] at hWalk
      rw [bind_of_error hOutcome]
      exact ⟨first, fails first e hWalk, hAccesses⟩
  | ok x =>
      rw [failure_of_ok hOutcome] at hWalk
      obtain ⟨visits, hMore, hRest⟩ := more first x hWalk hOutcome
      rw [bind_of_ok hOutcome]
      refine ⟨first ++ visits, hMore, ?_⟩
      rw [Visit.accesses_append, hAccesses, hRest]

/-- A run that performs a walk performs every wider one. -/
theorem Performs.imp {r : Run O α} {before after : List (Visit O) → Option ResolutionError → Prop}
    (h : Performs a r before) (imp : ∀ visits failure, before visits failure → after visits failure) :
    Performs a r after := by
  obtain ⟨visits, hWalk, hAccesses⟩ := h
  exact ⟨visits, imp visits _ hWalk, hAccesses⟩

/-- Going on with nothing but the result. -/
theorem Performs.map {r : Run O α} {walk : List (Visit O) → Option ResolutionError → Prop}
    (h : Performs a r walk) (f : α → β) : Performs a (r >>= fun x => Pure.pure (f x)) walk :=
  h.bind (fun _ _ hFails => hFails) fun first x hWalk _ =>
    .pure (by rw [List.append_nil]; exact hWalk) _

/-- Following a chain visits its steps in order up to the first null or the first failure. The
induction is on the chain. -/
theorem follow_follows (chain : List Step) (v : Value O) :
    ∃ visits, Follows a chain v visits (follow a chain v).outcome ∧
      (follow a chain v).accesses = Visit.accesses a visits := by
  induction chain generalizing v with
  | nil => exact ⟨[], .nil v, rfl⟩
  | cons s chain ih =>
      rw [follow]
      cases hNull : v.isNull with
      | true =>
          cases v with
          | null => exact ⟨[], .null s chain, rfl⟩
          | _ => cases hNull
      | false =>
          cases hStep : (takeStep a s v).outcome with
          | error e =>
              rw [if_neg Bool.false_ne_true, bind_of_error hStep]
              exact ⟨[⟨s, v⟩], .fails hNull hStep, (List.append_nil _).symm⟩
          | ok w =>
              obtain ⟨visits, hFollows, hAccesses⟩ := ih w
              rw [if_neg Bool.false_ne_true, bind_of_ok hStep]
              exact ⟨⟨s, v⟩ :: visits, .cons hNull hStep hFollows,
                congrArg ((takeStep a s v).accesses ++ ·) hAccesses⟩

/-- Two runs, the second of which goes on in the turn of the first. -/
theorem Performs.inTurn_append
    {part : Resource → Value O → List (Visit O) → Option ResolutionError → Prop}
    {parts more : List (Resource × Value O)} {r : Run O α} {s : Run O β}
    (hFirst : Performs a r (InTurn part parts)) (hMore : Performs a s (InTurn part more))
    (f : α → β → γ) :
    Performs a (do let x ← r; let y ← s; return f x y) (InTurn part (parts ++ more)) := by
  refine hFirst.bind (fun visits e h => h.append_of_fails) fun first x h _ => ?_
  exact (hMore.map (f x)).imp fun visits failure hRest => h.append hRest

/-- A loop performs the walks of its rounds in turn. -/
theorem each_performs {f : β → Run O γ} (parts : β → List (Resource × Value O)) {xs : List β}
    (each : ∀ x ∈ xs, Performs a (f x) (InTurn (Walks a) (parts x))) :
    Performs a (Run.each f xs) (InTurn (Walks a) (xs.flatMap parts)) := by
  induction xs with
  | nil => exact .pure .nil _
  | cons x xs ih =>
      obtain ⟨hFirst, hMore⟩ := List.forall_mem_cons.mp each
      exact hFirst.inTurn_append (ih hMore) _

theorem resolveAll_performs {rs : List Resource} {v : Value O}
    (each : ∀ r ∈ rs, Performs a (resolve a r v) (Walks a r v)) :
    Performs a (resolveAll a rs v) (InTurn (Walks a) (rs.map (·, v))) := by
  rw [resolveAll_eq_each, List.map_eq_flatMap]
  exact each_performs _ fun r hr => (each r hr).imp fun _ _ => .single

/-- Children are walked in turn against one value. -/
theorem resolveChildren_performs {rs : List Resource} {v : Value O}
    (each : ∀ r ∈ rs, Performs a (resolve a r v) (Walks a r v)) :
    Performs a (resolveChildren a rs v) (InTurn (Walks a) (rs.map (·, v))) := by
  rw [resolveChildren_eq_each, List.map_eq_flatMap]
  exact each_performs _ fun r hr => ((each r hr).imp fun _ _ => .single).map _

theorem resolveBody_performs {rs : List Resource} {v : Value O}
    (each : ∀ r ∈ rs, Performs a (resolve a r v) (Walks a r v)) :
    Performs a (resolveBody a rs v) (InTurn (Walks a) (rs.map (·, v))) := by
  by_cases several : rs.length ≠ 1
  · rw [resolveBody_of_several several]
    exact (resolveAll_performs each).map _
  · obtain ⟨r, rfl⟩ := List.length_eq_one_iff.mp (not_not.mp several)
    rw [resolveBody_singleton]
    exact (each r List.mem_cons_self).imp fun _ _ => .single

/-- Going on from the end of a chain. -/
theorem follow_performs {chain : List Step} {v : Value O} {f : Value O → Run O α}
    {walk : List (Visit O) → Option ResolutionError → Prop}
    (fails : ∀ visits e, Follows a chain v visits (.error e) → walk visits (some e))
    (more : ∀ first w, Follows a chain v first (.ok w) →
      Performs a (f w) fun visits failure => walk (first ++ visits) failure) :
    Performs a (follow a chain v >>= f) walk := by
  obtain ⟨first, hFollows, hAccesses⟩ := follow_follows (a := a) chain v
  have hChain : Performs a (follow a chain v) fun visits failure =>
      visits = first ∧ failure = (follow a chain v).failure :=
    ⟨first, ⟨rfl, rfl⟩, hAccesses⟩
  refine hChain.bind ?_ ?_
  · rintro visits e ⟨rfl, hFailure⟩
    rw [failure_eq_some_iff.mp hFailure.symm] at hFollows
    exact fails visits e hFollows
  · rintro visits w ⟨rfl, _⟩ hOutcome
    rw [hOutcome] at hFollows
    exact more visits w hFollows

/-- What lists nothing cannot be iterated. -/
theorem not_iterates_of_elements {v : Value O} (h : v.elements = none) (items : List (Value O)) :
    ¬ v.Iterates items := by
  rintro (_ | _ | _ | _ | some)
  case object => exact absurd (h.symm.trans some) nofun
  all_goals cases h

/-- Every resource is walked as it is resolved: its accesses are those of its visits, and it fails
as they do. The induction is on the tree. -/
theorem resolve_performs (r : Resource) (v : Value O) :
    Performs a (resolve a r v) (Walks a r v) := by
  induction r using Resource.induct generalizing v with
  | field h =>
      rw [resolve]
      refine follow_performs (fun _ _ hFails => .fails hFails) fun first w hChain => ?_
      exact .pure (.field (by rwa [List.append_nil])) _
  | object h children ih =>
      rw [resolve]
      refine follow_performs (fun _ _ hFails => .fails hFails) fun first w hChain => ?_
      refine Performs.map ?_ _
      exact (resolveChildren_performs fun r hr => ih r hr w).imp fun _ _ hParts =>
        .object hChain hParts
  | list h body ih =>
      rw [resolve]
      refine follow_performs (fun _ _ hFails => .fails hFails) fun first w hChain => ?_
      cases hElements : w.elements with
      | none =>
          have hNot : iterate h.position w = .fail (.notIterable w.typeName h.position) := by
            rw [iterate, hElements]
          rw [hNot]
          refine ⟨[], ?_, rfl⟩
          show Walks a (.list h body) v (first ++ []) (some (.notIterable w.typeName h.position))
          rw [List.append_nil]
          exact .notIterable hChain (not_iterates_of_elements hElements)
      | some items =>
          have hItems : iterate h.position w = pure items := by rw [iterate, hElements]
          rw [hItems]
          refine Performs.map (r := Run.each _ items) ?_ _
          have hEach (item : Value O) : Performs a (resolveBody a body item)
              (InTurn (Walks a) (body.map (·, item))) :=
            resolveBody_performs fun r hr => ih r hr item
          exact (each_performs _ fun item _ => hEach item).imp fun _ _ hParts =>
            .list hChain (iterates_of_elements hElements) hParts

/-- Null ends a chain at once. -/
theorem follow_null (chain : List Step) : follow a chain (.null : Value O) = pure .null := by
  cases chain <;> rfl

theorem resolve_object (h : Head) (children : List Resource) (v : Value O) :
    resolve a (.object h children) v = (do
      let v ← follow a h.chain v
      let entries ← resolveChildren a children v
      return .map entries) := by
  rw [resolve]

/-- What a query does after its entry is what the object that is left of it does. -/
theorem solve_walks (q : Query) :
    ∃ entered visits, q.Walks a entered visits (solve a q).failure ∧
      (solve a q).accesses = entered ++ Visit.accesses a visits := by
  unfold solve
  cases hChain : q.head.chain with
  | nil =>
      have hRoot := resolve_performs (a := a) q.root .null
      rw [Query.root, resolve_object, follow_null] at hRoot
      obtain ⟨visits, hWalks, hAccesses⟩ := hRoot
      exact ⟨[], visits, .none hChain hWalks, hAccesses⟩
  | cons first chain =>
      have hArguments : q.entryArguments = first.arguments := by rw [Query.entryArguments, hChain]
      dsimp only
      rw [enter, hArguments]
      cases hFound : a.entryPoint? q.entryPoint with
      | none => exact ⟨[], [], .unknown hChain hFound, rfl⟩
      | some e =>
          dsimp only
          cases hEnter : e.enter (.ofQuery first.arguments) with
          | error cause => exact ⟨_, [], .fails hChain hFound hEnter, rfl⟩
          | ok v =>
              have hRoot := resolve_performs (a := a) (.object { q.head with chain } q.children) v
              rw [resolve_object] at hRoot
              obtain ⟨visits, hWalks, hAccesses⟩ := hRoot
              exact ⟨_, visits, .entered hChain hFound hEnter hWalks,
                congrArg ([Access.enter q.entryPoint (.ofQuery first.arguments)] ++ ·) hAccesses⟩

end GatedQuery
