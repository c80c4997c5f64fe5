import GatedQuery.Execution
import GatedQuery.Proofs.Query.Unplaced

/-! Places matter for failures alone. A query without places makes the same accesses in the same
order, and ends with the same value or with the same failure without its place. -/

namespace GatedQuery

variable {O α β : Type}

def ResolutionError.unplaced : ResolutionError → ResolutionError
  | .unknownEntryPoint n _ => .unknownEntryPoint n .start
  | .notAllowed n t _ => .notAllowed n t .start
  | .memberNotFound n t _ => .memberNotFound n t .start
  | .indexNotFound i t _ => .indexNotFound i t .start
  | .notSubscriptable t _ => .notSubscriptable t .start
  | .notIterable t _ => .notIterable t .start
  | .callFailed n _ cause => .callFailed n .start cause

namespace Run

/-- The run with its failure, if it fails, without its place. -/
def unplaced (r : Run O α) : Run O α :=
  ⟨r.accesses, r.outcome.mapError ResolutionError.unplaced⟩

theorem unplaced_pure (x : α) : (pure x : Run O α).unplaced = pure x := rfl

/-- Dropping the places of a sequence of runs drops those of its parts. -/
theorem unplaced_bind (r : Run O α) (f : α → Run O β) :
    (r >>= f).unplaced = r.unplaced >>= fun x => (f x).unplaced := by
  obtain ⟨accesses, _ | x⟩ := r <;> rfl

theorem unplaced_each (f : α → Run O β) (xs : List α) :
    (each f xs).unplaced = each (fun x => (f x).unplaced) xs := by
  induction xs with
  | nil => rfl
  | cons x xs ih => simp only [each, unplaced_bind, ih, unplaced_pure]

end Run

open Run

/-- The failure of a callable is the same at any place. -/
theorem called_unplaced (name : String) (position : Position) (answer : Except CallFailure α) :
    (called name position answer).mapError ResolutionError.unplaced = called name .start answer := by
  cases answer <;> rfl

theorem runFilter_unplaced (f : Filter O) (name : String) (args : Arguments O)
    (position : Position) (v : Value O) :
    (runFilter f name args position v).unplaced = runFilter f name args .start v :=
  congrArg (Run.mk _) (called_unplaced name position _)

/-- Entering a query does not depend on places. -/
theorem enter_unplaced (a : AllowList O) (q : Query) (position : Position) :
    (enter a q position).unplaced = enter a q.unplaced .start := by
  unfold enter
  rw [Query.entryPoint_unplaced, Query.entryArguments_unplaced]
  split
  · rfl
  next e _ => exact congrArg (Run.mk _) (called_unplaced q.entryPoint position _)

variable [Backend O]

theorem item_unplaced (v : Value O) (i : Int64) (position : Position) :
    (v.item i position).mapError ResolutionError.unplaced = v.item i .start := by
  unfold Value.item
  dsimp only
  split <;> rfl

theorem slice_unplaced (v : Value O) (start stop : Option Int64) (step : Int64)
    (position : Position) :
    (v.slice start stop step position).mapError ResolutionError.unplaced =
      v.slice start stop step .start := by
  unfold Value.slice
  split
  · rfl
  · split <;> rfl

theorem readMember_unplaced (name : String) (position : Position) (v : Value O) :
    (readMember name position v).unplaced = readMember name .start v := by
  cases v with
  | map entries =>
      unfold readMember
      dsimp only
      split <;> rfl
  | object o =>
      unfold readMember
      simp only [unplaced_bind]
      refine congrArg (readAttribute o name >>= ·) (funext fun found => ?_)
      cases found with
      | some x => rfl
      | none =>
          dsimp only
          rw [unplaced_bind]
          refine congrArg (callMethod o name .none >>= ·) (funext fun answer => ?_)
          cases answer with
          | some x => exact congrArg (Run.mk []) (called_unplaced name position x)
          | none => rfl
  | _ => rfl

theorem notCallable_unplaced (name : String) (v : Value O) (position : Position)
    (isAttribute : Bool) :
    (notCallable name v position isAttribute).unplaced = notCallable name v .start isAttribute := by
  cases isAttribute <;> rfl

/-- Calling a member does not depend on places. -/
theorem callMember_unplaced (name : String) (args : Arguments O) (position : Position)
    (v : Value O) : (callMember name args position v).unplaced = callMember name args .start v := by
  cases v with
  | object o =>
      unfold callMember
      simp only [unplaced_bind]
      refine congrArg (callMethod o name args >>= ·) (funext fun answer => ?_)
      cases answer with
      | some x => exact congrArg (Run.mk []) (called_unplaced name position x)
      | none =>
          simp only [unplaced_bind, notCallable_unplaced]
          rfl
  | _ => exact notCallable_unplaced name _ position _

theorem allowed_unplaced (a : AllowList O) (name : String) (position : Position) (v : Value O) :
    (allowed a name position v).unplaced = allowed a name .start v := by
  unfold allowed
  split <;> rfl

/-- A step accesses the same and ends in the same way wherever it stands. -/
theorem takeStep_unplaced (a : AllowList O) (s : Step) (v : Value O) :
    (takeStep a s v).unplaced = takeStep a s.unplaced v := by
  cases s with
  | member name position =>
      unfold takeStep
      simp only [unplaced_bind, allowed_unplaced, Step.unplaced]
      refine congrArg (allowed a name .start v >>= ·) (funext fun accessor => ?_)
      cases accessor with
      | native => exact readMember_unplaced name position v
      | filter f => exact runFilter_unplaced f name .none position v
  | call name args position =>
      unfold takeStep
      simp only [unplaced_bind, allowed_unplaced, Step.unplaced]
      refine congrArg (allowed a name .start v >>= ·) (funext fun accessor => ?_)
      cases accessor with
      | native => exact callMember_unplaced name (.ofQuery args) position v
      | filter f => exact runFilter_unplaced f name (.ofQuery args) position v
  | index i position => exact congrArg (Run.mk []) (item_unplaced v i position)
  | slice start stop step position =>
      exact congrArg (Run.mk []) (slice_unplaced v start stop (step.getD 1) position)

/-- A chain does the same wherever its steps stand. The induction is on the chain. -/
theorem follow_unplaced (a : AllowList O) (chain : List Step) (v : Value O) :
    (follow a chain v).unplaced = follow a (chain.map Step.unplaced) v := by
  induction chain generalizing v with
  | nil => rfl
  | cons s chain ih =>
      rw [List.map_cons, follow, follow]
      cases v.isNull with
      | true => rfl
      | false =>
          simp only [Bool.false_eq_true, if_false, unplaced_bind, takeStep_unplaced, ih]

theorem iterate_unplaced (position : Position) (v : Value O) :
    (iterate position v).unplaced = iterate .start v := by
  unfold iterate
  split <;> rfl

mutual

/-- Resolving does not depend on places. The induction is on the tree, as the recursion is. -/
theorem resolve_unplaced (a : AllowList O) :
    ∀ (r : Resource) (v : Value O), (resolve a r v).unplaced = resolve a r.unplaced v
  | .field h, v => by
      simp only [resolve, Resource.unplaced, Head.unplaced, unplaced_bind, follow_unplaced,
        unplaced_pure]
  | .list h body, v => by
      simp only [resolve, Resource.unplaced, Head.unplaced, unplaced_bind, follow_unplaced,
        iterate_unplaced, unplaced_each, resolveBody_unplaced a body, unplaced_pure]
  | .object h children, v => by
      simp only [resolve, Resource.unplaced, Head.unplaced, unplaced_bind, follow_unplaced,
        resolveChildren_unplaced a children, unplaced_pure]

theorem resolveBody_unplaced (a : AllowList O) :
    ∀ (body : List Resource) (v : Value O),
      (resolveBody a body v).unplaced = resolveBody a (Resource.unplacedAll body) v
  | [], _ => rfl
  | [r], v => by simp only [resolveBody, Resource.unplacedAll, resolve_unplaced a r]
  | r :: s :: rs, v => by
      simp only [resolveBody, Resource.unplacedAll, unplaced_bind, resolve_unplaced a r,
        resolveAll_unplaced a (s :: rs), unplaced_pure]

theorem resolveAll_unplaced (a : AllowList O) :
    ∀ (rs : List Resource) (v : Value O),
      (resolveAll a rs v).unplaced = resolveAll a (Resource.unplacedAll rs) v
  | [], _ => rfl
  | r :: rs, v => by
      simp only [resolveAll, Resource.unplacedAll, unplaced_bind, resolve_unplaced a r,
        resolveAll_unplaced a rs, unplaced_pure]

theorem resolveChildren_unplaced (a : AllowList O) :
    ∀ (rs : List Resource) (v : Value O),
      (resolveChildren a rs v).unplaced = resolveChildren a (Resource.unplacedAll rs) v
  | [], _ => rfl
  | r :: rs, v => by
      simp only [resolveChildren, Resource.unplacedAll, unplaced_bind, resolve_unplaced a r,
        resolveChildren_unplaced a rs, Resource.key?_unplaced, unplaced_pure]

end

/-- Resolving a query without places is resolving the query and taking the place of its failure
away. The accesses are the same. -/
theorem solve_unplaced (a : AllowList O) (q : Query) :
    (solve a q).unplaced = solve a q.unplaced := by
  unfold solve
  cases hChain : q.head.chain with
  | nil =>
      have hNone : q.unplaced.head.chain = [] := by
        rw [Query.unplaced, Head.unplaced, hChain, List.map_nil]
      rw [hNone]
      dsimp only
      simp only [unplaced_bind, resolveChildren_unplaced, unplaced_pure]
      rfl
  | cons first chain =>
      have hSome : q.unplaced.head.chain = first.unplaced :: chain.map Step.unplaced := by
        rw [Query.unplaced, Head.unplaced, hChain, List.map_cons]
      have hPlace : first.unplaced.position = .start := by cases first <;> rfl
      rw [hSome]
      dsimp only
      simp only [hPlace, unplaced_bind, enter_unplaced, follow_unplaced, resolveChildren_unplaced,
        unplaced_pure]
      rfl

end GatedQuery
