import GatedQuery.Query.Basic

/-! Conditions on the nodes of a tree. What a query must not repeat is a condition on each node by
itself, and it is required of every node. -/

namespace GatedQuery

/-- To show something of every resource, show it of a resource whose parts have it. -/
theorem Resource.induct {P : Resource → Prop} (field : ∀ h, P (.field h))
    (list : ∀ h body, (∀ r ∈ body, P r) → P (.list h body))
    (object : ∀ h children, (∀ r ∈ children, P r) → P (.object h children)) : ∀ r, P r
  | .field h => field h
  | .list h body => list h body (inductAll body)
  | .object h children => object h children (inductAll children)
where
  inductAll : ∀ rs : List Resource, ∀ r ∈ rs, P r
    | [] => fun _ hr => absurd hr List.not_mem_nil
    | s :: rs => List.forall_mem_cons.mpr ⟨induct field list object s, inductAll rs⟩

/-- Arguments in a list that can be read: names come last, and no name comes twice. -/
structure Argument.Ordered (args : List Argument) : Prop where
  namesLast : args.Pairwise fun a b => b.name? = none → a.name? = none
  distinct : (args.filterMap Argument.name?).Nodup

/-- A step that repeats no argument, and no slice that stands still. -/
def Step.Admissible : Step → Prop
  | .call _ args _ => Argument.Ordered args
  | .slice _ _ step _ => step ≠ some 0
  | _ => True

def Resource.DistinctKeys (children : List Resource) : Prop :=
  (children.filterMap Resource.key?).Nodup

/-- Resources all of whose nodes are admissible: their steps are, and the children of an object have
different keys. -/
inductive Resource.Admissible : Resource → Prop where
  | field {h : Head} (steps : ∀ s ∈ h.chain, s.Admissible) : Admissible (.field h)
  | list {h : Head} {body : List Resource} (steps : ∀ s ∈ h.chain, s.Admissible)
      (parts : ∀ r ∈ body, Admissible r) : Admissible (.list h body)
  | object {h : Head} {children : List Resource} (steps : ∀ s ∈ h.chain, s.Admissible)
      (keys : DistinctKeys children) (parts : ∀ r ∈ children, Admissible r) :
      Admissible (.object h children)

/-- The steps of an admissible resource are admissible, whatever its kind. -/
theorem Resource.Admissible.steps {r : Resource} (h : r.Admissible) :
    ∀ s ∈ r.head.chain, s.Admissible := by
  cases h <;> assumption

structure Query.Admissible (q : Query) : Prop where
  steps : ∀ s ∈ q.head.chain, s.Admissible
  keys : Resource.DistinctKeys q.children
  parts : ∀ r ∈ q.children, r.Admissible

end GatedQuery
