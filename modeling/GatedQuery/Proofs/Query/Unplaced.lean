import GatedQuery.Query.Basic

/-! Trees without places. They tell apart what a query asks for from where its text says so: the names,
the keys and the arguments of a tree stay when its places are taken away. -/

namespace GatedQuery

def Step.unplaced : Step → Step
  | .member n _ => .member n .start
  | .call n args _ => .call n args .start
  | .index i _ => .index i .start
  | .slice start stop step _ => .slice start stop step .start

def Head.unplaced (h : Head) : Head :=
  ⟨h.label, h.chain.map Step.unplaced, .start⟩

mutual

def Resource.unplaced : Resource → Resource
  | .field h => .field h.unplaced
  | .list h body => .list h.unplaced (unplacedAll body)
  | .object h children => .object h.unplaced (unplacedAll children)

def Resource.unplacedAll : List Resource → List Resource
  | [] => []
  | r :: rs => r.unplaced :: unplacedAll rs

end

def Query.unplaced (q : Query) : Query :=
  ⟨q.head.unplaced, Resource.unplacedAll q.children⟩

/-- Places are dropped from each resource of a list. -/
theorem Resource.unplacedAll_eq_map (rs : List Resource) :
    unplacedAll rs = rs.map Resource.unplaced := by
  induction rs with
  | nil => rfl
  | cons r rs ih => rw [unplacedAll, ih, List.map_cons]

/-- Names do not depend on places. -/
theorem Step.name?_unplaced (s : Step) : s.unplaced.name? = s.name? := by
  cases s <;> rfl

theorem Step.arguments_unplaced (s : Step) : s.unplaced.arguments = s.arguments := by
  cases s <;> rfl

/-- The key of a resource is an alias or a name, and so does not depend on places. -/
theorem Head.key?_unplaced (h : Head) : h.unplaced.key? = h.key? := by
  obtain ⟨label, chain, p⟩ := h
  cases chain with
  | nil => rfl
  | cons s ss => simp only [Head.key?, Head.unplaced, List.map_cons, List.head?_cons,
      Option.bind_some, Step.name?_unplaced]

/-- Dropping places keeps the head and its parts together. -/
theorem Resource.head_unplaced (r : Resource) : r.unplaced.head = r.head.unplaced := by
  cases r <;> rfl

theorem Resource.key?_unplaced (r : Resource) : r.unplaced.key? = r.key? := by
  rw [Resource.key?, Resource.head_unplaced, Head.key?_unplaced, Resource.key?]

theorem Query.entryPoint_unplaced (q : Query) : q.unplaced.entryPoint = q.entryPoint := by
  obtain ⟨⟨label, chain, p⟩, children⟩ := q
  cases chain with
  | nil => rfl
  | cons s ss => exact congrArg (Option.getD · "") s.name?_unplaced

/-- What a query passes to its entry point does not depend on places. -/
theorem Query.entryArguments_unplaced (q : Query) :
    q.unplaced.entryArguments = q.entryArguments := by
  obtain ⟨⟨label, chain, p⟩, children⟩ := q
  cases chain with
  | nil => rfl
  | cons s ss => exact s.arguments_unplaced

end GatedQuery
