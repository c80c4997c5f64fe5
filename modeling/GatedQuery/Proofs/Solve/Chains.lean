import GatedQuery.Proofs.Solve.Walks

/-! Chains in two parts. Following a chain is following its first part and then its second one, so a
resource may leave the first part of its chain to an object around it. Null ends a chain, and a
resource over null takes no step at all. -/

namespace GatedQuery

open Run

def Resource.withChain (chain : List Step) : Resource → Resource
  | .field h => .field { h with chain }
  | .list h body => .list { h with chain } body
  | .object h children => .object { h with chain } children

namespace Resource

variable (chain other : List Step) (r : Resource)

/-- Another chain changes nothing else of a head. -/
theorem head_withChain : (r.withChain chain).head = { r.head with chain } := by
  cases r <;> rfl

theorem withChain_withChain : (r.withChain other).withChain chain = r.withChain chain := by
  cases r <;> rfl

/-- A chain that starts with a name gives a key to every resource. -/
theorem exists_key_withChain (named : Step.StartsNamed chain) :
    ∃ key, (r.withChain chain).key? = some key := by
  refine Option.isSome_iff_exists.mp (isSome_key? ?_)
  rw [head_withChain]
  exact named

end Resource

variable {O : Type}

/-- Parts without visits, one after the other. -/
theorem InTurn.eq_nil {part : Resource → Value O → List (Visit O) → Option ResolutionError → Prop}
    {parts : List (Resource × Value O)} {visits : List (Visit O)} {failure : Option ResolutionError}
    (h : InTurn part parts visits failure)
    (each : ∀ p ∈ parts, ∀ visits failure, part p.1 p.2 visits failure →
      visits = [] ∧ failure = none) : visits = [] ∧ failure = none := by
  induction h with
  | nil => exact ⟨rfl, rfl⟩
  | fails head => exact each _ List.mem_cons_self _ _ head
  | cons head _ ih =>
      obtain ⟨rfl, _⟩ := each _ List.mem_cons_self _ _ head
      exact ih fun p hp => each p (List.mem_cons_of_mem _ hp)

variable [Backend O] (a : AllowList O)

/-- Once the first chain has come to null, so has the whole one. -/
theorem follow_append (first second : List Step) (v : Value O) :
    follow a (first ++ second) v = follow a first v >>= follow a second := by
  induction first generalizing v with
  | nil => rfl
  | cons s first ih =>
      rw [List.cons_append, follow, follow]
      cases v.isNull with
      | true => rw [if_pos rfl, if_pos rfl, pure_bind, follow_null]
      | false =>
          rw [if_neg Bool.false_ne_true, if_neg Bool.false_ne_true, bind_assoc]
          simp only [ih]

/-- A resource first follows its chain. What it does then does not depend on the chain. -/
theorem resolve_eq_follow_bind (r : Resource) (v : Value O) :
    resolve a r v = follow a r.head.chain v >>= resolve a (r.withChain []) := by
  cases r <;> simp only [resolve, Resource.withChain, Resource.head, follow, pure_bind]

/-- A resource is resolved by its chain and then without one. -/
theorem resolve_withChain (r : Resource) (chain : List Step) (v : Value O) :
    resolve a (r.withChain chain) v = follow a chain v >>= resolve a (r.withChain []) := by
  rw [resolve_eq_follow_bind, Resource.head_withChain, Resource.withChain_withChain]

/-- A resource is resolved by following any part of its chain and resolving the rest. -/
theorem resolve_of_append {r : Resource} {first second : List Step}
    (h : r.head.chain = first ++ second) (v : Value O) :
    resolve a r v = follow a first v >>= resolve a (r.withChain second) := by
  calc
    resolve a r v = follow a (first ++ second) v >>= resolve a (r.withChain []) := by
      rw [resolve_eq_follow_bind, h]
    _ = follow a first v >>= fun w => follow a second w >>= resolve a (r.withChain []) := by
      rw [follow_append, bind_assoc]
    _ = follow a first v >>= resolve a (r.withChain second) := by
      simp only [← resolve_withChain]

/-- An object with a single child gives a map with a single entry. -/
theorem resolve_object_singleton (h : Head) (r : Resource) (v : Value O) :
    resolve a (.object h [r]) v =
      (do
        let w ← follow a h.chain v
        let x ← resolve a r w
        return .map [(r.key?.getD "", x)]) := by
  simp only [resolve_object, resolveChildren, bind_assoc, pure_bind]

/-- Chains compose. However the chain of a resource is cut in two, resolving it is following the first
part and, if that comes to a value, resolving the resource with the second part from there, with the
same accesses in the same order. So a dotted path means the same as nesting: an object that has the
first part as its chain, and as its only child the resource with the second part, gives the map with
the one entry that the resource gives, or fails as the resource does. A part of the chain may well come
to null. -/
theorem chains_compose {r : Resource} {first second : List Step}
    (h : r.head.chain = first ++ second) (v : Value O) :
    resolve a r v = follow a first v >>= resolve a (r.withChain second) ∧
      (Step.StartsNamed second → ∃ key, (r.withChain second).key? = some key ∧
        ∀ outer : Head, outer.chain = first →
          resolve a (.object outer [r.withChain second]) v = (do
            let x ← resolve a r v
            return .map [(key, x)])) := by
  have hParts := resolve_of_append a h v
  refine ⟨hParts, fun named => ?_⟩
  obtain ⟨key, hKey⟩ := r.exists_key_withChain second named
  refine ⟨key, hKey, ?_⟩
  rintro outer rfl
  rw [resolve_object_singleton, hParts, bind_assoc, hKey, Option.getD_some]

/-- An allow-list that lets queries see the owner of a task, but nothing of the owner. -/
def ownerAlone : AllowList DocumentObject where
  entries := []
  types := [("map", [("owner", .native)])]

def ownerName : Resource :=
  .field ⟨none, [.member "owner" .start, .member "name" .start], .start⟩

/-- A task without an owner. The second part of the chain is denied, but it is never followed. -/
theorem chains_compose_noOwner :
    ownerName.head.chain = [.member "owner" .start] ++ [.member "name" .start] ∧
      Step.StartsNamed [.member "name" .start] ∧
      resolve ownerAlone (.object ⟨none, [.member "owner" .start], .start⟩
        [ownerName.withChain [.member "name" .start]]) (.map [("owner", .null)]) =
          pure (.map [("name", .null)]) := by
  have hChain : ownerName.head.chain = [.member "owner" .start] ++ [.member "name" .start] := rfl
  have hNamed : Step.StartsNamed [.member "name" .start] := ⟨_, [], rfl, rfl⟩
  obtain ⟨_, hNested⟩ := chains_compose ownerAlone hChain (.map [("owner", .null)])
  obtain ⟨key, hKey, hOuter⟩ := hNested hNamed
  cases hKey
  exact ⟨hChain, hNamed, hOuter _ rfl⟩

mutual

/-- What stands for a resource in an answer when there is nothing to resolve it from. -/
def Resource.nullForm : Resource → Value O
  | .field _ => .null
  | .list _ _ => .list []
  | .object _ children => .map (nullForms children)

/-- The null forms of the children of an object, in order, each under its key. -/
def Resource.nullForms : List Resource → List (String × Value O)
  | [] => []
  | r :: rs => (r.key?.getD "", r.nullForm) :: nullForms rs

end

theorem resolveChildren_null {rs : List Resource}
    (each : ∀ r ∈ rs, resolve a r .null = pure r.nullForm) :
    resolveChildren a rs .null = pure (Resource.nullForms rs) := by
  induction rs with
  | nil =>
      rw [resolveChildren, Resource.nullForms]
  | cons r rs ih =>
      obtain ⟨hFirst, hMore⟩ := List.forall_mem_cons.mp each
      rw [resolveChildren, hFirst, pure_bind, ih hMore, pure_bind, Resource.nullForms]

/-- Whatever a resource asks for, null gives its null form without an access. The induction is on
the tree. -/
theorem resolve_null (r : Resource) : resolve a r .null = pure r.nullForm := by
  induction r using Resource.induct with
  | field h =>
      rw [resolve, follow_null, pure_bind, Resource.nullForm]
      rfl
  | list h body =>
      rw [resolve, follow_null, pure_bind, Resource.nullForm]
      rfl
  | object h children ih =>
      rw [resolve_object, follow_null, pure_bind, resolveChildren_null a ih, pure_bind,
        Resource.nullForm]

variable {a}

/-- From null no step is taken. -/
theorem Follows.of_null {chain : List Step} {visits : List (Visit O)}
    {outcome : Except ResolutionError (Value O)} (h : Follows a chain .null visits outcome) :
    visits = [] ∧ outcome = .ok .null := by
  cases h with
  | nil => exact ⟨rfl, rfl⟩
  | null => exact ⟨rfl, rfl⟩
  | fails some => cases some
  | cons some => cases some

/-- Below null nothing is visited and nothing fails. -/
theorem Walks.of_null {r : Resource} {visits : List (Visit O)} {failure : Option ResolutionError}
    (h : Walks a r .null visits failure) : visits = [] ∧ failure = none := by
  induction r using Resource.induct generalizing visits failure with
  | field head =>
      cases h with
      | fails chain => cases chain.of_null.2
      | field chain => exact ⟨chain.of_null.1, rfl⟩
  | list head body ih =>
      cases h with
      | fails chain => cases chain.of_null.2
      | notIterable chain none =>
          cases chain.of_null.2
          exact absurd .null (none [])
      | list chain iterates parts =>
          obtain ⟨rfl, hNull⟩ := chain.of_null
          cases hNull
          cases iterates
          cases parts
          exact ⟨rfl, rfl⟩
  | object head children ih =>
      cases h with
      | fails chain => cases chain.of_null.2
      | object chain parts =>
          obtain ⟨rfl, hNull⟩ := chain.of_null
          cases hNull
          refine parts.eq_nil fun p hp visits failure hPart => ?_
          obtain ⟨r, hr, rfl⟩ := List.mem_map.mp hp
          exact ih r hr hPart

variable (a)

/-- Null resolves to the null form and never fails. However deep the resource is, nothing is accessed,
and no entry of the allow-list is asked for: the run is the same under every allow-list, also under one
that denies everything, and the walk takes no step, which is where an entry would be asked for. -/
theorem null_resolves (r : Resource) :
    (resolve a r .null).outcome = .ok r.nullForm ∧ (resolve a r .null).accesses = [] ∧
      (∀ b : AllowList O, resolve b r .null = resolve a r .null) ∧
      ∀ visits failure, Walks a r .null visits failure ↔ visits = [] ∧ failure = none := by
  rw [resolve_null]
  refine ⟨rfl, rfl, fun b => resolve_null b r, fun visits failure => ⟨Walks.of_null, ?_⟩⟩
  rintro ⟨rfl, rfl⟩
  obtain ⟨visits, hWalks, _⟩ := resolve_performs (a := a) r .null
  obtain ⟨rfl, hFailure⟩ := hWalks.of_null
  exact hFailure ▸ hWalks

end GatedQuery
