import GatedQuery.Proofs.Grammar.Basic
import GatedQuery.Proofs.Query.Nodes

/-! Places in a derived tree. Every step and every resource is at the place of a token that it is
derived from, and no two steps are at one token. -/

namespace GatedQuery

def Tokens.places (ts : Tokens) : List Position :=
  ts.map PlacedToken.position

/-- The places of the steps of resources, in the order of the text. -/
def Resource.stepPlaces (nodes : List Resource) : List Position :=
  nodes.flatMap fun n => n.head.chain.map Step.position

theorem Resource.stepPlaces_cons (r : Resource) (nodes : List Resource) :
    stepPlaces (r :: nodes) = r.head.chain.map Step.position ++ stepPlaces nodes :=
  List.flatMap_cons

namespace Grammar

/-- The tokens of `ts` before `rest` have the places `steps`, each of them at a token of its own and
in order, and the places `resources`. -/
def Covers (ts rest : Tokens) (resources steps : List Position) : Prop :=
  ∃ front, ts = front ++ rest ∧ steps.Sublist front.places ∧ ∀ p ∈ resources, p ∈ front.places

namespace Covers

variable {ts us rest : Tokens} {resources resources' steps steps' : List Position}

/-- Where nothing is taken, no places are covered. -/
theorem refl (ts : Tokens) : Covers ts ts [] [] :=
  ⟨[], rfl, .slnil, nofun⟩

/-- Places that are covered one part after the other are covered by both parts together. -/
theorem append (h : Covers ts us resources steps) (h' : Covers us rest resources' steps') :
    Covers ts rest (resources ++ resources') (steps ++ steps') := by
  obtain ⟨front, rfl, hSteps, hResources⟩ := h
  obtain ⟨middle, rfl, hSteps', hResources'⟩ := h'
  refine ⟨front ++ middle, by rw [List.append_assoc], ?_, ?_⟩
  · rw [Tokens.places, List.map_append]
    exact hSteps.append hSteps'
  · rw [Tokens.places, List.map_append]
    intro p hp
    rcases List.mem_append.mp hp with hp | hp
    · exact List.mem_append_left _ (hResources p hp)
    · exact List.mem_append_right _ (hResources' p hp)

/-- Fewer places are covered by the same tokens. Those of steps stay in order. -/
theorem weaken (h : Covers ts rest resources steps) (hResources : resources' ⊆ resources)
    (hSteps : steps'.Sublist steps) : Covers ts rest resources' steps' := by
  obtain ⟨front, rfl, hCovered, hPlaces⟩ := h
  exact ⟨front, rfl, hSteps.trans hCovered, fun p hp => hPlaces p (hResources hp)⟩

/-- What is left is at the end of what was there. -/
theorem sublist (h : Covers ts rest resources steps) : rest.places.Sublist ts.places := by
  obtain ⟨front, rfl, _⟩ := h
  exact (List.sublist_append_right front rest).map _

/-- A token more, at whose place nothing is. -/
theorem skip {t : PlacedToken} (h : Covers ts rest resources steps) :
    Covers (t :: ts) rest resources steps := by
  obtain ⟨front, rfl, hSteps, hResources⟩ := h
  exact ⟨t :: front, rfl, hSteps.cons _, fun p hp => List.mem_cons_of_mem _ (hResources p hp)⟩

/-- A token more, at whose place a step is. -/
theorem step {t : PlacedToken} (h : Covers ts rest resources steps) :
    Covers (t :: ts) rest resources (t.position :: steps) := by
  obtain ⟨front, rfl, hSteps, hResources⟩ := h
  exact ⟨t :: front, rfl, hSteps.cons_cons _, fun p hp => List.mem_cons_of_mem _ (hResources p hp)⟩

/-- A token more, at whose place a resource is. -/
theorem resource {t : PlacedToken} (h : Covers ts rest resources steps) :
    Covers (t :: ts) rest (t.position :: resources) steps := by
  obtain ⟨front, rfl, hSteps, hResources⟩ := h
  refine ⟨t :: front, rfl, hSteps.cons _, List.forall_mem_cons.mpr ⟨List.mem_cons_self, ?_⟩⟩
  exact fun p hp => List.mem_cons_of_mem _ (hResources p hp)

/-- A resource more, at the place of the first token, which is also that of a step. -/
theorem resource_of_step {t : PlacedToken} {p : Position}
    (h : Covers (t :: ts) rest resources (p :: steps)) :
    Covers (t :: ts) rest (t.position :: resources) (p :: steps) := by
  obtain ⟨front, hFront, hSteps, hResources⟩ := h
  cases front with
  | nil => cases hSteps
  | cons u front =>
      obtain ⟨rfl, _⟩ := List.cons.inj hFront
      exact ⟨t :: front, hFront, hSteps,
        List.forall_mem_cons.mpr ⟨List.mem_cons_self, hResources⟩⟩

end Covers

variable {ts rest : Tokens}

/-- Arguments have no places of their own. -/
theorem IsArgument.covers {arg : Argument} (h : IsArgument ts rest arg) : Covers ts rest [] [] := by
  cases h with
  | positional => exact (Covers.refl rest).skip
  | named => exact (Covers.refl rest).skip.skip.skip

/-- The places of the items of a list are covered in the order of the items. -/
theorem Separated.covers {α : Type} {item : Tokens → Tokens → α → Prop} {close : Mark}
    {xs : List α} (resources steps : α → List Position) (h : Separated item close ts rest xs)
    (items : ∀ x ∈ xs, ∀ us vs, item us vs x → Covers us vs (resources x) (steps x)) :
    Covers ts rest (xs.flatMap resources) (xs.flatMap steps) := by
  induction h with
  | nil => exact (Covers.refl _).skip
  | last head =>
      have hItem := items _ List.mem_cons_self _ _ head
      simpa using hItem.append (Covers.refl _).skip
  | cons head _ ih =>
      have hItem := items _ List.mem_cons_self _ _ head
      exact hItem.append (ih fun x hx => items x (List.mem_cons_of_mem _ hx)).skip

/-- A name or a call stands where its name stands. -/
theorem Segment.covers {s : Step} (h : Segment ts rest s) : Covers ts rest [] [s.position] := by
  cases h with
  | member => exact (Covers.refl rest).step
  | call arguments =>
      have hArguments := arguments.covers (fun _ => []) (fun _ => []) fun _ _ _ _ ha => ha.covers
      rw [List.flatMap_eq_nil_iff.mpr fun _ _ => rfl] at hArguments
      exact hArguments.skip.step

theorem Bound.covers {b : Option Int64} (h : Bound ts rest b) : Covers ts rest [] [] := by
  cases h with
  | none => exact .refl _
  | some => exact (Covers.refl _).skip

theorem Stride.covers {b : Option Int64} (h : Stride ts rest b) : Covers ts rest [] [] := by
  cases h with
  | none => exact .refl _
  | some bound => exact bound.covers.skip

/-- An index or a slice stands where its first token stands. -/
theorem Subscript.covers {s : Step} (h : Subscript ts rest s) : Covers ts rest [] [s.position] := by
  cases h with
  | index => exact (Covers.refl rest).step
  | slice first second third =>
      have hMore := second.covers.append third.covers
      cases first with
      | none => exact hMore.step
      | some => exact hMore.skip.step

/-- The steps of a chain stand in the order in which they are written. -/
theorem Tail.covers {ss : List Step} (h : Tail ts rest ss) :
    Covers ts rest [] (ss.map Step.position) := by
  induction h with
  | nil => exact .refl _
  | named head _ ih => exact (head.covers.append ih).skip
  | dotted head _ ih => exact (head.covers.append ih).skip
  | bracket head _ ih => exact (head.covers.append ih.skip).skip

theorem Chain.covers {ss : List Step} (h : Chain ts rest ss) :
    Covers ts rest [] (ss.map Step.position) := by
  cases h with
  | cons head tail => exact head.covers.append tail.covers

/-- A resource stands where its alias or else its first name stands. -/
theorem IsHead.covers {h : Head} (hHead : IsHead ts rest h) :
    Covers ts rest [h.position] (h.chain.map Step.position) := by
  cases hHead with
  | plain steps =>
      have hSteps := steps.covers
      cases steps with
      | cons head tail => exact hSteps.resource_of_step
  | labelled steps => exact steps.covers.skip.resource

/-- A block covers what is below its head, and it opens with a token of its own. -/
def BlockCovers (r : Resource) : Prop :=
  ∀ {ts rest h}, Block ts rest h r → ∃ t us, ts = t :: us ∧
    Covers us rest (r.descendants.map Resource.position) (Resource.stepPlaces r.descendants)

/-- A resource covers its own place and those below it if its block does. -/
theorem Named.covers {r : Resource} (h : Named Block ts rest r) (blocks : BlockCovers r) :
    Covers ts rest (r.nodes.map Resource.position) (Resource.stepPlaces r.nodes) := by
  cases h with
  | field head =>
      rw [Resource.nodes_eq_cons, Resource.stepPlaces_cons]
      exact head.covers.append (.refl _)
  | block head inner =>
      obtain ⟨t, us, rfl, hBelow⟩ := blocks inner
      rw [Resource.nodes_eq_cons, Resource.stepPlaces_cons, inner.head, List.map_cons,
        Resource.position, inner.head]
      exact head.covers.append hBelow.skip

/-- The same of an item of a list, which stands at its opening mark if it has no head. -/
theorem Item.covers {r : Resource} (h : Item Block ts rest r) (blocks : BlockCovers r) :
    Covers ts rest (r.nodes.map Resource.position) (Resource.stepPlaces r.nodes) := by
  cases h with
  | named resource => exact resource.covers blocks
  | bare inner =>
      obtain ⟨t, us, hTokens, hBelow⟩ := blocks inner
      cases hTokens
      rw [Resource.nodes_eq_cons, Resource.stepPlaces_cons, inner.head, List.map_cons,
        Resource.position, inner.head]
      exact hBelow.resource

theorem parts_cover {item : Tokens → Tokens → Resource → Prop} {close : Mark}
    {parts : List Resource} (h : Separated item close ts rest parts)
    (items : ∀ r ∈ parts, ∀ us vs, item us vs r →
      Covers us vs (r.nodes.map Resource.position) (Resource.stepPlaces r.nodes)) :
    Covers ts rest ((Resource.nodesAll parts).map Resource.position)
      (Resource.stepPlaces (Resource.nodesAll parts)) := by
  have hParts := h.covers (fun r => r.nodes.map Resource.position)
    (fun r => Resource.stepPlaces r.nodes) items
  rw [Resource.nodesAll_eq_flatMap, List.map_flatMap, Resource.stepPlaces, List.flatMap_assoc]
  exact hParts

/-- The places of a block and of all resources below it are those of its tokens. The induction is on
the tree. -/
theorem block_covers (r : Resource) : BlockCovers r := by
  induction r using Resource.induct with
  | field h =>
      intro ts rest h hBlock
      cases hBlock
  | list _ body ih =>
      intro ts rest h hBlock
      cases hBlock with
      | list _ inner =>
          exact ⟨_, _, rfl, parts_cover inner fun r hr _ _ hItem => hItem.covers (ih r hr)⟩
  | object _ children ih =>
      intro ts rest h hBlock
      cases hBlock with
      | object inner =>
          exact ⟨_, _, rfl, parts_cover inner fun r hr _ _ hChild => hChild.covers (ih r hr)⟩

/-- All places of a query are places of its tokens, those of the steps in order. -/
theorem IsQuery.covers {q : Query} (h : IsQuery ts q) :
    ∃ p, Covers ts [⟨.endOfInput, p⟩] (q.nodes.map Resource.position)
      (Resource.stepPlaces q.nodes) := by
  cases h with
  | mk steps inner =>
      have hParts := parts_cover inner fun r _ _ _ hChild => hChild.covers (block_covers r)
      have hSteps := steps.covers
      cases steps with
      | cons head tail => exact ⟨_, hSteps.resource_of_step.append hParts.skip⟩

end Grammar

/-- The steps of a derived query are at tokens of their own, in order. -/
theorem stepPlaces_sublist {ts : Tokens} {q : Query} (h : Grammar.IsQuery ts q) :
    (q.steps.map Step.position).Sublist ts.places := by
  obtain ⟨p, front, rfl, hSteps, _⟩ := h.covers
  rw [Query.steps, List.map_flatMap, Tokens.places, List.map_append]
  exact hSteps.trans (List.sublist_append_left _ _)

/-- All steps and resources of a derived query are at tokens. -/
theorem mem_places_of_isQuery {ts : Tokens} {q : Query} (h : Grammar.IsQuery ts q) {p : Position}
    (hp : p ∈ q.places) : p ∈ ts.places := by
  have hSteps := stepPlaces_sublist h
  obtain ⟨_, front, rfl, _, hResources⟩ := h.covers
  obtain ⟨r, hr, hp⟩ := List.mem_flatMap.mp hp
  rcases List.mem_cons.mp hp with rfl | hStep
  · rw [Tokens.places, List.map_append]
    exact List.mem_append_left _ (hResources _ (List.mem_map_of_mem hr))
  · obtain ⟨s, hs, rfl⟩ := List.mem_map.mp hStep
    exact hSteps.subset (List.mem_map_of_mem (List.mem_flatMap.mpr ⟨r, hr, hs⟩))

end GatedQuery
