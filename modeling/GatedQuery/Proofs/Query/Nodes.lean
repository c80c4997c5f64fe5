import GatedQuery.Proofs.Canonical.WellFormed

/-! The nodes of a tree in the order of its text, with their steps and their places. What holds of a
tree that is read holds of each of its nodes. -/

namespace GatedQuery

mutual

def Resource.nodes : Resource → List Resource
  | .field h => [.field h]
  | .list h body => .list h body :: nodesAll body
  | .object h children => .object h children :: nodesAll children

def Resource.nodesAll : List Resource → List Resource
  | [] => []
  | r :: rs => r.nodes ++ nodesAll rs

end

def Query.nodes (q : Query) : List Resource :=
  q.root.nodes

def Query.steps (q : Query) : List Step :=
  q.nodes.flatMap fun r => r.head.chain

def Query.places (q : Query) : List Position :=
  q.nodes.flatMap fun r => r.position :: r.head.chain.map Step.position

/-- The keys of the map that an object gives. A child without a key has the empty one. -/
def Resource.keys (children : List Resource) : List String :=
  children.map fun r => r.key?.getD ""

namespace Resource

theorem nodesAll_eq_flatMap (rs : List Resource) : nodesAll rs = rs.flatMap nodes := by
  induction rs with
  | nil => rfl
  | cons r rs ih => rw [nodesAll, ih, List.flatMap_cons]

def descendants : Resource → List Resource
  | field _ => []
  | list _ body => nodesAll body
  | object _ children => nodesAll children

/-- A resource comes before all resources below it. -/
theorem nodes_eq_cons (r : Resource) : r.nodes = r :: r.descendants := by
  cases r <;> rfl

theorem mem_nodes_self (r : Resource) : r ∈ r.nodes := by
  rw [nodes_eq_cons]
  exact List.mem_cons_self

/-- A node of several resources is a node of one of them. -/
theorem mem_nodesAll {rs : List Resource} {n : Resource} :
    n ∈ nodesAll rs ↔ ∃ r ∈ rs, n ∈ r.nodes := by
  rw [nodesAll_eq_flatMap, List.mem_flatMap]

/-- The nodes of an item are nodes of the list. -/
theorem mem_nodes_list {h : Head} {body : List Resource} {r n : Resource} (hr : r ∈ body)
    (hn : n ∈ r.nodes) : n ∈ (list h body).nodes :=
  List.mem_cons_of_mem _ (mem_nodesAll.mpr ⟨r, hr, hn⟩)

theorem mem_nodes_object {h : Head} {children : List Resource} {r n : Resource}
    (hr : r ∈ children) (hn : n ∈ r.nodes) : n ∈ (object h children).nodes :=
  List.mem_cons_of_mem _ (mem_nodesAll.mpr ⟨r, hr, hn⟩)

/-- Nodes of a node are nodes of the whole. -/
theorem mem_nodes_trans {r s : Resource} (hs : s ∈ r.nodes) : ∀ n ∈ s.nodes, n ∈ r.nodes := by
  induction r using Resource.induct with
  | field h =>
      obtain rfl := List.mem_singleton.mp hs
      exact fun n hn => hn
  | list h body ih =>
      rcases List.mem_cons.mp hs with rfl | hBelow
      · exact fun n hn => hn
      · obtain ⟨r, hr, hs⟩ := mem_nodesAll.mp hBelow
        exact fun n hn => mem_nodes_list hr (ih r hr hs n hn)
  | object h children ih =>
      rcases List.mem_cons.mp hs with rfl | hBelow
      · exact fun n hn => hn
      · obtain ⟨r, hr, hs⟩ := mem_nodesAll.mp hBelow
        exact fun n hn => mem_nodes_object hr (ih r hr hs n hn)

/-- Every node of a tree that can be written can be written. -/
theorem WellFormed.nodes {inList : Bool} {r : Resource} (h : r.WellFormed inList) :
    ∀ n ∈ r.nodes, ∃ inList, n.WellFormed inList := by
  induction h with
  | @field inList h head =>
      intro n hn
      obtain rfl := List.mem_singleton.mp hn
      exact ⟨inList, .field head⟩
  | @list inList h body head some parts ih =>
      intro n hn
      rcases List.mem_cons.mp hn with rfl | hBelow
      · exact ⟨inList, .list head some parts⟩
      · obtain ⟨r, hr, hn⟩ := mem_nodesAll.mp hBelow
        exact ih r hr n hn
  | @object inList h children head keys parts ih =>
      intro n hn
      rcases List.mem_cons.mp hn with rfl | hBelow
      · exact ⟨inList, .object head keys parts⟩
      · obtain ⟨r, hr, hn⟩ := mem_nodesAll.mp hBelow
        exact ih r hr n hn

/-- If all children have keys, none is left out of the keys. -/
theorem filterMap_key?_of_isSome {rs : List Resource} (h : ∀ r ∈ rs, r.key?.isSome = true) :
    rs.filterMap key? = keys rs := by
  induction rs with
  | nil => rfl
  | cons r rs ih =>
      obtain ⟨hFirst, hMore⟩ := List.forall_mem_cons.mp h
      obtain ⟨key, hKey⟩ := Option.isSome_iff_exists.mp hFirst
      rw [List.filterMap_cons_some hKey, ih hMore, keys, keys, List.map_cons, hKey,
        Option.getD_some]

/-- A resource whose chain starts with a name has a key. -/
theorem isSome_key? {r : Resource} (h : Step.StartsNamed r.head.chain) : r.key?.isSome = true := by
  obtain ⟨s, ss, hChain, hNamed⟩ := h
  rw [key?, Head.key?, hChain, List.head?_cons, Option.bind_some]
  cases r.head.label with
  | none => exact hNamed
  | some label => rfl

/-- The map of an object that can be written has no key twice. -/
theorem WellFormed.nodup_keys {inList : Bool} {h : Head} {children : List Resource}
    (wellFormed : WellFormed inList (.object h children)) : (keys children).Nodup := by
  cases wellFormed with
  | object _ distinct parts =>
      rw [← filterMap_key?_of_isSome fun r hr => isSome_key? (parts r hr).startsNamed]
      exact distinct

end Resource

end GatedQuery
