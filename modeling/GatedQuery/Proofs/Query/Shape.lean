import GatedQuery.Proofs.Canonical.Execution
import GatedQuery.Proofs.Grammar.Acceptance
import GatedQuery.Proofs.Query.Nodes

/-! The shape of the trees that are read. The conditions hold at every node and for tokens of any
origin, also for those that no text splits into, so nothing that resolves or writes a tree needs to
check them again. -/

namespace GatedQuery

open Reading

/-- A chain that starts with a name, with steps that repeat no argument and never stand still. -/
structure Head.Shaped (h : Head) : Prop where
  named : Step.StartsNamed h.chain
  steps : ∀ s ∈ h.chain, s.Admissible

/-- Resources in the body of a list or elsewhere, at every depth. Only a list or an object directly in
the body of a list may go without alias and chain; a list has a body, and the children of an object
have keys, which are different. -/
inductive Resource.Shaped : Bool → Resource → Prop where
  | field {inList : Bool} {h : Head} (head : h.Shaped) : Shaped inList (.field h)
  | list {inList : Bool} {h : Head} {body : List Resource}
      (head : h.Shaped ∨ inList = true ∧ h.Empty) (some : body ≠ [])
      (parts : ∀ r ∈ body, Shaped true r) : Shaped inList (.list h body)
  | object {inList : Bool} {h : Head} {children : List Resource}
      (head : h.Shaped ∨ inList = true ∧ h.Empty)
      (keyed : ∀ r ∈ children, r.key?.isSome = true) (keys : DistinctKeys children)
      (parts : ∀ r ∈ children, Shaped false r) : Shaped inList (.object h children)

/-- Queries all of whose nodes have the shape of their place. -/
structure Query.Shaped (q : Query) : Prop where
  label : q.head.label = none
  head : q.head.Shaped
  keyed : ∀ r ∈ q.children, r.key?.isSome = true
  keys : Resource.DistinctKeys q.children
  parts : ∀ r ∈ q.children, r.Shaped false

/-- The names in a head: its alias, and the names of its steps and of their arguments. -/
def Head.names (h : Head) : List String :=
  h.label.toList ++ h.chain.flatMap fun s => s.name?.toList ++ s.arguments.filterMap Argument.name?

namespace Reading

section Separated

variable {α : Type} {read : List α → Reading α} {close : Mark} {between : Expectation}
  {xs : List α} {s s' : TokenStream}

/-- What every item keeps of the items before it holds of the whole list. -/
theorem separated_keeps (invariant : List α → Prop) {before : List α} {fuel : Nat}
    (keeps : ∀ before s x t, invariant before → Reads (read before) s x t → invariant (before ++ [x]))
    (hBefore : invariant before) (h : Reads (separated close between read fuel before) s xs s') :
    invariant xs := by
  induction fuel generalizing before s with
  | zero => exact absurd h reads_unexpected
  | succ fuel ih =>
      rcases reads_separated_succ.mp h with ⟨_, rfl, _⟩ | ⟨_, x, t, hItem, hRest⟩
      · exact hBefore
      · have hAdded := keeps before s x t hBefore hItem
        rcases hRest with ⟨_, hMore⟩ | ⟨_, _, hMore⟩
        · exact ih hAdded hMore
        · exact ih hAdded hMore

/-- What holds of the items so far after each item holds of all items of a list. -/
theorem list_keeps (invariant : List α → Prop)
    (keeps : ∀ before s x t, invariant before → Reads (read before) s x t → invariant (before ++ [x]))
    (hNone : invariant []) (h : Reads (list close between read) s xs s') : invariant xs :=
  separated_keeps invariant keeps hNone (reads_list.mp h)

/-- A list that does not close at once has an item. -/
theorem list_ne_nil (hOpen : s.current.token.isMark close = false)
    (h : Reads (list close between read) s xs s') : xs ≠ [] := by
  have keeps : ∀ before s x t, before ≠ [] → Reads (read before) s x t → before ++ [x] ≠ [] :=
    fun before _ x _ _ _ => List.append_ne_nil_of_right_ne_nil before (List.cons_ne_nil x [])
  rcases reads_separated_succ.mp (reads_list.mp h) with ⟨hClose, _⟩ | ⟨_, x, t, _, hRest⟩
  · rw [hOpen] at hClose
    cases hClose
  · rcases hRest with ⟨_, hMore⟩ | ⟨_, _, hMore⟩
    · exact separated_keeps (· ≠ []) keeps (List.cons_ne_nil x []) hMore
    · exact separated_keeps (· ≠ []) keeps (List.cons_ne_nil x []) hMore

end Separated

variable {s s' : TokenStream}

/-- A reader of arguments refuses what would break their order. -/
theorem ordered_of_argument {before : List Argument} {a : Argument}
    (ordered : Argument.Ordered before) (h : Reads (argument before) s a s') :
    Argument.Ordered (before ++ [a]) := by
  rcases reads_argument.mp h with ⟨n, _, _, hNew, v, _, rfl, _⟩ | ⟨_, hUnnamed, v, _, rfl, _⟩
  · exact ordered_named ordered hNew v
  · exact ordered_positional ordered hUnnamed v

/-- A name or a call that is read has its arguments in order. -/
theorem admissible_of_segment {x : Step} (h : Reads segment s x s') :
    x.name?.isSome = true ∧ x.Admissible := by
  obtain ⟨n, _, ⟨_, args, t, hArguments, rfl, _⟩ | ⟨_, rfl, _⟩⟩ := reads_segment.mp h
  · exact ⟨rfl, list_keeps Argument.Ordered (fun _ _ _ _ ordered ha => ordered_of_argument ordered ha)
      ordered_nil hArguments⟩
  · exact ⟨rfl, trivial⟩

/-- A slice that is read has no step of zero. -/
theorem admissible_of_slice {start : Option Int64} {p : Position} {x : Step}
    (h : Reads (slice start p) s x s') : x.Admissible := by
  obtain ⟨_, stop, t, _, ⟨_, step, u, _, hMoves, rfl, _⟩ | ⟨_, rfl, _⟩⟩ := reads_slice.mp h
  · exact hMoves
  · exact Option.some_ne_none 0 ∘ Eq.symm

theorem admissible_of_subscript {x : Step} (h : ReadsSubscript s x s') : x.Admissible := by
  rcases h with ⟨i, _, hRead⟩ | ⟨_, hRead⟩
  · rcases reads_indexOrSlice.mp hRead with ⟨_, hSlice⟩ | ⟨_, rfl, _⟩
    · exact admissible_of_slice hSlice
    · trivial
  · exact admissible_of_slice hRead

/-- The loop over a chain adds admissible steps. The induction is on the fuel. -/
theorem admissible_of_steps {fuel : Nat} {before xs : List Step}
    (hBefore : ∀ x ∈ before, x.Admissible) (h : Reads (steps fuel before) s xs s') :
    (∃ more, xs = before ++ more) ∧ ∀ x ∈ xs, x.Admissible := by
  induction fuel generalizing before s with
  | zero => exact absurd h reads_unexpected
  | succ fuel ih =>
      have hStep {x : Step} {t : TokenStream} (admissible : x.Admissible)
          (hRest : Reads (steps fuel (before ++ [x])) t xs s') :
          (∃ more, xs = before ++ more) ∧ ∀ x ∈ xs, x.Admissible := by
        obtain ⟨⟨more, rfl⟩, hAll⟩ := ih
          (List.forall_mem_append.mpr ⟨hBefore, List.forall_mem_singleton.mpr admissible⟩) hRest
        exact ⟨⟨x :: more, by simp⟩, hAll⟩
      rcases reads_steps_succ.mp h with ⟨_, x, t, hRead, hRest⟩ |
        ⟨_, ⟨_, x, t, hRead, hRest⟩ | ⟨_, rfl, _⟩⟩
      · rcases reads_dottedStep.mp hRead with ⟨_, _, hSegment⟩ | hSubscript
        · exact hStep (admissible_of_segment hSegment).2 hRest
        · exact hStep (admissible_of_subscript hSubscript) hRest
      · obtain ⟨u, hSubscript, _⟩ := reads_bracketStep.mp hRead
        exact hStep (admissible_of_subscript hSubscript) hRest
      · exact ⟨⟨[], (List.append_nil _).symm⟩, hBefore⟩

/-- A chain that is read starts with a name and has admissible steps. -/
theorem shaped_of_chain {label : Option String} {chain : List Step} {p : Position}
    (h : Reads Reading.chain s chain s') : Head.Shaped ⟨label, chain, p⟩ := by
  obtain ⟨x, t, hSegment, hRest⟩ := reads_chain.mp h
  obtain ⟨hNamed, admissible⟩ := admissible_of_segment hSegment
  obtain ⟨⟨more, rfl⟩, hAll⟩ :=
    admissible_of_steps (List.forall_mem_singleton.mpr admissible) hRest
  exact ⟨⟨x, more, rfl, hNamed⟩, hAll⟩

/-- Whether a stream goes on with a body. -/
def Opens (s : TokenStream) : Prop :=
  s.current.token = .mark .leftBrace ∨ s.current.token = .mark .leftBracket

/-- A reader of what follows a head. After a head without alias and chain, a body follows. -/
def ShapesBody (body : Head → Reading Resource) : Prop :=
  ∀ inList h s r s', Reads (body h) s r s' → (h.Shaped ∨ (inList = true ∧ h.Empty) ∧ Opens s) →
    r.head = h ∧ r.Shaped inList

section Body

variable {body : Head → Reading Resource} {r : Resource}

/-- A resource that is read starts with a name, and its body is shaped. -/
theorem shaped_of_named (shapes : ShapesBody body) (inList : Bool) (h : Reads (named body) s r s') :
    Step.StartsNamed r.head.chain ∧ r.Shaped inList := by
  obtain ⟨label, t, _, chain, u, hChain, hBody⟩ := reads_named.mp h
  have hHead : Head.Shaped ⟨label, chain, s.current.position⟩ := shaped_of_chain hChain
  obtain ⟨hSame, hShaped⟩ := shapes inList _ u r s' hBody (.inl hHead)
  rw [hSame]
  exact ⟨hHead.named, hShaped⟩

/-- An item may start with its block, and then has no head. -/
theorem shaped_of_item (shapes : ShapesBody body) {before : List Resource}
    (h : Reads (item body before) s r s') :
    r.Shaped true ∧ (s.current.token.isName = true → Step.StartsNamed r.head.chain) := by
  rcases reads_item.mp h with ⟨hOpens, hBody⟩ | ⟨_, hNamed⟩
  · refine ⟨(shapes true _ s r s' hBody (.inr ⟨⟨rfl, rfl, rfl⟩, hOpens⟩)).2, fun hName => ?_⟩
    rcases hOpens with hOpens | hOpens
    · rw [hOpens] at hName
      cases hName
    · rw [hOpens] at hName
      cases hName
  · obtain ⟨hStarts, hShaped⟩ := shaped_of_named shapes true hNamed
    exact ⟨hShaped, fun _ => hStarts⟩

/-- Children of an object that have the shape of their place. -/
structure ShapedChildren (rs : List Resource) : Prop where
  keyed : ∀ r ∈ rs, r.key?.isSome = true
  keys : Resource.DistinctKeys rs
  parts : ∀ r ∈ rs, r.Shaped false

/-- No two children that are read share a key. -/
theorem shapedChildren_of_list (shapes : ShapesBody body) {children : List Resource}
    (h : Reads (list .rightBrace .commaOrBrace (child body)) s children s') :
    ShapedChildren children := by
  refine list_keeps ShapedChildren (fun before t r u hBefore hChild => ?_)
    ⟨fun _ hr => absurd hr List.not_mem_nil, .nil, fun _ hr => absurd hr List.not_mem_nil⟩ h
  obtain ⟨hNamed, hNew⟩ := reads_child.mp hChild
  obtain ⟨hStarts, hShaped⟩ := shaped_of_named shapes false hNamed
  exact ⟨List.forall_mem_append.mpr ⟨hBefore.keyed,
      List.forall_mem_singleton.mpr (Resource.isSome_key? hStarts)⟩,
    distinctKeys_concat hBefore.keys hNew,
    List.forall_mem_append.mpr ⟨hBefore.parts, List.forall_mem_singleton.mpr hShaped⟩⟩

theorem shaped_of_items (shapes : ShapesBody body) {items : List Resource}
    (h : Reads (list .rightBracket .commaOrBracket (item body)) s items s') :
    ∀ r ∈ items, r.Shaped true := by
  refine list_keeps (∀ r ∈ ·, r.Shaped true) (fun before t r u hBefore hItem => ?_)
    (fun _ hr => absurd hr List.not_mem_nil) h
  exact List.forall_mem_append.mpr
    ⟨hBefore, List.forall_mem_singleton.mpr (shaped_of_item shapes hItem).1⟩

end Body

/-- Every body that is read is shaped, at every depth. The induction is on the depth, as the
recursion is. -/
theorem shapesBody (depth : Nat) : ShapesBody (Reading.body depth) := by
  induction depth with
  | zero =>
      intro inList h s r s' hRead
      exact absurd hRead reads_unexpected
  | succ depth ih =>
      intro inList h s r s' hRead head
      rcases reads_body_succ.mp hRead with ⟨_, hSome, items, t, hItems, rfl, rfl⟩ |
        ⟨hBracket, ⟨_, children, t, hChildren, rfl, rfl⟩ | ⟨hBrace, rfl, rfl⟩⟩
      · exact ⟨rfl, .list (head.imp_right And.left) (list_ne_nil hSome hItems)
          (shaped_of_items ih hItems)⟩
      · obtain ⟨hKeyed, hKeys, hParts⟩ := shapedChildren_of_list ih hChildren
        exact ⟨rfl, .object (head.imp_right And.left) hKeyed hKeys hParts⟩
      · rcases head with hShaped | ⟨_, hOpens | hOpens⟩
        · exact ⟨rfl, .field hShaped⟩
        · exact absurd (Token.isMark_iff.mpr hOpens) (Bool.not_eq_true _ ▸ hBrace)
        · exact absurd (Token.isMark_iff.mpr hOpens) (Bool.not_eq_true _ ▸ hBracket)

/-- Whatever tokens a query is read from, its tree is shaped. -/
theorem shaped_of_query {q : Query} (h : Reads query s q s') : q.Shaped := by
  obtain ⟨chain, t, hChain, _, children, u, hChildren, _, rfl, _⟩ := reads_query.mp h
  obtain ⟨hKeyed, hKeys, hParts⟩ := shapedChildren_of_list (shapesBody _) hChildren
  exact ⟨rfl, shaped_of_chain hChain, hKeyed, hKeys, hParts⟩

end Reading

theorem Head.WellFormed.names {h : Head} (wellFormed : h.WellFormed) :
    (∀ n ∈ h.names, Token.IsIdentifier n) ∧ ∀ x, Literal.float x ∈ h.literals → x.isFinite = true := by
  constructor
  · intro n hn
    rcases List.mem_append.mp hn with hLabel | hSteps
    · exact wellFormed.label n (Option.mem_toList.mp hLabel)
    · obtain ⟨s, hs, hName⟩ := List.mem_flatMap.mp hSteps
      rcases List.mem_append.mp hName with hStep | hArgument
      · exact (wellFormed.steps s hs).name n (Option.mem_toList.mp hStep)
      · obtain ⟨a, ha, hArgument⟩ := List.mem_filterMap.mp hArgument
        exact ((wellFormed.steps s hs).arguments a ha).name n hArgument
  · intro x hx
    obtain ⟨s, hs, hLiteral⟩ := List.mem_flatMap.mp hx
    obtain ⟨a, ha, hValue⟩ := List.mem_map.mp hLiteral
    have hWellFormed := ((wellFormed.steps s hs).arguments a ha).value
    rw [hValue] at hWellFormed
    exact hWellFormed

theorem Head.Empty.names {h : Head} (empty : h.Empty) : h.names = [] ∧ h.literals = [] := by
  obtain ⟨hLabel, hChain⟩ := empty
  rw [Head.names, Head.literals, hLabel, hChain]
  exact ⟨rfl, rfl⟩

/-- The names of a resource that can be written are identifiers, and its floats are finite. -/
theorem Resource.WellFormed.names {inList : Bool} {r : Resource} (h : r.WellFormed inList) :
    (∀ n ∈ r.head.names, Token.IsIdentifier n) ∧
      ∀ x, Literal.float x ∈ r.head.literals → x.isFinite = true := by
  have hHead : r.head.WellFormed ∨ r.head.Empty := by
    cases h with
    | field head => exact .inl head
    | list head => exact head.imp_right And.right
    | object head => exact head.imp_right And.right
  rcases hHead with hHead | hEmpty
  · exact hHead.names
  · rw [hEmpty.names.1, hEmpty.names.2]
    exact ⟨fun _ hn => absurd hn List.not_mem_nil, fun _ hx => absurd hx List.not_mem_nil⟩

/-- Whatever is read as a query is well shaped at every depth, whichever tokens it is read from. An
item of a list that starts with a name has a chain that does. From the tokens of a text, moreover, all
names that are read are names of the language and all floats are finite. -/
theorem readQuery_shaped {ts : Tokens} {q : Query} (h : (TokenStream.ofList ts).readQuery.1 = .ok q) :
    q.Shaped ∧
      (∀ depth before s r s', Reads (item (Reading.body depth) before) s r s' →
        s.current.token.isName = true → Step.StartsNamed r.head.chain) ∧
      ∀ text, tokens text = .ok ts → ∀ r ∈ q.nodes,
        (∀ n ∈ r.head.names, Token.IsIdentifier n) ∧
          ∀ x, Literal.float x ∈ r.head.literals → x.isFinite = true := by
  refine ⟨shaped_of_query (Prod.ext h rfl),
    fun depth before s r s' hItem => (shaped_of_item (shapesBody depth) hItem).2, ?_⟩
  intro text hText r hr
  have hQuery : Query.ofText text = .ok q := by
    rw [Query.ofText, hText]
    exact h
  obtain ⟨inList, hNode⟩ := (wellFormed_of_ofText hQuery).root.nodes r hr
  exact hNode.names

theorem readQuery_shaped_firstTask :
    (TokenStream.ofList firstTaskTokens).readQuery.1 = .ok firstTaskQuery ∧ firstTaskQuery.Shaped := by
  have hRead : (TokenStream.ofList firstTaskTokens).readQuery.1 = .ok firstTaskQuery :=
    (readQuery_ok_iff_derives (by simp [firstTaskTokens]) firstTaskQuery).mpr
      ⟨derives_firstTask, firstTaskQuery_admissible⟩
  exact ⟨hRead, (readQuery_shaped hRead).1⟩

end GatedQuery
