import GatedQuery.Proofs.Canonical.Spelling
import GatedQuery.Proofs.Grammar.Completeness
import GatedQuery.Proofs.Query.Unplaced

/-! Reading a canonical text gives the query back that it was written for, up to the places of its
steps and resources. -/

namespace GatedQuery

/-- Whether a step is admissible does not depend on its place. -/
theorem Step.admissible_unplaced (s : Step) : s.unplaced.Admissible ↔ s.Admissible := by
  cases s <;> exact Iff.rfl

/-- Whether keys are distinct does not depend on places. -/
theorem Resource.distinctKeys_unplaced (children : List Resource) :
    DistinctKeys (unplacedAll children) ↔ DistinctKeys children := by
  have hKeys : (unplacedAll children).filterMap key? = children.filterMap key? := by
    rw [unplacedAll_eq_map, List.filterMap_map]
    exact congrArg (List.filterMap · children) (funext key?_unplaced)
  rw [DistinctKeys, hKeys, DistinctKeys]

theorem Head.admissible_unplaced (h : Head) :
    (∀ s ∈ h.unplaced.chain, s.Admissible) ↔ ∀ s ∈ h.chain, s.Admissible := by
  simp only [Head.unplaced, List.forall_mem_map, Step.admissible_unplaced]

/-- Whether a resource is admissible does not depend on places. The induction is on the tree. -/
theorem Resource.admissible_unplaced (r : Resource) : r.unplaced.Admissible ↔ r.Admissible := by
  have hParts {parts : List Resource} (ih : ∀ r ∈ parts, (r.unplaced.Admissible ↔ r.Admissible)) :
      (∀ r ∈ unplacedAll parts, r.Admissible) ↔ ∀ r ∈ parts, r.Admissible := by
    rw [unplacedAll_eq_map, List.forall_mem_map]
    exact forall₂_congr ih
  induction r using Resource.induct with
  | field h =>
      constructor
      · rintro ⟨steps⟩
        exact .field (h.admissible_unplaced.mp steps)
      · rintro ⟨steps⟩
        exact .field (h.admissible_unplaced.mpr steps)
  | list h body ih =>
      constructor
      · rintro ⟨⟩
        exact .list (h.admissible_unplaced.mp ‹_›) ((hParts ih).mp ‹_›)
      · rintro ⟨⟩
        exact .list (h.admissible_unplaced.mpr ‹_›) ((hParts ih).mpr ‹_›)
  | object h children ih =>
      constructor
      · rintro ⟨⟩
        exact .object (h.admissible_unplaced.mp ‹_›) ((distinctKeys_unplaced children).mp ‹_›)
          ((hParts ih).mp ‹_›)
      · rintro ⟨⟩
        exact .object (h.admissible_unplaced.mpr ‹_›) ((distinctKeys_unplaced children).mpr ‹_›)
          ((hParts ih).mpr ‹_›)

theorem Query.admissible_root (q : Query) : q.root.Admissible ↔ q.Admissible := by
  constructor
  · rintro ⟨⟩
    exact ⟨‹_›, ‹_›, ‹_›⟩
  · rintro ⟨steps, keys, parts⟩
    exact .object steps keys parts

/-- Queries that are the same up to places are admissible alike. -/
theorem Query.admissible_congr {q q' : Query} (h : q'.unplaced = q.unplaced) :
    q'.Admissible ↔ q.Admissible := by
  have hRoot : q'.root.unplaced = q.root.unplaced := congrArg Query.root h
  rw [← Query.admissible_root, ← Resource.admissible_unplaced, hRoot, Resource.admissible_unplaced,
    Query.admissible_root]

theorem Head.WellFormed.admissible {h : Head} (wellFormed : h.WellFormed) :
    ∀ s ∈ h.chain, s.Admissible :=
  fun s hs => (wellFormed.steps s hs).admissible

theorem Head.admissible_of_anyHead {inList : Bool} {h : Head}
    (head : h.WellFormed ∨ inList = true ∧ h.Empty) : ∀ s ∈ h.chain, s.Admissible := by
  rcases head with wellFormed | ⟨_, _, hChain⟩
  · exact wellFormed.admissible
  · rw [hChain]
    exact fun s hs => absurd hs List.not_mem_nil

/-- What can be written is admissible, at every depth of the tree. -/
theorem Resource.WellFormed.admissible {inList : Bool} {r : Resource} (h : r.WellFormed inList) :
    r.Admissible := by
  induction h with
  | field head => exact .field head.admissible
  | list head _ _ ih => exact .list (Head.admissible_of_anyHead head) ih
  | object head keys _ ih => exact .object (Head.admissible_of_anyHead head) keys ih

/-- A query that can be written is one that a reader accepts. -/
theorem Query.WellFormed.admissible {q : Query} (h : q.WellFormed) : q.Admissible :=
  ⟨h.head.admissible, h.keys, fun r hr => (h.parts r hr).admissible⟩

/-- Reading a text is scanning it and reading the tokens. -/
theorem ofText_of_tokens {s : String} {placed : Tokens} (hTokens : tokens s = .ok placed) :
    Query.ofText s = (TokenStream.ofTokens placed).readQuery.1 := by
  obtain ⟨_, before, p, rfl, _⟩ := tokens_ok hTokens
  rw [Query.ofText, hTokens, ← TokenStream.ofList_ended]

/-- A text that splits into the tokens of a query, in a style that derives its chains, is the query,
up to places. -/
theorem ofText_of_style {style : ChainStyle} (derives : Grammar.DerivesChains style) {q : Query}
    (wellFormed : q.WellFormed) {s : String} (h : Scans false s.toList (style.queryTokens q)) :
    ∃ q', Query.ofText s = .ok q' ∧ q'.unplaced = q.unplaced := by
  obtain ⟨placed, hTokens, hBare⟩ := tokens_of_scans h
  obtain ⟨q', hDerived, hUnplaced⟩ := Grammar.exists_query derives wellFormed hBare
  have hAdmissible : q'.Admissible := (Query.admissible_congr hUnplaced).mpr wellFormed.admissible
  obtain ⟨rest, hReads⟩ := Reading.reads_query_of hDerived hAdmissible
  refine ⟨q', ?_, hUnplaced⟩
  rw [ofText_of_tokens hTokens]
  exact congrArg Prod.fst hReads

/-- A text that is scanned as the tokens of a query is read as this query, up to places. -/
theorem ofText_of_scans {q : Query} (wellFormed : q.WellFormed) {s : String}
    (h : Scans false s.toList q.tokens) : ∃ q', Query.ofText s = .ok q' ∧ q'.unplaced = q.unplaced :=
  ofText_of_style Grammar.canonical_derives wellFormed h

/-- Reading undoes writing: the canonical text of every well-formed query is read as the query, and
only places can differ. -/
theorem ofText_canonical {q : Query} (wellFormed : q.WellFormed)
    (hText : ∀ v ∈ q.literals, v.ReadsBack) :
    ∃ q', Query.ofText q.canonical = .ok q' ∧ q'.unplaced = q.unplaced :=
  ofText_of_scans wellFormed (scans_canonical wellFormed hText)

/-- The query `Board(limit: 2.5) { tasks[{ id }] }`. -/
def boardTasks : Query where
  head := ⟨none, [.call "Board" [.named "limit" (.float 2.5)] .start], .start⟩
  children := [.list ⟨none, [.member "tasks" .start], .start⟩
    [.object ⟨none, [], .start⟩ [.field ⟨none, [.member "id" .start], .start⟩]]]

/-- The names of the query are identifiers, its float is finite and its keys are distinct. -/
theorem boardTasks_wellFormed : boardTasks.WellFormed := by
  have hBoard : Token.IsIdentifier "Board" :=
    Token.isIdentifier_of_toList rfl (by decide) (by decide)
  have hLimit : Token.IsIdentifier "limit" :=
    Token.isIdentifier_of_toList rfl (by decide) (by decide)
  have hTasks : Token.IsIdentifier "tasks" :=
    Token.isIdentifier_of_toList rfl (by decide) (by decide)
  have hId : Token.IsIdentifier "id" := Token.isIdentifier_of_toList rfl (by decide) (by decide)
  have hMember {n : String} (hn : Token.IsIdentifier n) :
      Head.WellFormed ⟨none, [.member n .start], .start⟩ := by
    refine ⟨fun _ h => (nomatch h), ⟨_, _, rfl, rfl⟩, List.forall_mem_singleton.mpr ⟨?_, ?_, trivial⟩⟩
    · rintro _ ⟨⟩
      exact hn
    · exact fun a ha => absurd ha List.not_mem_nil
  have hArguments : Argument.Ordered [.named "limit" (.float 2.5)] :=
    ⟨List.pairwise_singleton _ _, List.pairwise_singleton _ _⟩
  have hChild : Resource.WellFormed true
      (.object ⟨none, [], .start⟩ [.field ⟨none, [.member "id" .start], .start⟩]) :=
    .object (.inr ⟨rfl, rfl, rfl⟩) (List.pairwise_singleton _ _)
      (List.forall_mem_singleton.mpr (.field (hMember hId)))
  refine ⟨rfl, ⟨fun _ h => (nomatch h), ⟨_, _, rfl, rfl⟩, List.forall_mem_singleton.mpr ⟨?_, ?_, ?_⟩⟩,
    List.pairwise_singleton _ _, List.forall_mem_singleton.mpr ?_⟩
  · rintro _ ⟨⟩
    exact hBoard
  · have hFinite : (2.5 : Float).isFinite = true := by decide +kernel
    refine List.forall_mem_singleton.mpr ⟨?_, hFinite⟩
    rintro _ ⟨⟩
    exact hLimit
  · exact hArguments
  · exact .list (.inl (hMember hTasks)) (List.cons_ne_nil _ _) (List.forall_mem_singleton.mpr hChild)

theorem readsBack_twoAndAHalf : (Literal.float 2.5).ReadsBack :=
  ⟨⟨none, ['2'], some ['5'], none⟩, by decide +kernel, rfl, by decide +kernel⟩

theorem ofText_canonical_boardTasks :
    boardTasks.WellFormed ∧ (∀ v ∈ boardTasks.literals, v.ReadsBack) ∧
      ∃ q', Query.ofText boardTasks.canonical = .ok q' ∧ q'.unplaced = boardTasks.unplaced := by
  have hText : ∀ v ∈ boardTasks.literals, v.ReadsBack :=
    List.forall_mem_singleton.mpr readsBack_twoAndAHalf
  exact ⟨boardTasks_wellFormed, hText, ofText_canonical boardTasks_wellFormed hText⟩

end GatedQuery
