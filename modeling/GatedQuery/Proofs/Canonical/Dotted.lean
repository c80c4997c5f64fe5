import GatedQuery.Proofs.Canonical.Execution
import GatedQuery.Proofs.Canonical.Floats
import GatedQuery.Proofs.Canonical.Joined

/-! Indexes and slices behind dots. A text with every index and every slice behind a dot is read as
the query that it is written for, up to places, exactly if no slice ends with a number that a number
follows: with the dot between them the two are one float, and the query has no such float. -/

namespace GatedQuery

/-- The way to write chains with all steps behind dots. -/
def ChainStyle.dotted : ChainStyle :=
  ⟨Step.dottedChain, Step.dottedChainTokens⟩

/-- The same way to write chains, with the tokens that every chain written so is made of. -/
def ChainStyle.joined : ChainStyle :=
  ⟨Step.dottedChain, Step.joinedChain⟩

/-- The canonical text of a query but with every index and every slice behind a dot. -/
def Query.dotted (q : Query) : String :=
  ChainStyle.dotted.queryText q

/-- No chain of the query has two numbers that a dot would join. -/
def Query.Apart (q : Query) : Prop :=
  ∀ n ∈ q.nodes, Step.Apart n.head.chain

instance (q : Query) : Decidable q.Apart :=
  inferInstanceAs (Decidable (∀ n ∈ q.nodes, Step.Apart n.head.chain))

namespace Grammar

/-- The dotted tokens of further steps derive these steps. The induction is on the steps. -/
theorem exists_dottedTail (ss : List Step) {ts : Tokens} {us : List Token}
    (h : bare ts = Step.dottedTailTokens ss ++ us) :
    ∃ rest ss', bare rest = us ∧ Tail ts rest ss' ∧
      ss'.map Step.unplaced = ss.map Step.unplaced := by
  induction ss generalizing ts with
  | nil => exact ⟨ts, [], h, .nil, rfl⟩
  | cons s ss ih =>
      rw [Step.dottedTailTokens, List.cons_append, List.append_assoc] at h
      obtain ⟨p, rest, rfl, hStep⟩ := bare_eq_cons h
      cases hNamed : s.name?.isSome with
      | true =>
          rw [Step.dottedTokens_of_named hNamed] at hStep
          obtain ⟨rest, s', hMore, hSegment, hs⟩ := exists_segment hNamed hStep
          obtain ⟨rest, ss', hRest, hTail, hss⟩ := ih hMore
          refine ⟨rest, s' :: ss', hRest, .named hSegment hTail, ?_⟩
          rw [List.map_cons, List.map_cons, hs, hss]
      | false =>
          rw [Step.dottedTokens_of_unnamed hNamed] at hStep
          obtain ⟨rest, s', hMore, hSubscript, hs⟩ := exists_subscript hNamed hStep
          obtain ⟨rest, ss', hRest, hTail, hss⟩ := ih hMore
          refine ⟨rest, s' :: ss', hRest, .dotted hSubscript hTail, ?_⟩
          rw [List.map_cons, List.map_cons, hs, hss]

/-- The dotted tokens of a chain derive the chain. -/
theorem dotted_derives : DerivesChains .dotted := by
  refine ⟨rfl, fun {ss} named ts us h => ?_⟩
  obtain ⟨s, ss, rfl, hNamed⟩ := named
  have hChain : bare ts = s.tokens ++ (Step.dottedTailTokens ss ++ us) := by
    rw [h, ← List.append_assoc]
    rfl
  obtain ⟨rest, s', hTail, hSegment, hs⟩ := exists_segment hNamed hChain
  obtain ⟨rest, ss', hRest, hSteps, hss⟩ := exists_dottedTail ss hTail
  refine ⟨rest, s' :: ss', hRest, .cons hSegment hSteps, ?_⟩
  rw [List.map_cons, List.map_cons, hs, hss]

end Grammar

/-- The dotted text of a chain spells its joined tokens, whatever its steps are. -/
theorem joined_spelled : ChainStyle.joined.Spelled fun _ => True := by
  refine ⟨⟨rfl, rfl⟩, fun {ss} named wellFormed hText _ => ?_⟩
  obtain ⟨s, ss, rfl, hNamed⟩ := named
  obtain ⟨hs, hss⟩ := List.forall_mem_cons.mp wellFormed
  obtain ⟨hsText, hssText⟩ := List.forall_mem_cons.mp hText
  have hWritten : (ChainStyle.joined.text (s :: ss)).toList =
      s.canonical.toList ++ (Step.dottedTail ss).toList := String.toList_append
  rw [hWritten]
  exact (spells_segment hs hNamed hsText).append (spells_joinedTail none hss hssText)
    fun rest hRest => endsName_dottedTail ss hRest

/-- If no dot stands between two numbers, these are the dotted tokens. -/
theorem dotted_spelled : ChainStyle.dotted.Spelled Step.Apart := by
  refine ⟨⟨rfl, rfl⟩, fun {ss} named wellFormed hText apart => ?_⟩
  have hTokens : ChainStyle.dotted.tokens ss = ChainStyle.joined.tokens ss :=
    (Step.joinedChain_of_apart named apart).symm
  rw [hTokens]
  exact joined_spelled.chain named wellFormed hText trivial

/-- The text of a resource does not depend on the tokens of a style. -/
theorem ChainStyle.resourceText_congr (text : List Step → String)
    (tokens tokens' : List Step → List Token) (r : Resource) :
    ChainStyle.resourceText ⟨text, tokens⟩ r = ChainStyle.resourceText ⟨text, tokens'⟩ r := by
  have hParts {parts : List Resource} (ih : ∀ r ∈ parts,
      ChainStyle.resourceText ⟨text, tokens⟩ r = ChainStyle.resourceText ⟨text, tokens'⟩ r) :
      ChainStyle.listText ⟨text, tokens⟩ parts = ChainStyle.listText ⟨text, tokens'⟩ parts := by
    rw [listText_eq_commaSeparated, listText_eq_commaSeparated, List.map_congr_left ih]
  induction r using Resource.induct with
  | field h => rfl
  | list h body ih =>
      rw [resourceText, hParts ih]
      rfl
  | object h children ih =>
      rw [resourceText, hParts ih]
      rfl

/-- The text has the float of every two numbers that a dot joins. -/
theorem scans_dotted {q : Query} (wellFormed : q.WellFormed) :
    Scans false q.dotted.toList (ChainStyle.joined.queryTokens q) := by
  have hScans := scans_query joined_spelled wellFormed wellFormed.readsBack fun _ _ => trivial
  have hText : q.dotted = ChainStyle.joined.queryText q := ChainStyle.resourceText_congr _ _ _ q.root
  rwa [hText]

namespace Step

theorem floats_arguments (args : List Argument) :
    Token.floats (Token.separated (args.map Argument.tokens)) =
      Literal.floats (args.map Argument.value) := by
  have hArgument (a : Argument) : Token.floats a.tokens = Literal.floats [a.value] := by
    cases a with
    | positional v => exact v.floats_token
    | named n v => exact v.floats_token
  rw [Token.floats_separated, List.map_map, List.map_eq_flatMap (f := Argument.value)]
  simp only [Function.comp_def, hArgument]
  exact List.countP_flatMap.symm

/-- A step has a float token for each of its float literals. -/
theorem floats_tokens (s : Step) : Token.floats s.tokens = Literal.floats s.literals := by
  cases s with
  | member n p => rfl
  | call n args p =>
      rw [tokens, Token.floats_cons_of_not rfl, Token.floats_cons_of_not rfl, Token.floats_append,
        floats_arguments]
      rfl
  | index i p => rfl
  | slice start stop step p => cases start <;> cases stop <;> cases step <;> rfl

theorem floats_betweenTokens (s : Step) :
    Token.floats s.betweenTokens = Literal.floats s.literals := by
  cases s with
  | member n p => exact floats_tokens (.member n p)
  | call n args p => exact floats_tokens (.call n args p)
  | index i p => rfl
  | slice start stop step p => cases stop <;> cases step <;> rfl

/-- Joining numbers to floats loses no float of the steps. -/
theorem le_floats_joinedTail (before : Option Int64) (ss : List Step) :
    Literal.floats (ss.flatMap literals) ≤ Token.floats (joinedTail before ss) := by
  induction ss generalizing before with
  | nil => exact Nat.zero_le _
  | cons s ss ih =>
      have hMore := ih s.trailing
      rw [joinedTail, Token.floats_append, Token.floats_append, floats_betweenTokens,
        List.flatMap_cons, Literal.floats_append]
      omega

/-- Where a dot does join two numbers, there is one float more than in the steps. -/
theorem lt_floats_joinedTail {s : Step} {ss : List Step} (joined : ¬ Apart (s :: ss)) :
    Literal.floats (ss.flatMap literals) < Token.floats (joinedTail s.trailing ss) := by
  induction ss generalizing s with
  | nil => exact absurd (List.isChain_singleton _) joined
  | cons t ss ih =>
      rw [joinedTail, Token.floats_append, Token.floats_append, floats_betweenTokens,
        List.flatMap_cons, Literal.floats_append]
      rw [Apart, List.isChain_cons_cons, not_and_or] at joined
      rcases joined with hHere | hBelow
      · have hMore := le_floats_joinedTail t.trailing ss
        have hFloat : Token.floats (dotTokens s.trailing t.leading) = 1 := by
          rw [dotTokens]
          cases hJoined : joined? s.trailing t.leading with
          | some x => rfl
          | none => exact absurd ((joined?_eq_none_iff _ _).mp hJoined) hHere
        omega
      · have hMore := ih hBelow
        omega

end Step

/-- A chain has at least the floats of its literals. -/
theorem le_floats_joined (chain : List Step) :
    Literal.floats (chain.flatMap Step.literals) ≤ Token.floats (Step.joinedChain chain) := by
  cases chain with
  | nil => exact Nat.zero_le _
  | cons s ss =>
      rw [Step.joinedChain, Token.floats_append, Step.floats_tokens, List.flatMap_cons,
        Literal.floats_append]
      exact Nat.add_le_add_left (Step.le_floats_joinedTail none ss) _

/-- A chain with numbers that a dot joins has a float more. -/
theorem lt_floats_joined {chain : List Step} (named : Step.StartsNamed chain)
    (joined : ¬ Step.Apart chain) :
    Literal.floats (chain.flatMap Step.literals) < Token.floats (Step.joinedChain chain) := by
  obtain ⟨s, ss, rfl, hNamed⟩ := named
  have hTail := Step.lt_floats_joinedTail joined
  rw [Step.trailing_of_named hNamed] at hTail
  rw [Step.joinedChain, Token.floats_append, Step.floats_tokens, List.flatMap_cons,
    Literal.floats_append]
  exact Nat.add_lt_add_left hTail _

/-- A resource without a head has no steps. -/
theorem Resource.WellFormed.startsNamed_or {inList : Bool} {r : Resource} (h : r.WellFormed inList) :
    Step.StartsNamed r.head.chain ∨ r.head.chain = [] := by
  cases h with
  | field head => exact .inl head.named
  | list head | object head => exact head.imp Head.WellFormed.named fun empty => empty.2.2

/-- Dots and brackets are interchangeable in a query exactly if no dot would join two of its numbers.
When every index and every slice of its canonical text is put behind a dot, the text is read as the
query, up to places, or else it is not. -/
theorem ofText_dotted {s : String} {q : Query} (h : Query.ofText s = .ok q) :
    (∃ q', Query.ofText q.dotted = .ok q' ∧ q'.unplaced = q.unplaced) ↔ q.Apart := by
  have hWellFormed := wellFormed_of_ofText h
  constructor
  · rintro ⟨q', hRead, hUnplaced⟩
    by_contra hJoined
    obtain ⟨placed, hTokens, hBare⟩ := tokens_of_scans (scans_dotted hWellFormed)
    obtain ⟨ts, hTokens', hDerived, _⟩ := exists_tokens_of_ofText hRead
    obtain rfl : placed = ts := by
      rw [hTokens] at hTokens'
      cases hTokens'
      rfl
    have hSame : Token.floats (ChainStyle.joined.queryTokens q) = Literal.floats q.literals := by
      rw [← hBare, ← Query.literals_congr hUnplaced]
      exact hDerived.floats
    refine (ChainStyle.joined.lt_floats_queryTokens (fun n _ => le_floats_joined n.head.chain) ?_).ne'
      hSame
    rw [Query.Apart, not_forall₂] at hJoined
    obtain ⟨n, hn, hChain⟩ := hJoined
    obtain ⟨_, hNode⟩ := hWellFormed.root.nodes n hn
    rcases hNode.startsNamed_or with hNamed | hEmpty
    · exact ⟨n, hn, lt_floats_joined hNamed hChain⟩
    · rw [hEmpty] at hChain
      exact absurd List.IsChain.nil hChain
  · intro apart
    exact ofText_of_style Grammar.dotted_derives hWellFormed
      (scans_query dotted_spelled hWellFormed hWellFormed.readsBack apart)

/-- A text with indexes and slices in both spellings, each slice apart from what follows it. -/
def pagedRows : String :=
  "Table(2.5) \x7b page: rows[1:20:-2].-3.cells(2.5)[4:][0], last: grid.0.1[::-1] [ id ] \x7d"

theorem ofText_dotted_pagedRows :
    ∃ q, Query.ofText pagedRows = .ok q ∧ q.Apart ∧
      ∃ q', Query.ofText q.dotted = .ok q' ∧ q'.unplaced = q.unplaced := by
  have hRead : (match Query.ofText pagedRows with
      | .ok q => decide q.Apart
      | .error _ => false) = true := by decide +kernel
  cases hQuery : Query.ofText pagedRows with
  | error e =>
      rw [hQuery] at hRead
      cases hRead
  | ok q =>
      rw [hQuery] at hRead
      have apart : q.Apart := of_decide_eq_true hRead
      exact ⟨q, rfl, apart, (ofText_dotted hQuery).mpr apart⟩

/-- The index behind the slice of this query begins with a digit, so the dotted text has the float
`2.3`, and it is not read at all. -/
theorem not_ofText_dotted_float :
    ∃ q, Query.ofText "User \x7b x: items[1:2][3] \x7d" = .ok q ∧
      q.dotted = "User \x7b x: items.1:2.3 \x7d" ∧
      ¬ ∃ q', Query.ofText q.dotted = .ok q' ∧ q'.unplaced = q.unplaced := by
  have hRead : (match Query.ofText "User \x7b x: items[1:2][3] \x7d" with
      | .ok q => decide (q.dotted = "User \x7b x: items.1:2.3 \x7d")
      | .error _ => false) = true := by decide +kernel
  have hDotted : (Query.ofText "User \x7b x: items.1:2.3 \x7d").isOk = false := by decide +kernel
  cases hQuery : Query.ofText "User \x7b x: items[1:2][3] \x7d" with
  | error e =>
      rw [hQuery] at hRead
      cases hRead
  | ok q =>
      rw [hQuery] at hRead
      have hText : q.dotted = "User \x7b x: items.1:2.3 \x7d" := of_decide_eq_true hRead
      refine ⟨q, rfl, hText, ?_⟩
      rintro ⟨q', hOk, _⟩
      rw [← hText, hOk] at hDotted
      cases hDotted

end GatedQuery
