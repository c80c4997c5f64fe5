import GatedQuery.Proofs.Grammar.Completeness

/-! No tokens have two trees. Two derivations of one kind from the same tokens give the same tree and
leave the same tokens, provided that neither of them stops before a token that could continue it. This
is a fact about the grammar alone: trees that a reader refuses are unique as well. -/

namespace GatedQuery

open Reading TokenStream

namespace Grammar

/-- Derivations from the same tokens agree if each of them leaves tokens of which `ends` holds. -/
def Unique {α : Type} (derives : Tokens → Tokens → α → Prop) (ends : Tokens → Prop) : Prop :=
  ∀ ts us vs x y, derives ts us x → derives ts vs y → ends us → ends vs → x = y ∧ us = vs

/-- What follows an item of a list: a comma or the end of the list. -/
def ItemEnds (close : Mark) (us : Tokens) : Prop :=
  ∃ u rest, us = u :: rest ∧ (u.token = .mark close ∨ u.token = .mark .comma)

theorem itemEnds_close (close : Mark) (p : Position) (rest : Tokens) :
    ItemEnds close (⟨.mark close, p⟩ :: rest) :=
  ⟨_, rest, rfl, .inl rfl⟩

theorem itemEnds_comma (close : Mark) (p : Position) (rest : Tokens) :
    ItemEnds close (⟨.mark .comma, p⟩ :: rest) :=
  ⟨_, rest, rfl, .inr rfl⟩

section Separated

variable {α : Type} {item : Tokens → Tokens → α → Prop} {close : Mark}

/-- Tokens give one list at most: an item ends at a comma or at the closing mark, and none starts
with the closing mark. -/
theorem Separated.unique (hClose : close ≠ .comma)
    (opens : ∀ x v us vs, item (v :: us) vs x → v.token.isMark close = false)
    {ts rest rest' : Tokens} {xs ys : List α}
    (items : ∀ x ∈ xs, ∀ us vs ws y, item us vs x → item us ws y → ItemEnds close vs →
      ItemEnds close ws → x = y ∧ vs = ws)
    (h : Separated item close ts rest xs) (h' : Separated item close ts rest' ys) :
    xs = ys ∧ rest = rest' := by
  have hOpens (p : Position) (us vs : Tokens) (x : α)
      (hItem : item (⟨.mark close, p⟩ :: us) vs x) : False := by
    have hNot := opens x _ us vs hItem
    simp [Token.isMark] at hNot
  induction h generalizing ys with
  | nil =>
      cases h' with
      | nil => exact ⟨rfl, rfl⟩
      | last head => exact (hOpens _ _ _ _ head).elim
      | cons head _ => exact (hOpens _ _ _ _ head).elim
  | @last ts rest p x head =>
      have hx := items x List.mem_cons_self ts
      cases h' with
      | nil => exact (hOpens _ _ _ _ head).elim
      | last head' =>
          obtain ⟨rfl, hRest⟩ := hx _ _ _ head head' (itemEnds_close ..) (itemEnds_close ..)
          cases hRest
          exact ⟨rfl, rfl⟩
      | cons head' _ =>
          obtain ⟨_, hRest⟩ := hx _ _ _ head head' (itemEnds_close ..) (itemEnds_comma ..)
          cases hRest
          exact absurd rfl hClose
  | @cons ts us rest p x xs head tail ih =>
      have hx := items x List.mem_cons_self ts
      cases h' with
      | nil => exact (hOpens _ _ _ _ head).elim
      | last head' =>
          obtain ⟨_, hRest⟩ := hx _ _ _ head head' (itemEnds_comma ..) (itemEnds_close ..)
          cases hRest
          exact absurd rfl hClose
      | cons head' tail' =>
          obtain ⟨rfl, hRest⟩ := hx _ _ _ head head' (itemEnds_comma ..) (itemEnds_comma ..)
          cases hRest
          obtain ⟨rfl, rfl⟩ := ih (fun y hy => items y (List.mem_cons_of_mem x hy)) tail'
          exact ⟨rfl, rfl⟩

end Separated

/-- A token is one literal at most. -/
theorem isLiteral_unique {t : Token} {v w : Literal} (h : IsLiteral t v) (h' : IsLiteral t w) :
    v = w :=
  Option.some.inj ((literal?_eq_some_iff.mpr h).symm.trans (literal?_eq_some_iff.mpr h'))

/-- What follows an item is no sign, so that a name that is followed by one is the name of an
argument. -/
theorem ItemEnds.not_sign {close : Mark} (hColon : close ≠ .colon) (hEquals : close ≠ .equals)
    {sign : PlacedToken} {us : Tokens} (h : ItemEnds close (sign :: us)) :
    ¬ (sign.token = .mark .colon ∨ sign.token = .mark .equals) := by
  obtain ⟨_, _, hCons, hToken⟩ := h
  cases hCons
  rcases hToken with hToken | hToken <;> simp [hToken, hColon, hEquals]

/-- Tokens give one argument at most: a word is a name if a sign follows it, and a literal
otherwise. -/
theorem isArgument_unique : Unique IsArgument (ItemEnds .rightParen) := by
  intro ts us vs a b h h' hUs hVs
  cases h with
  | positional value =>
      cases h' with
      | positional value' => exact ⟨by rw [isLiteral_unique value value'], rfl⟩
      | named marked => exact absurd marked (hUs.not_sign (by decide) (by decide))
  | named marked value =>
      cases h' with
      | positional => exact absurd marked (hVs.not_sign (by decide) (by decide))
      | named _ value' => exact ⟨by rw [isLiteral_unique value value'], rfl⟩

/-- What is left does not continue a step. -/
def StepEnds (us : Tokens) : Prop :=
  ∃ u rest, us = u :: rest ∧ EndsStep u.token

/-- Tokens give one name or call at most: a parenthesis behind a name belongs to it. -/
theorem segment_unique : Unique Segment StepEnds := by
  intro ts us vs s t h h' hUs hVs
  cases h with
  | member =>
      cases h' with
      | member => exact ⟨rfl, rfl⟩
      | call =>
          obtain ⟨_, _, hCons, hEnd⟩ := hUs
          cases hCons
          cases hEnd.paren
  | call arguments =>
      cases h' with
      | member =>
          obtain ⟨_, _, hCons, hEnd⟩ := hVs
          cases hCons
          cases hEnd.paren
      | call arguments' =>
          obtain ⟨rfl, rfl⟩ := arguments.unique (by decide) (fun _ _ _ _ => isArgument_opens)
            (fun a _ us vs ws b => isArgument_unique us vs ws a b) arguments'
          exact ⟨rfl, rfl⟩

/-- What is left starts with no integer. -/
def NoInteger (us : Tokens) : Prop :=
  ∀ i p rest, us ≠ ⟨.integer i, p⟩ :: rest

theorem noInteger_mark (m : Mark) (p : Position) (rest : Tokens) :
    NoInteger (⟨.mark m, p⟩ :: rest) :=
  fun _ _ _ h => nomatch h

theorem StepEnds.noInteger {us : Tokens} (h : StepEnds us) : NoInteger us := by
  rintro i p rest rfl
  obtain ⟨_, _, hCons, hEnd⟩ := h
  cases hCons
  exact hEnd.integer i rfl

/-- Tokens give one bound at most if no number is left behind it. -/
theorem bound_unique : Unique Bound NoInteger := by
  intro ts us vs b c h h' hUs hVs
  cases h with
  | none =>
      cases h' with
      | none => exact ⟨rfl, rfl⟩
      | some => exact absurd rfl (hUs _ _ _)
  | some =>
      cases h' with
      | none => exact absurd rfl (hVs _ _ _)
      | some => exact ⟨rfl, rfl⟩

/-- A colon continues a slice. -/
theorem StepEnds.not_colon {p : Position} {us : Tokens} (h : StepEnds (⟨.mark .colon, p⟩ :: us)) :
    False := by
  obtain ⟨_, _, hCons, hEnd⟩ := h
  cases hCons
  cases hEnd.colon

/-- Tokens give one step of a slice at most. -/
theorem stride_unique : Unique Stride StepEnds := by
  intro ts us vs b c h h' hUs hVs
  cases h with
  | none =>
      cases h' with
      | none => exact ⟨rfl, rfl⟩
      | some => exact hUs.not_colon.elim
  | some bound =>
      cases h' with
      | none => exact hVs.not_colon.elim
      | some bound' => exact bound_unique _ _ _ _ _ bound bound' hUs.noInteger hVs.noInteger

/-- Before the step of a slice stands no number that could be the bound before it. -/
theorem Stride.noInteger {ts rest : Tokens} {b : Option Int64} (h : Stride ts rest b)
    (hRest : StepEnds rest) : NoInteger ts := by
  cases h with
  | none => exact hRest.noInteger
  | some => exact noInteger_mark _ _ _

/-- Tokens give one index or slice at most. -/
theorem subscript_unique : Unique Subscript StepEnds := by
  intro ts us vs s t h h' hUs hVs
  cases h with
  | index =>
      cases h' with
      | index => exact ⟨rfl, rfl⟩
      | slice first =>
          cases first
          exact hUs.not_colon.elim
  | slice first second third =>
      cases h' with
      | index =>
          cases first
          exact hVs.not_colon.elim
      | slice first' second' third' =>
          obtain ⟨rfl, hCons⟩ :=
            bound_unique _ _ _ _ _ first first' (noInteger_mark _ _ _) (noInteger_mark _ _ _)
          cases hCons
          obtain ⟨rfl, rfl⟩ :=
            bound_unique _ _ _ _ _ second second' (third.noInteger hUs) (third'.noInteger hVs)
          obtain ⟨rfl, rfl⟩ := stride_unique _ _ _ _ _ third third' hUs hVs
          exact ⟨rfl, rfl⟩

def ChainEnds (us : Tokens) : Prop :=
  us ≠ [] ∧ EndsChain (ofTokens us)

/-- What ends a chain also ends its last step. -/
theorem ChainEnds.stepEnds {us : Tokens} (h : ChainEnds us) : StepEnds us := by
  obtain ⟨u, rest, rfl⟩ := List.exists_cons_of_ne_nil h.1
  exact ⟨u, rest, rfl, h.2.step⟩

/-- Further steps begin with a mark that ends the step before them. -/
theorem Tail.stepEnds {ts rest : Tokens} {ss : List Step} (h : Tail ts rest ss)
    (hRest : StepEnds rest) : StepEnds ts := by
  obtain ⟨u, rest, rfl, hEnd⟩ := hRest
  exact endsStep_of_tail h hEnd

/-- A dot continues a chain. -/
theorem ChainEnds.not_dot {p : Position} {us : Tokens} (h : ChainEnds (⟨.mark .dot, p⟩ :: us)) :
    False := by
  cases h.2.dot

/-- Brackets with an index or a slice continue a chain. -/
theorem ChainEnds.not_subscript {p : Position} {us rest : Tokens} {s : Step}
    (h : ChainEnds (⟨.mark .leftBracket, p⟩ :: us)) (hStep : Subscript us rest s) : False := by
  obtain ⟨t, us, rfl⟩ := List.exists_cons_of_ne_nil (ne_nil_of_length_lt hStep.length)
  have hOpens := h.2.subscript
  rw [ofTokens_cons_second, subscript_opens hStep, Bool.and_true] at hOpens
  cases hOpens

/-- Behind a dot, a name and an index start with different tokens. -/
theorem Subscript.not_segment {ts us vs : Tokens} {s t : Step} (h : Subscript ts us s)
    (h' : Segment ts vs t) : False := by
  cases h' with
  | member => cases h with
    | slice first => cases first
  | call => cases h with
    | slice first => cases first

theorem stepEnds_rightBracket (p : Position) (us : Tokens) :
    StepEnds (⟨.mark .rightBracket, p⟩ :: us) :=
  ⟨_, us, rfl, endsStep_mark (by decide) (by decide)⟩

/-- Tokens give one list of further steps at most. The induction is on the steps. -/
theorem tail_unique : Unique Tail ChainEnds := by
  intro ts us vs ss ss' h h' hUs hVs
  induction h generalizing ss' with
  | nil =>
      cases h' with
      | nil => exact ⟨rfl, rfl⟩
      | named => exact hUs.not_dot.elim
      | dotted => exact hUs.not_dot.elim
      | bracket head => exact (hUs.not_subscript head).elim
  | named head tail ih =>
      cases h' with
      | nil => exact hVs.not_dot.elim
      | named head' tail' =>
          obtain ⟨rfl, rfl⟩ := segment_unique _ _ _ _ _ head head' (tail.stepEnds hUs.stepEnds)
            (tail'.stepEnds hVs.stepEnds)
          obtain ⟨rfl, rfl⟩ := ih _ tail' hUs
          exact ⟨rfl, rfl⟩
      | dotted head' => exact (head'.not_segment head).elim
  | dotted head tail ih =>
      cases h' with
      | nil => exact hVs.not_dot.elim
      | named head' => exact (head.not_segment head').elim
      | dotted head' tail' =>
          obtain ⟨rfl, rfl⟩ := subscript_unique _ _ _ _ _ head head' (tail.stepEnds hUs.stepEnds)
            (tail'.stepEnds hVs.stepEnds)
          obtain ⟨rfl, rfl⟩ := ih _ tail' hUs
          exact ⟨rfl, rfl⟩
  | bracket head tail ih =>
      cases h' with
      | nil => exact (hVs.not_subscript head).elim
      | bracket head' tail' =>
          obtain ⟨rfl, hCons⟩ := subscript_unique _ _ _ _ _ head head' (stepEnds_rightBracket ..)
            (stepEnds_rightBracket ..)
          cases hCons
          obtain ⟨rfl, rfl⟩ := ih _ tail' hUs
          exact ⟨rfl, rfl⟩

/-- Tokens give one chain at most. -/
theorem chain_unique : Unique Chain ChainEnds := by
  intro ts us vs ss ss' h h' hUs hVs
  cases h with
  | cons head tail =>
      cases h' with
      | cons head' tail' =>
          obtain ⟨rfl, rfl⟩ := segment_unique _ _ _ _ _ head head' (tail.stepEnds hUs.stepEnds)
            (tail'.stepEnds hVs.stepEnds)
          obtain ⟨rfl, rfl⟩ := tail_unique _ _ _ _ _ tail tail' hUs hVs
          exact ⟨rfl, rfl⟩

/-- A chain does not start with an alias. -/
theorem Chain.not_labelled {n : String} {p q : Position} {ts us : Tokens} {ss : List Step}
    (h : Chain (⟨.name n, p⟩ :: ⟨.mark .colon, q⟩ :: ts) us ss) (hUs : StepEnds us) : False := by
  obtain ⟨u, rest, rfl, hEnd⟩ := hUs
  obtain ⟨_, _, hSecond⟩ := chain_starts h hEnd
  cases hSecond

/-- Tokens give one head at most: a colon behind the first name makes it an alias. -/
theorem isHead_unique : Unique IsHead ChainEnds := by
  intro ts us vs h h' hHead hHead' hUs hVs
  cases hHead with
  | plain steps =>
      cases hHead' with
      | plain steps' =>
          obtain ⟨rfl, rfl⟩ := chain_unique _ _ _ _ _ steps steps' hUs hVs
          exact ⟨rfl, rfl⟩
      | labelled => exact (steps.not_labelled hUs.stepEnds).elim
  | labelled steps =>
      cases hHead' with
      | plain steps' => exact (steps'.not_labelled hVs.stepEnds).elim
      | labelled steps' =>
          obtain ⟨rfl, rfl⟩ := chain_unique _ _ _ _ _ steps steps' hUs hVs
          exact ⟨rfl, rfl⟩

def ResourceEnds (us : Tokens) : Prop :=
  ∃ u rest, us = u :: rest ∧ EndsResource u.token

theorem ResourceEnds.chainEnds {us : Tokens} (h : ResourceEnds us) : ChainEnds us := by
  obtain ⟨u, rest, rfl, hEnd⟩ := h
  exact ⟨List.cons_ne_nil u rest, hEnd.endsChain rest⟩

/-- What ends a resource opens no block. -/
theorem ResourceEnds.not_block {us rest : Tokens} {h : Head} {r : Resource} (hUs : ResourceEnds us)
    (hBlock : Block us rest h r) : False := by
  obtain ⟨_, _, rfl, hEnd⟩ := hUs
  obtain ⟨_, _, hCons, hOpen⟩ := block_starts hBlock
  cases hCons
  rcases hOpen with hOpen | hOpen <;> simp [EndsResource, hOpen] at hEnd

/-- The opening mark of a block ends the chain before it, as no list starts with an index. -/
theorem Block.chainEnds {ts us : Tokens} {h : Head} {r : Resource} (hBlock : Block ts us h r)
    (hUs : us ≠ []) : ChainEnds ts := by
  obtain ⟨u, rest, rfl⟩ := List.exists_cons_of_ne_nil hUs
  exact ⟨ne_nil_of_length_lt hBlock.length, block_endsChain hBlock⟩

def UniqueBlocks (r : Resource) : Prop :=
  ∀ ts us vs h r', Block ts us h r → Block ts vs h r' → r = r' ∧ us = vs

/-- Tokens give one resource at most if they give one block at most. -/
theorem UniqueBlocks.named {r r' : Resource} (unique : UniqueBlocks r) {ts us vs : Tokens}
    (h : Named Block ts us r) (h' : Named Block ts vs r') (hUs : ResourceEnds us)
    (hVs : ResourceEnds vs) : r = r' ∧ us = vs := by
  have hUsNil : us ≠ [] := hUs.chainEnds.1
  have hVsNil : vs ≠ [] := hVs.chainEnds.1
  cases h with
  | field head =>
      cases h' with
      | field head' =>
          obtain ⟨rfl, rfl⟩ := isHead_unique _ _ _ _ _ head head' hUs.chainEnds hVs.chainEnds
          exact ⟨rfl, rfl⟩
      | block head' inner' =>
          obtain ⟨rfl, rfl⟩ :=
            isHead_unique _ _ _ _ _ head head' hUs.chainEnds (inner'.chainEnds hVsNil)
          exact (hUs.not_block inner').elim
  | block head inner =>
      cases h' with
      | field head' =>
          obtain ⟨rfl, rfl⟩ :=
            isHead_unique _ _ _ _ _ head head' (inner.chainEnds hUsNil) hVs.chainEnds
          exact (hVs.not_block inner).elim
      | block head' inner' =>
          obtain ⟨rfl, rfl⟩ := isHead_unique _ _ _ _ _ head head' (inner.chainEnds hUsNil)
            (inner'.chainEnds hVsNil)
          exact unique _ _ _ _ _ inner inner'

/-- A resource with a head does not start with a block. -/
theorem Named.not_block {ts us vs : Tokens} {h : Head} {r r' : Resource}
    (hNamed : Named Block ts us r) (hBlock : Block ts vs h r') : False := by
  obtain ⟨n, p, _, rfl⟩ := named_starts hNamed
  cases hBlock

/-- The same of an item of a list, which may be a block without a head. -/
theorem UniqueBlocks.item {r r' : Resource} (unique : UniqueBlocks r) {ts us vs : Tokens}
    (h : Item Block ts us r) (h' : Item Block ts vs r') (hUs : ResourceEnds us)
    (hVs : ResourceEnds vs) : r = r' ∧ us = vs := by
  cases h with
  | named resource =>
      cases h' with
      | named resource' => exact unique.named resource resource' hUs hVs
      | bare resource' => exact (resource.not_block resource').elim
  | bare resource =>
      cases h' with
      | named resource' => exact (resource'.not_block resource).elim
      | bare resource' => exact unique _ _ _ _ _ resource resource'

/-- What ends an item of a block also ends a resource. -/
theorem ItemEnds.resourceEnds {close : Mark} (hClose : close = .rightBracket ∨ close = .rightBrace)
    {us : Tokens} (h : ItemEnds close us) : ResourceEnds us := by
  obtain ⟨u, rest, rfl, hToken⟩ := h
  refine ⟨u, rest, rfl, ?_⟩
  rcases hToken with hToken | hToken
  · rcases hClose with rfl | rfl
    · exact .inr (.inl hToken)
    · exact .inr (.inr hToken)
  · exact .inl hToken

theorem named_opens {v : PlacedToken} {us vs : Tokens} {r : Resource}
    (h : Named Block (v :: us) vs r) : v.token.isMark .rightBrace = false := by
  obtain ⟨n, p, _, hCons⟩ := named_starts h
  cases hCons
  rfl

/-- Tokens give one list of children at most. -/
theorem children_unique {children children' : List Resource}
    (unique : ∀ r ∈ children, UniqueBlocks r) {ts us vs : Tokens}
    (h : Separated (Named Block) .rightBrace ts us children)
    (h' : Separated (Named Block) .rightBrace ts vs children') : children = children' ∧ us = vs :=
  h.unique (by decide) (fun _ _ _ _ => named_opens)
    (fun r hr _ _ _ _ hNamed hNamed' hUs hVs => (unique r hr).named hNamed hNamed'
      (hUs.resourceEnds (.inr rfl)) (hVs.resourceEnds (.inr rfl))) h'

/-- Tokens give one block at most. The induction is on one of the two trees. -/
theorem uniqueBlocks (r : Resource) : UniqueBlocks r := by
  induction r using Resource.induct with
  | field =>
      intro ts us vs h r' hBlock
      cases hBlock
  | list _ items ih =>
      intro ts us vs h r' hBlock hBlock'
      cases hBlock with
      | list _ inner =>
          cases hBlock' with
          | list _ inner' =>
              obtain ⟨rfl, rfl⟩ := inner.unique (by decide)
                (fun _ _ _ _ hItem => (item_starts hItem).1)
                (fun r hr _ _ _ _ hItem hItem' hUs hVs => (ih r hr).item hItem hItem'
                  (hUs.resourceEnds (.inl rfl)) (hVs.resourceEnds (.inl rfl))) inner'
              exact ⟨rfl, rfl⟩
  | object _ children ih =>
      intro ts us vs h r' hBlock hBlock'
      cases hBlock with
      | object inner =>
          cases hBlock' with
          | object inner' =>
              obtain ⟨rfl, rfl⟩ := children_unique ih inner inner'
              exact ⟨rfl, rfl⟩

theorem chainEnds_leftBrace (p : Position) (us : Tokens) :
    ChainEnds (⟨.mark .leftBrace, p⟩ :: us) :=
  ⟨List.cons_ne_nil _ us, endsStep_mark (by decide) (by decide), rfl, rfl⟩

/-- Tokens are derived as at most one query. -/
theorem isQuery_unique {ts : Tokens} {q q' : Query} (h : IsQuery ts q) (h' : IsQuery ts q') :
    q = q' := by
  cases h with
  | mk steps inner =>
      cases h' with
      | mk steps' inner' =>
          obtain ⟨rfl, hCons⟩ := chain_unique _ _ _ _ _ steps steps' (chainEnds_leftBrace _ _)
            (chainEnds_leftBrace _ _)
          cases hCons
          obtain ⟨rfl, _⟩ := children_unique (fun r _ => uniqueBlocks r) inner inner'
          rfl

end Grammar

end GatedQuery
