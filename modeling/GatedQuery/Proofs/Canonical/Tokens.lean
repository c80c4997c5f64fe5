import GatedQuery.Proofs.Canonical.WellFormed
import GatedQuery.Proofs.Grammar.Basic
import GatedQuery.Proofs.Query.Unplaced
import GatedQuery.Query.Canonical
import Mathlib.Data.List.Forall2

/-! The tokens of a text that is written for a tree. A style says how chains are written; the rest is
written as in a canonical text. Whatever the places of the tokens are, the grammar derives the tree
from them, up to the places of its steps and resources. -/

namespace GatedQuery

def Literal.token : Literal → Token
  | .null => .name "null"
  | .boolean b => .name (if b then "true" else "false")
  | .integer n => .integer n
  | .float x => .float x
  | .string s => .string s

def Token.separated : List (List Token) → List Token
  | [] => []
  | [ts] => ts
  | ts :: us :: rest => ts ++ .mark .comma :: separated (us :: rest)

def Argument.tokens : Argument → List Token
  | .positional v => [v.token]
  | .named n v => [.name n, .mark .colon, v.token]

namespace Step

def boundTokens : Option Int64 → List Token
  | none => []
  | some n => [.integer n]

/-- The tokens of the step of a slice, with the colon before it. -/
def strideTokens : Option Int64 → List Token
  | none => []
  | some n => [.mark .colon, .integer n]

/-- The tokens of an index or a slice, without brackets; a step with a name has none. -/
def subscriptTokens : Step → List Token
  | .index i _ => [.integer i]
  | .slice start stop step _ =>
    boundTokens start ++ .mark .colon :: (boundTokens stop ++ strideTokens step)
  | _ => []

def tokens : Step → List Token
  | .member n _ => [.name n]
  | .call n args _ =>
    .name n :: .mark .leftParen :: (Token.separated (args.map Argument.tokens) ++ [.mark .rightParen])
  | s => .mark .leftBracket :: (s.subscriptTokens ++ [.mark .rightBracket])

theorem tokens_of_unnamed {s : Step} (unnamed : s.name?.isSome = false) :
    s.tokens = .mark .leftBracket :: (s.subscriptTokens ++ [.mark .rightBracket]) := by
  cases s with
  | member n p => cases unnamed
  | call n args p => cases unnamed
  | index i p => rfl
  | slice start stop step p => rfl

def tailTokens : List Step → List Token
  | [] => []
  | s :: ss => (if s.name?.isSome then [.mark .dot] else []) ++ s.tokens ++ tailTokens ss

def chainTokens : List Step → List Token
  | [] => []
  | s :: ss => s.tokens ++ tailTokens ss

end Step

/-- A way to write chains: the text of a chain, and the tokens that the text is made of. -/
structure ChainStyle where
  text : List Step → String
  tokens : List Step → List Token

namespace ChainStyle

/-- The way of canonical texts, with indexes and slices in brackets. -/
def canonical : ChainStyle :=
  ⟨Step.canonicalChain, Step.chainTokens⟩

variable (style : ChainStyle)

def headText (h : Head) : String :=
  (match h.label with
    | some a => a ++ ": "
    | none => "") ++ style.text h.chain

mutual

def resourceText : Resource → String
  | .field h => style.headText h
  | .list h body => style.headText h ++ "[" ++ listText body ++ "]"
  | .object h children =>
    style.headText h ++ (if h.chain.isEmpty then "" else " ")
      ++ (if children.isEmpty then "\x7b\x7d" else "\x7b " ++ listText children ++ " \x7d")

/-- The texts of resources, with a comma and a blank between them. -/
def listText : List Resource → String
  | [] => ""
  | [r] => resourceText r
  | r :: s :: rs => resourceText r ++ ", " ++ listText (s :: rs)

end

def queryText (q : Query) : String :=
  style.resourceText q.root

def headTokens (h : Head) : List Token :=
  (match h.label with
    | some n => [.name n, .mark .colon]
    | none => []) ++ style.tokens h.chain

mutual

def blockTokens : Resource → List Token
  | .field _ => []
  | .list _ body => .mark .leftBracket :: (listTokens body ++ [.mark .rightBracket])
  | .object _ children => .mark .leftBrace :: (listTokens children ++ [.mark .rightBrace])

def listTokens : List Resource → List Token
  | [] => []
  | [r] => style.headTokens r.head ++ blockTokens r
  | r :: s :: rs => style.headTokens r.head ++ blockTokens r ++ .mark .comma :: listTokens (s :: rs)

end

def resourceTokens (r : Resource) : List Token :=
  style.headTokens r.head ++ style.blockTokens r

/-- The tokens of a query, up to the end of the input. -/
def queryTokens (q : Query) : List Token :=
  style.resourceTokens q.root ++ [.endOfInput]

theorem listText_eq_commaSeparated (rs : List Resource) :
    style.listText rs = Text.commaSeparated (rs.map style.resourceText) := by
  induction rs with
  | nil => rfl
  | cons r rs ih =>
      cases rs with
      | nil => rfl
      | cons s rs =>
          rw [listText, ih]
          rfl

theorem listTokens_eq_separated (rs : List Resource) :
    style.listTokens rs = Token.separated (rs.map style.resourceTokens) := by
  induction rs with
  | nil => rfl
  | cons r rs ih =>
      cases rs with
      | nil => rfl
      | cons s rs =>
          rw [listTokens, ih]
          rfl

end ChainStyle

/-- The tokens of the canonical text of a query, up to the end of the input. -/
def Query.tokens (q : Query) : List Token :=
  ChainStyle.canonical.queryTokens q

namespace Grammar

def bare (ts : Tokens) : List Token :=
  ts.map PlacedToken.token

/-- Tokens that begin with a kind begin with a placed token of this kind. -/
theorem bare_eq_cons {ts : Tokens} {k : Token} {us : List Token} (h : bare ts = k :: us) :
    ∃ p rest, ts = ⟨k, p⟩ :: rest ∧ bare rest = us := by
  obtain ⟨⟨_, p⟩, rest, rfl, rfl, rfl⟩ := List.map_eq_cons_iff.mp h
  exact ⟨p, rest, rfl, rfl⟩

/-- A derivation of a list from derivations of its items. -/
theorem exists_separated {α : Type} {item : Tokens → Tokens → α → Prop} {close : Mark}
    {tokensOf : α → List Token} {R : α → α → Prop} {xs : List α}
    (items : ∀ x ∈ xs, ∀ ts us, bare ts = tokensOf x ++ us →
      ∃ rest y, bare rest = us ∧ item ts rest y ∧ R x y) {ts : Tokens} {us : List Token}
    (h : bare ts = Token.separated (xs.map tokensOf) ++ .mark close :: us) :
    ∃ rest ys, bare rest = us ∧ Separated item close ts rest ys ∧ List.Forall₂ R xs ys := by
  induction xs generalizing ts with
  | nil =>
      obtain ⟨p, rest, rfl, hRest⟩ := bare_eq_cons h
      exact ⟨rest, [], hRest, .nil, .nil⟩
  | cons x xs ih =>
      obtain ⟨hx, hxs⟩ := List.forall_mem_cons.mp items
      cases xs with
      | nil =>
          obtain ⟨rest, y, hEnd, hItem, hy⟩ := hx ts _ h
          obtain ⟨p, rest, rfl, hRest⟩ := bare_eq_cons hEnd
          exact ⟨rest, [y], hRest, .last hItem, .cons hy .nil⟩
      | cons z zs =>
          have hFirst : bare ts = tokensOf x ++ (.mark .comma ::
              (Token.separated ((z :: zs).map tokensOf) ++ .mark close :: us)) := by
            rw [h]
            simp [Token.separated]
          obtain ⟨rest, y, hComma, hItem, hy⟩ := hx ts _ hFirst
          obtain ⟨p, rest, rfl, hMore⟩ := bare_eq_cons hComma
          obtain ⟨rest, ys, hRest, hList, hys⟩ := ih hxs hMore
          exact ⟨rest, y :: ys, hRest, .cons hItem hList, .cons hy hys⟩

/-- A literal is derived from its own token. -/
theorem isLiteral_token (v : Literal) : IsLiteral v.token v := by
  cases v with
  | null => exact .null (by decide)
  | boolean b =>
      cases b with
      | true => exact .true rfl
      | false => exact .false rfl
  | integer n => exact .integer
  | float x => exact .float
  | string s => exact .string

/-- The tokens of an argument derive it, and leave what follows them. -/
theorem exists_argument (a : Argument) {ts : Tokens} {us : List Token}
    (h : bare ts = a.tokens ++ us) : ∃ rest b, bare rest = us ∧ IsArgument ts rest b ∧ a = b := by
  cases a with
  | positional v =>
      obtain ⟨p, rest, rfl, hRest⟩ := bare_eq_cons h
      exact ⟨rest, _, hRest, .positional (isLiteral_token v), rfl⟩
  | named n v =>
      obtain ⟨p, rest, rfl, hSign⟩ := bare_eq_cons h
      obtain ⟨q, rest, rfl, hValue⟩ := bare_eq_cons hSign
      obtain ⟨r, rest, rfl, hRest⟩ := bare_eq_cons hValue
      exact ⟨rest, _, hRest, .named (.inl rfl) (isLiteral_token v), rfl⟩

/-- The tokens of a name or a call derive it up to its place. -/
theorem exists_segment {s : Step} (named : s.name?.isSome = true) {ts : Tokens} {us : List Token}
    (h : bare ts = s.tokens ++ us) :
    ∃ rest s', bare rest = us ∧ Segment ts rest s' ∧ s'.unplaced = s.unplaced := by
  cases s with
  | member n p =>
      obtain ⟨p, rest, rfl, hRest⟩ := bare_eq_cons h
      exact ⟨rest, _, hRest, .member, rfl⟩
  | call n args p =>
      obtain ⟨p, rest, rfl, hOpen⟩ := bare_eq_cons h
      obtain ⟨q, rest, rfl, hInner⟩ := bare_eq_cons hOpen
      have hInner' : bare rest =
          Token.separated (args.map Argument.tokens) ++ .mark .rightParen :: us := by
        rw [hInner]
        simp
      obtain ⟨rest, args', hRest, hList, hArgs⟩ :=
        exists_separated (fun a _ _ _ => exists_argument a) hInner'
      rw [List.forall₂_eq_eq_eq] at hArgs
      subst hArgs
      exact ⟨rest, _, hRest, .call hList, rfl⟩
  | index i p => cases named
  | slice start stop step p => cases named

/-- The tokens of a bound derive it, also if there are none. -/
theorem exists_bound {b : Option Int64} {ts : Tokens} {us : List Token}
    (h : bare ts = Step.boundTokens b ++ us) : ∃ rest, bare rest = us ∧ Bound ts rest b := by
  cases b with
  | none => exact ⟨ts, h, .none⟩
  | some n =>
      obtain ⟨p, rest, rfl, hRest⟩ := bare_eq_cons h
      exact ⟨rest, hRest, .some⟩

theorem exists_stride {b : Option Int64} {ts : Tokens} {us : List Token}
    (h : bare ts = Step.strideTokens b ++ us) : ∃ rest, bare rest = us ∧ Stride ts rest b := by
  cases b with
  | none => exact ⟨ts, h, .none⟩
  | some n =>
      obtain ⟨p, rest, rfl, hBound⟩ := bare_eq_cons h
      obtain ⟨q, rest, rfl, hRest⟩ := bare_eq_cons hBound
      exact ⟨rest, hRest, .some .some⟩

/-- What stands in the brackets of an index or a slice. -/
theorem exists_subscript {s : Step} (unnamed : s.name?.isSome = false) {ts : Tokens}
    {us : List Token} (h : bare ts = s.subscriptTokens ++ us) :
    ∃ rest s', bare rest = us ∧ Subscript ts rest s' ∧ s'.unplaced = s.unplaced := by
  cases s with
  | member n p => cases unnamed
  | call n args p => cases unnamed
  | index i p =>
      obtain ⟨p, rest, rfl, hRest⟩ := bare_eq_cons h
      exact ⟨rest, _, hRest, .index, rfl⟩
  | slice start stop step p =>
      have hInner : bare ts = Step.boundTokens start ++ (.mark .colon ::
          (Step.boundTokens stop ++ (Step.strideTokens step ++ us))) := by
        rw [h]
        simp [Step.subscriptTokens]
      obtain ⟨rest, hColon, hFirst⟩ := exists_bound hInner
      obtain ⟨r, rest, rfl, hStop⟩ := bare_eq_cons hColon
      obtain ⟨rest, hStep, hSecond⟩ := exists_bound hStop
      obtain ⟨rest, hRest, hThird⟩ := exists_stride hStep
      cases ts with
      | nil => cases hFirst
      | cons t ts => exact ⟨rest, _, hRest, .slice hFirst hSecond hThird, rfl⟩

/-- The tokens of further steps derive these steps up to places. The induction is on the steps. -/
theorem exists_tail (ss : List Step) {ts : Tokens} {us : List Token}
    (h : bare ts = Step.tailTokens ss ++ us) :
    ∃ rest ss', bare rest = us ∧ Tail ts rest ss' ∧
      ss'.map Step.unplaced = ss.map Step.unplaced := by
  induction ss generalizing ts with
  | nil => exact ⟨ts, [], h, .nil, rfl⟩
  | cons s ss ih =>
      rw [Step.tailTokens] at h
      cases hNamed : s.name?.isSome with
      | true =>
          rw [hNamed, if_pos rfl, List.append_assoc, List.append_assoc] at h
          obtain ⟨p, rest, rfl, hStep⟩ := bare_eq_cons h
          obtain ⟨rest, s', hMore, hSegment, hs⟩ := exists_segment hNamed hStep
          obtain ⟨rest, ss', hRest, hTail, hss⟩ := ih hMore
          refine ⟨rest, s' :: ss', hRest, .named hSegment hTail, ?_⟩
          rw [List.map_cons, List.map_cons, hs, hss]
      | false =>
          rw [hNamed, if_neg (by decide), List.nil_append, List.append_assoc,
            Step.tokens_of_unnamed hNamed, List.cons_append, List.append_assoc] at h
          obtain ⟨p, inner, rfl, hInner⟩ := bare_eq_cons h
          obtain ⟨rest, s', hClose, hSubscript, hs⟩ := exists_subscript hNamed hInner
          obtain ⟨q, rest, rfl, hMore⟩ := bare_eq_cons hClose
          obtain ⟨rest, ss', hRest, hTail, hss⟩ := ih hMore
          refine ⟨rest, s' :: ss', hRest, .bracket hSubscript hTail, ?_⟩
          rw [List.map_cons, List.map_cons, hs, hss]

/-- The tokens of a chain derive it up to places. -/
theorem exists_chain {ss : List Step} (named : Step.StartsNamed ss) {ts : Tokens} {us : List Token}
    (h : bare ts = Step.chainTokens ss ++ us) :
    ∃ rest ss', bare rest = us ∧ Chain ts rest ss' ∧
      ss'.map Step.unplaced = ss.map Step.unplaced := by
  obtain ⟨s, ss, rfl, hNamed⟩ := named
  rw [Step.chainTokens, List.append_assoc] at h
  obtain ⟨rest, s', hTail, hSegment, hs⟩ := exists_segment hNamed h
  obtain ⟨rest, ss', hRest, hSteps, hss⟩ := exists_tail ss hTail
  refine ⟨rest, s' :: ss', hRest, .cons hSegment hSteps, ?_⟩
  rw [List.map_cons, List.map_cons, hs, hss]

/-- A style whose tokens derive the chains that they are written for. -/
structure DerivesChains (style : ChainStyle) : Prop where
  nil : style.tokens [] = []
  chain : ∀ {ss : List Step}, Step.StartsNamed ss → ∀ {ts : Tokens} {us : List Token},
    bare ts = style.tokens ss ++ us → ∃ rest ss', bare rest = us ∧ Chain ts rest ss' ∧
      ss'.map Step.unplaced = ss.map Step.unplaced

/-- The canonical tokens of a chain derive the chain. -/
theorem canonical_derives : DerivesChains .canonical :=
  ⟨rfl, exists_chain⟩

section

variable {style : ChainStyle} (derives : DerivesChains style)

include derives

/-- The tokens of a head derive it up to places. -/
theorem exists_head {h : Head} (named : Step.StartsNamed h.chain) {ts : Tokens} {us : List Token}
    (hTokens : bare ts = style.headTokens h ++ us) :
    ∃ t tail rest h', ts = t :: tail ∧ bare rest = us ∧ IsHead ts rest h' ∧
      h'.unplaced = h.unplaced := by
  obtain ⟨label, steps, p⟩ := h
  cases label with
  | none =>
      obtain ⟨rest, steps', hRest, hChain, hSteps⟩ := derives.chain named hTokens
      cases ts with
      | nil =>
          cases hChain with
          | cons head _ => cases head
      | cons t ts =>
          refine ⟨t, ts, rest, _, rfl, hRest, .plain hChain, ?_⟩
          simp only [Head.unplaced, hSteps]
  | some n =>
      obtain ⟨p, rest, rfl, hColon⟩ := bare_eq_cons hTokens
      obtain ⟨q, rest, rfl, hTail⟩ := bare_eq_cons hColon
      obtain ⟨rest, steps', hRest, hChain, hSteps⟩ := derives.chain named hTail
      refine ⟨_, _, rest, _, rfl, hRest, .labelled hChain, ?_⟩
      simp only [Head.unplaced, hSteps]

/-- The tokens of a block derive the resource under every head that differs in places alone. -/
def DerivesBlock (style : ChainStyle) (r : Resource) : Prop :=
  ∀ {ts : Tokens} {us : List Token} {h : Head}, style.blockTokens r ≠ [] →
    bare ts = style.blockTokens r ++ us → h.unplaced = r.head.unplaced →
      ∃ rest r', bare rest = us ∧ Block ts rest h r' ∧ r'.unplaced = r.unplaced

/-- The tokens of a resource derive it up to places if those of its block do. -/
theorem DerivesBlock.named {r : Resource} (blocks : DerivesBlock style r)
    (named : Step.StartsNamed r.head.chain) {ts : Tokens} {us : List Token}
    (h : bare ts = style.resourceTokens r ++ us) :
    ∃ rest r', bare rest = us ∧ Named Block ts rest r' ∧ r'.unplaced = r.unplaced := by
  rw [ChainStyle.resourceTokens, List.append_assoc] at h
  obtain ⟨t, tail, rest, h', rfl, hBlock, hHead, hUnplaced⟩ := exists_head derives named h
  have hNamed (some : style.blockTokens r ≠ []) : ∃ rest r', bare rest = us ∧
      Named Block (t :: tail) rest r' ∧ r'.unplaced = r.unplaced := by
    obtain ⟨rest, r', hRest, hInner, hr⟩ := blocks some hBlock hUnplaced
    exact ⟨rest, r', hRest, .block hHead hInner, hr⟩
  cases r with
  | field head =>
      refine ⟨rest, .field h', hBlock, .field hHead, ?_⟩
      rw [Resource.unplaced, Resource.unplaced, hUnplaced]
      rfl
  | list head body => exact hNamed (List.cons_ne_nil _ _)
  | object head children => exact hNamed (List.cons_ne_nil _ _)

omit derives in
theorem map_unplaced_of_forall₂ {rs ss : List Resource}
    (h : List.Forall₂ (fun r s => s.unplaced = r.unplaced) rs ss) :
    Resource.unplacedAll ss = Resource.unplacedAll rs := by
  induction h with
  | nil => rfl
  | cons head _ ih => rw [Resource.unplacedAll, Resource.unplacedAll, head, ih]

/-- The tokens of children derive these children, one after another. -/
theorem exists_children {children : List Resource}
    (parts : ∀ r ∈ children, r.WellFormed false) (blocks : ∀ r ∈ children, DerivesBlock style r)
    {ts : Tokens} {us : List Token}
    (h : bare ts = style.listTokens children ++ .mark .rightBrace :: us) :
    ∃ rest children', bare rest = us ∧ Separated (Named Block) .rightBrace ts rest children' ∧
      Resource.unplacedAll children' = Resource.unplacedAll children := by
  rw [ChainStyle.listTokens_eq_separated] at h
  obtain ⟨rest, children', hRest, hList, hParts⟩ := exists_separated
    (fun r hr _ _ hTokens =>
      DerivesBlock.named derives (blocks r hr) (parts r hr).startsNamed hTokens) h
  exact ⟨rest, children', hRest, hList, map_unplaced_of_forall₂ hParts⟩

/-- The tokens of an item derive it, also without a head. -/
theorem DerivesBlock.item {r : Resource} (blocks : DerivesBlock style r) (wellFormed : r.WellFormed true)
    {ts : Tokens} {us : List Token} (h : bare ts = style.resourceTokens r ++ us) :
    ∃ rest r', bare rest = us ∧ Item Block ts rest r' ∧ r'.unplaced = r.unplaced := by
  have hNamed (named : Step.StartsNamed r.head.chain) :
      ∃ rest r', bare rest = us ∧ Item Block ts rest r' ∧ r'.unplaced = r.unplaced := by
    obtain ⟨rest, r', hRest, hDerived, hr⟩ := DerivesBlock.named derives blocks named h
    exact ⟨rest, r', hRest, .named hDerived, hr⟩
  have hBare (some : style.blockTokens r ≠ []) (empty : r.head.Empty) :
      ∃ rest r', bare rest = us ∧ Item Block ts rest r' ∧ r'.unplaced = r.unplaced := by
    obtain ⟨hLabel, hChain⟩ := empty
    have hHead : style.headTokens r.head = [] := by
      rw [ChainStyle.headTokens, hLabel, hChain, derives.nil]
      rfl
    rw [ChainStyle.resourceTokens, hHead, List.nil_append] at h
    cases ts with
    | nil => exact absurd (List.append_eq_nil_iff.mp h.symm).1 some
    | cons t ts =>
        have hUnplaced : Head.unplaced ⟨none, [], t.position⟩ = r.head.unplaced := by
          rw [Head.unplaced, Head.unplaced, hLabel, hChain]
        obtain ⟨rest, r', hRest, hBlock, hr⟩ := blocks some h hUnplaced
        exact ⟨rest, r', hRest, .bare hBlock, hr⟩
  cases wellFormed with
  | field head => exact hNamed head.named
  | list head =>
      rcases head with head | ⟨_, empty⟩
      · exact hNamed head.named
      · exact hBare (by simp [ChainStyle.blockTokens]) empty
  | object head =>
      rcases head with head | ⟨_, empty⟩
      · exact hNamed head.named
      · exact hBare (by simp [ChainStyle.blockTokens]) empty

/-- The tokens of every block derive it up to places. The induction is on the tree. -/
theorem derivesBlock {inList : Bool} {r : Resource} (wellFormed : r.WellFormed inList) :
    DerivesBlock style r := by
  induction r using Resource.induct generalizing inList with
  | field h => exact fun some => absurd rfl some
  | list head body ih =>
      cases wellFormed with
      | list _ hBody parts =>
          intro ts us h _ hTokens hHead
          obtain ⟨p, ts, rfl, hInner⟩ := bare_eq_cons hTokens
          have hInner' : bare ts =
              Token.separated (body.map style.resourceTokens) ++ .mark .rightBracket :: us := by
            rw [hInner, ← ChainStyle.listTokens_eq_separated]
            simp
          obtain ⟨rest, body', hRest, hList, hParts⟩ := exists_separated
            (fun r hr _ _ h => DerivesBlock.item derives (ih r hr (parts r hr)) (parts r hr) h) hInner'
          have hSome : body' ≠ [] := by
            rintro rfl
            cases hParts
            exact hBody rfl
          refine ⟨rest, .list h body', hRest, .list hSome hList, ?_⟩
          rw [Resource.unplaced, Resource.unplaced, hHead, map_unplaced_of_forall₂ hParts]
          rfl
  | object head children ih =>
      cases wellFormed with
      | object _ keys parts =>
          intro ts us h _ hTokens hHead
          obtain ⟨p, ts, rfl, hInner⟩ := bare_eq_cons hTokens
          have hInner' : bare ts = style.listTokens children ++ .mark .rightBrace :: us := by
            rw [hInner]
            simp
          obtain ⟨rest, children', hRest, hList, hUnplaced⟩ :=
            exists_children derives parts (fun r hr => ih r hr (parts r hr)) hInner'
          refine ⟨rest, .object h children', hRest, .object hList, ?_⟩
          rw [Resource.unplaced, Resource.unplaced, hHead, hUnplaced]
          rfl

/-- Tokens of a well-formed query derive the query, whatever their places are. -/
theorem exists_query {q : Query} (wellFormed : q.WellFormed) {ts : Tokens}
    (h : bare ts = style.queryTokens q) : ∃ q', IsQuery ts q' ∧ q'.unplaced = q.unplaced := by
  have hTokens : bare ts = style.tokens q.head.chain ++ (.mark .leftBrace ::
      (style.listTokens q.children ++ .mark .rightBrace :: [.endOfInput])) := by
    rw [h, ChainStyle.queryTokens, Query.root, ChainStyle.resourceTokens, Resource.head,
      ChainStyle.headTokens, wellFormed.label, ChainStyle.blockTokens]
    simp
  obtain ⟨rest, steps, hOpen, hChain, hSteps⟩ := derives.chain wellFormed.head.named hTokens
  obtain ⟨p, rest, rfl, hInner⟩ := bare_eq_cons hOpen
  obtain ⟨rest, children, hEnd, hList, hChildren⟩ := exists_children derives wellFormed.parts
    (fun r hr => derivesBlock derives (wellFormed.parts r hr)) hInner
  obtain ⟨r, rest, rfl, hNone⟩ := bare_eq_cons hEnd
  obtain rfl := List.map_eq_nil_iff.mp hNone
  cases ts with
  | nil =>
      cases hChain with
      | cons head _ => cases head
  | cons t ts =>
      refine ⟨_, .mk hChain hList, ?_⟩
      simp only [Query.unplaced, Head.unplaced, hSteps, hChildren, wellFormed.label]

end

end Grammar

end GatedQuery
