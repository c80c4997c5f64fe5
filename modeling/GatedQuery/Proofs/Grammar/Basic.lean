import GatedQuery.Query.Reading

/-! The grammar of queries over placed tokens. A derivation relates the tokens in front of it and the
tokens that it leaves to the tree that it gives, with the place of the first token of every step and
resource. Nothing is said here about what a query must not repeat: those conditions are on the tree
alone. -/

namespace GatedQuery

abbrev Tokens := List PlacedToken

/-- Tokens that end with the end of the input, and have it nowhere else. -/
def Ended (ts : Tokens) : Prop :=
  ∃ before p, ts = before ++ [⟨.endOfInput, p⟩] ∧ ∀ t ∈ before, t.token ≠ .endOfInput

namespace Ended

/-- The end of the input is a token, so that there is always a first one. -/
theorem exists_cons {ts : Tokens} (h : Ended ts) : ∃ t us, ts = t :: us := by
  obtain ⟨before, p, rfl, _⟩ := h
  exact List.exists_cons_of_ne_nil (List.append_ne_nil_of_right_ne_nil _ (List.cons_ne_nil _ _))

/-- Dropping a token keeps the end, unless it is the end that is dropped. -/
theorem tail {t : PlacedToken} {us : Tokens} (h : Ended (t :: us)) (some : t.token ≠ .endOfInput) :
    Ended us := by
  obtain ⟨before, p, hAll, hBefore⟩ := h
  cases before with
  | nil =>
      cases hAll
      exact absurd rfl some
  | cons u before =>
      cases hAll
      exact ⟨before, p, rfl, fun v hv => hBefore v (List.mem_cons_of_mem _ hv)⟩

end Ended

namespace Grammar

/-- Items up to the mark `close`, with commas between them and perhaps before the mark. -/
inductive Separated {α : Type} (item : Tokens → Tokens → α → Prop) (close : Mark) :
    Tokens → Tokens → List α → Prop where
  | nil {p : Position} {rest : Tokens} : Separated item close (⟨.mark close, p⟩ :: rest) rest []
  | last {ts rest : Tokens} {p : Position} {x : α} (head : item ts (⟨.mark close, p⟩ :: rest) x) :
      Separated item close ts rest [x]
  | cons {ts us rest : Tokens} {p : Position} {x : α} {xs : List α}
      (head : item ts (⟨.mark .comma, p⟩ :: us) x) (tail : Separated item close us rest xs) :
      Separated item close ts rest (x :: xs)

/-- A literal is one token. The words among them are written in any letter case. -/
inductive IsLiteral : Token → Literal → Prop where
  | string {s : String} : IsLiteral (.string s) (.string s)
  | integer {n : Int64} : IsLiteral (.integer n) (.integer n)
  | float {x : Float} : IsLiteral (.float x) (.float x)
  | true {w : String} (word : Text.lowerAscii w = "true") : IsLiteral (.name w) (.boolean true)
  | false {w : String} (word : Text.lowerAscii w = "false") : IsLiteral (.name w) (.boolean false)
  | null {w : String} (word : Text.lowerAscii w ∈ ["null", "none", "nil"]) : IsLiteral (.name w) .null

/-- An argument, which is a literal. It may have a name, marked in one of two ways. -/
inductive IsArgument : Tokens → Tokens → Argument → Prop where
  | positional {t : PlacedToken} {rest : Tokens} {v : Literal} (value : IsLiteral t.token v) :
      IsArgument (t :: rest) rest (.positional v)
  | named {n : String} {p : Position} {sign t : PlacedToken} {rest : Tokens} {v : Literal}
      (marked : sign.token = .mark .colon ∨ sign.token = .mark .equals)
      (value : IsLiteral t.token v) :
      IsArgument (⟨.name n, p⟩ :: sign :: t :: rest) rest (.named n v)

/-- A name, with arguments if it is called. -/
inductive Segment : Tokens → Tokens → Step → Prop where
  | member {n : String} {p : Position} {rest : Tokens} :
      Segment (⟨.name n, p⟩ :: rest) rest (.member n p)
  | call {n : String} {p q : Position} {ts rest : Tokens} {args : List Argument}
      (arguments : Separated IsArgument .rightParen ts rest args) :
      Segment (⟨.name n, p⟩ :: ⟨.mark .leftParen, q⟩ :: ts) rest (.call n args p)

inductive Bound : Tokens → Tokens → Option Int64 → Prop where
  | none {rest : Tokens} : Bound rest rest none
  | some {n : Int64} {p : Position} {rest : Tokens} : Bound (⟨.integer n, p⟩ :: rest) rest (some n)

/-- The step of a slice, which may be left out with its colon. -/
inductive Stride : Tokens → Tokens → Option Int64 → Prop where
  | none {rest : Tokens} : Stride rest rest none
  | some {p : Position} {ts rest : Tokens} {step : Option Int64} (bound : Bound ts rest step) :
      Stride (⟨.mark .colon, p⟩ :: ts) rest step

/-- An index or a slice, without brackets. -/
inductive Subscript : Tokens → Tokens → Step → Prop where
  | index {i : Int64} {p : Position} {rest : Tokens} :
      Subscript (⟨.integer i, p⟩ :: rest) rest (.index i p)
  | slice {t : PlacedToken} {ts us vs rest : Tokens} {p : Position} {start stop step : Option Int64}
      (first : Bound (t :: ts) (⟨.mark .colon, p⟩ :: us) start) (second : Bound us vs stop)
      (third : Stride vs rest step) :
      Subscript (t :: ts) rest (.slice start stop step t.position)

/-- Steps that follow another one. -/
inductive Tail : Tokens → Tokens → List Step → Prop where
  | nil {rest : Tokens} : Tail rest rest []
  | named {p : Position} {ts us rest : Tokens} {s : Step} {ss : List Step}
      (head : Segment ts us s) (tail : Tail us rest ss) :
      Tail (⟨.mark .dot, p⟩ :: ts) rest (s :: ss)
  | dotted {p : Position} {ts us rest : Tokens} {s : Step} {ss : List Step}
      (head : Subscript ts us s) (tail : Tail us rest ss) :
      Tail (⟨.mark .dot, p⟩ :: ts) rest (s :: ss)
  | bracket {p q : Position} {ts us rest : Tokens} {s : Step} {ss : List Step}
      (head : Subscript ts (⟨.mark .rightBracket, q⟩ :: us) s) (tail : Tail us rest ss) :
      Tail (⟨.mark .leftBracket, p⟩ :: ts) rest (s :: ss)

inductive Chain : Tokens → Tokens → List Step → Prop where
  | cons {ts us rest : Tokens} {s : Step} {ss : List Step} (head : Segment ts us s)
      (tail : Tail us rest ss) : Chain ts rest (s :: ss)

/-- An alias, which may be left out, and a chain. -/
inductive IsHead : Tokens → Tokens → Head → Prop where
  | plain {t : PlacedToken} {ts rest : Tokens} {chain : List Step}
      (steps : Chain (t :: ts) rest chain) : IsHead (t :: ts) rest ⟨none, chain, t.position⟩
  | labelled {n : String} {p q : Position} {ts rest : Tokens} {chain : List Step}
      (steps : Chain ts rest chain) :
      IsHead (⟨.name n, p⟩ :: ⟨.mark .colon, q⟩ :: ts) rest ⟨some n, chain, p⟩

/-- A resource that starts with a name, with or without a block. -/
inductive Named (block : Tokens → Tokens → Head → Resource → Prop) :
    Tokens → Tokens → Resource → Prop where
  | field {t : PlacedToken} {ts rest : Tokens} {h : Head} (head : IsHead (t :: ts) rest h) :
      Named block (t :: ts) rest (.field h)
  | block {t : PlacedToken} {ts us rest : Tokens} {h : Head} {r : Resource}
      (head : IsHead (t :: ts) us h) (inner : block us rest h r) : Named block (t :: ts) rest r

/-- An item of a list, which may be a block without a name. -/
inductive Item (block : Tokens → Tokens → Head → Resource → Prop) :
    Tokens → Tokens → Resource → Prop where
  | named {ts rest : Tokens} {r : Resource} (resource : Named block ts rest r) : Item block ts rest r
  | bare {t : PlacedToken} {ts rest : Tokens} {r : Resource}
      (resource : block (t :: ts) rest ⟨none, [], t.position⟩ r) : Item block (t :: ts) rest r

/-- The items of a list or the children of an object, in brackets. A list has at least one item. -/
inductive Block : Tokens → Tokens → Head → Resource → Prop where
  | list {h : Head} {p : Position} {ts rest : Tokens} {items : List Resource} (some : items ≠ [])
      (inner : Separated (Item Block) .rightBracket ts rest items) :
      Block (⟨.mark .leftBracket, p⟩ :: ts) rest h (.list h items)
  | object {h : Head} {p : Position} {ts rest : Tokens} {children : List Resource}
      (inner : Separated (Named Block) .rightBrace ts rest children) :
      Block (⟨.mark .leftBrace, p⟩ :: ts) rest h (.object h children)

theorem Block.head {ts rest : Tokens} {h : Head} {r : Resource} (hBlock : Block ts rest h r) :
    r.head = h := by
  cases hBlock <;> rfl

/-- A query and the end of the input. -/
inductive IsQuery : Tokens → Query → Prop where
  | mk {t : PlacedToken} {ts us : Tokens} {p q : Position} {chain : List Step}
      {children : List Resource} (steps : Chain (t :: ts) (⟨.mark .leftBrace, p⟩ :: us) chain)
      (inner : Separated (Named Block) .rightBrace us [⟨.endOfInput, q⟩] children) :
      IsQuery (t :: ts) ⟨⟨none, chain, t.position⟩, children⟩

end Grammar

end GatedQuery
