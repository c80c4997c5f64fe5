import GatedQuery.Proofs.Canonical.Tokens
import GatedQuery.Proofs.Query.Nodes
import Mathlib.Algebra.Order.BigOperators.Group.List
import Mathlib.Algebra.Order.Ring.Nat

/-! The floats of a text are the floats of the query that it is read as. Whichever way the chains of a
query are written, only the tokens of its chains can be floats. -/

namespace GatedQuery

def Literal.isFloat : Literal → Bool
  | .float _ => true
  | _ => false

def Token.isFloat : Token → Bool
  | .float _ => true
  | _ => false

def Literal.floats (vs : List Literal) : Nat :=
  vs.countP isFloat

def Token.floats (ts : List Token) : Nat :=
  ts.countP isFloat

theorem Literal.floats_append (vs ws : List Literal) :
    floats (vs ++ ws) = floats vs + floats ws :=
  List.countP_append

namespace Token

theorem floats_append (ts us : List Token) : floats (ts ++ us) = floats ts + floats us :=
  List.countP_append

theorem floats_cons_of_not {t : Token} (h : t.isFloat = false) (ts : List Token) :
    floats (t :: ts) = floats ts :=
  List.countP_cons_of_neg (by simp [h])

/-- Commas add no floats. -/
theorem floats_separated (tss : List (List Token)) :
    floats (separated tss) = (tss.map floats).sum := by
  induction tss with
  | nil => rfl
  | cons ts tss ih =>
      cases tss with
      | nil => exact (Nat.add_zero _).symm
      | cons us tss =>
          rw [separated, floats_append, floats_cons_of_not rfl, ih]
          rfl

end Token

/-- A literal is a float exactly if its token is. -/
theorem Literal.floats_token (v : Literal) : Token.floats [v.token] = floats [v] := by
  cases v with
  | boolean b => cases b <;> rfl
  | _ => rfl

namespace Grammar

def floats (ts : Tokens) : Nat :=
  Token.floats (bare ts)

variable {ts rest : Tokens}

theorem floats_cons (t : PlacedToken) (ts : Tokens) :
    floats (t :: ts) = Token.floats [t.token] + floats ts :=
  Token.floats_append [t.token] (bare ts)

theorem floats_cons_of_not {t : PlacedToken} (h : t.token.isFloat = false) (ts : Tokens) :
    floats (t :: ts) = floats ts :=
  Token.floats_cons_of_not h (bare ts)

/-- A word or a sign never makes a float of a literal, nor something else of a float. -/
theorem IsLiteral.floats {t : Token} {v : Literal} (h : IsLiteral t v) :
    Token.floats [t] = Literal.floats [v] := by
  cases h <;> rfl

/-- A list has the floats of its items. -/
theorem Separated.floats {α : Type} {item : Tokens → Tokens → α → Prop} {close : Mark}
    {f : α → List Literal} {xs : List α} (h : Separated item close ts rest xs)
    (items : ∀ x ∈ xs, ∀ us vs, item us vs x →
      floats us = Literal.floats (f x) + floats vs) :
    floats ts = Literal.floats (xs.flatMap f) + floats rest := by
  induction h with
  | nil => rw [floats_cons_of_not rfl, List.flatMap_nil, Literal.floats, List.countP_nil, Nat.zero_add]
  | last head =>
      rw [items _ List.mem_cons_self _ _ head, floats_cons_of_not rfl, List.flatMap_cons,
        List.flatMap_nil, List.append_nil]
  | cons head _ ih =>
      rw [items _ List.mem_cons_self _ _ head, floats_cons_of_not rfl,
        ih fun x hx => items x (List.mem_cons_of_mem _ hx), List.flatMap_cons,
        Literal.floats_append, Nat.add_assoc]

/-- The float of an argument is its value; its name has none. -/
theorem IsArgument.floats {a : Argument} (h : IsArgument ts rest a) :
    floats ts = Literal.floats [a.value] + floats rest := by
  cases h with
  | positional value => rw [floats_cons, value.floats, Argument.value]
  | named marked value =>
      have hSign {sign : Token} (h : sign = .mark .colon ∨ sign = .mark .equals) :
          sign.isFloat = false := by
        rcases h with rfl | rfl <;> rfl
      rw [floats_cons_of_not rfl, floats_cons_of_not (hSign marked), floats_cons, value.floats,
        Argument.value]

theorem Segment.floats {s : Step} (h : Segment ts rest s) :
    floats ts = Literal.floats s.literals + floats rest := by
  cases h with
  | member => exact (floats_cons_of_not rfl _).trans (Nat.zero_add _).symm
  | call arguments =>
      have hArguments := arguments.floats (f := fun a => [a.value])
        fun _ _ _ _ ha => ha.floats
      rw [floats_cons_of_not rfl, floats_cons_of_not rfl, hArguments, Step.literals, Step.arguments,
        List.map_eq_flatMap]

/-- The bounds of a slice are integers. -/
theorem Bound.floats {b : Option Int64} (h : Bound ts rest b) : floats ts = floats rest := by
  cases h with
  | none => rfl
  | some => exact floats_cons_of_not rfl _

theorem Stride.floats {b : Option Int64} (h : Stride ts rest b) : floats ts = floats rest := by
  cases h with
  | none => rfl
  | some bound => rw [floats_cons_of_not rfl, bound.floats]

/-- An index or a slice has neither floats nor literals. -/
theorem Subscript.floats {s : Step} (h : Subscript ts rest s) :
    floats ts = Literal.floats s.literals + floats rest := by
  cases h with
  | index => exact (floats_cons_of_not rfl _).trans (Nat.zero_add _).symm
  | slice first second third =>
      rw [first.floats, floats_cons_of_not rfl, second.floats, third.floats]
      exact (Nat.zero_add _).symm

/-- The floats of further steps are those of their arguments. -/
theorem Tail.floats {ss : List Step} (h : Tail ts rest ss) :
    floats ts = Literal.floats (ss.flatMap Step.literals) + floats rest := by
  induction h with
  | nil => exact (Nat.zero_add _).symm
  | named head _ ih =>
      rw [floats_cons_of_not rfl, head.floats, ih, List.flatMap_cons, Literal.floats_append,
        Nat.add_assoc]
  | dotted head _ ih =>
      rw [floats_cons_of_not rfl, head.floats, ih, List.flatMap_cons, Literal.floats_append,
        Nat.add_assoc]
  | bracket head _ ih =>
      rw [floats_cons_of_not rfl, head.floats, floats_cons_of_not rfl, ih, List.flatMap_cons,
        Literal.floats_append, Nat.add_assoc]

theorem Chain.floats {ss : List Step} (h : Chain ts rest ss) :
    floats ts = Literal.floats (ss.flatMap Step.literals) + floats rest := by
  cases h with
  | cons head tail =>
      rw [head.floats, tail.floats, List.flatMap_cons, Literal.floats_append, Nat.add_assoc]

theorem IsHead.floats {h : Head} (hHead : IsHead ts rest h) :
    floats ts = Literal.floats h.literals + floats rest := by
  cases hHead with
  | plain steps => exact steps.floats
  | labelled steps => rw [floats_cons_of_not rfl, floats_cons_of_not rfl, steps.floats, Head.literals]

def BlockFloats (r : Resource) : Prop :=
  ∀ {ts rest h}, Block ts rest h r →
    Literal.floats h.literals + floats ts = Literal.floats r.literals + floats rest

/-- The floats of a resource are those of its head and those of its block. -/
theorem Named.floats {r : Resource} (h : Named Block ts rest r) (blocks : BlockFloats r) :
    floats ts = Literal.floats r.literals + floats rest := by
  cases h with
  | field head => exact head.floats
  | block head inner => rw [head.floats, blocks inner]

theorem Item.floats {r : Resource} (h : Item Block ts rest r) (blocks : BlockFloats r) :
    floats ts = Literal.floats r.literals + floats rest := by
  cases h with
  | named resource => exact resource.floats blocks
  | bare resource => exact (Nat.zero_add _).symm.trans (blocks resource)

/-- Every tree has the floats of its tokens. The induction is on the tree. -/
theorem blockFloats (r : Resource) : BlockFloats r := by
  induction r using Resource.induct with
  | field h =>
      intro ts rest h hBlock
      cases hBlock
  | list _ body ih =>
      intro ts rest h hBlock
      cases hBlock with
      | list some inner =>
          rw [floats_cons_of_not rfl, inner.floats fun r hr _ _ hItem => hItem.floats (ih r hr),
            Resource.literals, Resource.literalsAll_eq_flatMap, Literal.floats_append, Nat.add_assoc]
  | object _ children ih =>
      intro ts rest h hBlock
      cases hBlock with
      | object inner =>
          rw [floats_cons_of_not rfl, inner.floats fun r hr _ _ hChild => hChild.floats (ih r hr),
            Resource.literals, Resource.literalsAll_eq_flatMap, Literal.floats_append, Nat.add_assoc]

/-- The tokens of a query have as many floats as the query. -/
theorem IsQuery.floats {q : Query} (h : IsQuery ts q) : floats ts = Literal.floats q.literals := by
  cases h with
  | mk steps inner =>
      rw [steps.floats, floats_cons_of_not rfl,
        inner.floats fun r _ _ _ hChild => hChild.floats (blockFloats r), floats_cons_of_not rfl,
        Query.literals, Query.root, Resource.literals, Resource.literalsAll_eq_flatMap,
        Literal.floats_append, Head.literals]
      rfl

end Grammar

namespace Resource

/-- The literals of a resource are those of the heads in it. -/
theorem literals_eq_flatMap_nodes (r : Resource) :
    r.literals = r.nodes.flatMap fun n => n.head.literals := by
  have hParts {parts : List Resource}
      (ih : ∀ r ∈ parts, r.literals = r.nodes.flatMap fun n => n.head.literals) :
      literalsAll parts = (nodesAll parts).flatMap fun n => n.head.literals := by
    rw [literalsAll_eq_flatMap, nodesAll_eq_flatMap, List.flatMap_assoc]
    exact List.flatMap_congr ih
  induction r using Resource.induct with
  | field h => exact (List.append_nil _).symm
  | list h body ih => rw [literals, hParts ih, nodes, List.flatMap_cons, head]
  | object h children ih => rw [literals, hParts ih, nodes, List.flatMap_cons, head]

theorem literals_unplaced (r : Resource) : r.unplaced.literals = r.literals := by
  have hHead (h : Head) : h.unplaced.literals = h.literals := by
    rw [Head.literals, Head.unplaced, List.flatMap_map, Head.literals]
    exact List.flatMap_congr fun s _ => congrArg (List.map Argument.value) s.arguments_unplaced
  have hParts {parts : List Resource} (ih : ∀ r ∈ parts, r.unplaced.literals = r.literals) :
      literalsAll (unplacedAll parts) = literalsAll parts := by
    rw [unplacedAll_eq_map, literalsAll_eq_flatMap, literalsAll_eq_flatMap, List.flatMap_map]
    exact List.flatMap_congr ih
  induction r using Resource.induct with
  | field h => exact hHead h
  | list h body ih => rw [unplaced, literals, literals, hHead, hParts ih]
  | object h children ih => rw [unplaced, literals, literals, hHead, hParts ih]

end Resource

/-- Queries that are the same up to places have the same literals. -/
theorem Query.literals_congr {q q' : Query} (h : q'.unplaced = q.unplaced) :
    q'.literals = q.literals := by
  have hRoot : q'.root.unplaced = q.root.unplaced := congrArg Query.root h
  rw [Query.literals, ← Resource.literals_unplaced, hRoot, Resource.literals_unplaced,
    Query.literals]

namespace ChainStyle

variable (style : ChainStyle)

theorem floats_headTokens (h : Head) :
    Token.floats (style.headTokens h) = Token.floats (style.tokens h.chain) := by
  rw [headTokens, Token.floats_append]
  cases h.label <;> exact Nat.zero_add _

/-- The floats of a text are those of its chains. -/
theorem floats_resourceTokens (r : Resource) :
    Token.floats (style.resourceTokens r) =
      (r.nodes.map fun n => Token.floats (style.tokens n.head.chain)).sum := by
  have hParts {parts : List Resource} (ih : ∀ r ∈ parts, Token.floats (style.resourceTokens r) =
      (r.nodes.map fun n => Token.floats (style.tokens n.head.chain)).sum) :
      Token.floats (style.listTokens parts) =
        ((Resource.nodesAll parts).map fun n => Token.floats (style.tokens n.head.chain)).sum := by
    rw [listTokens_eq_separated, Token.floats_separated, List.map_map]
    induction parts with
    | nil => rfl
    | cons r rs ihParts =>
        obtain ⟨hr, hrs⟩ := List.forall_mem_cons.mp ih
        rw [List.map_cons, List.sum_cons, ihParts hrs, Resource.nodesAll, List.map_append,
          List.sum_append, ← hr]
        rfl
  have hMark (m : Mark) : Token.floats [.mark m] = 0 := rfl
  induction r using Resource.induct with
  | field h =>
      rw [resourceTokens, Token.floats_append, floats_headTokens]
      rfl
  | list h body ih =>
      rw [resourceTokens, Token.floats_append, floats_headTokens, blockTokens,
        Token.floats_cons_of_not rfl, Token.floats_append, hParts ih, hMark, Resource.nodes,
        List.map_cons, List.sum_cons]
      rfl
  | object h children ih =>
      rw [resourceTokens, Token.floats_append, floats_headTokens, blockTokens,
        Token.floats_cons_of_not rfl, Token.floats_append, hParts ih, hMark, Resource.nodes,
        List.map_cons, List.sum_cons]
      rfl

/-- If no chain is written with fewer floats than it has, and one is written with more, the text has
more floats than the query. -/
theorem lt_floats_queryTokens {q : Query}
    (le : ∀ n ∈ q.nodes, Literal.floats n.head.literals ≤ Token.floats (style.tokens n.head.chain))
    (lt : ∃ n ∈ q.nodes,
      Literal.floats n.head.literals < Token.floats (style.tokens n.head.chain)) :
    Literal.floats q.literals < Token.floats (style.queryTokens q) := by
  have hLiterals : Literal.floats q.literals =
      (q.nodes.map fun n => Literal.floats n.head.literals).sum := by
    rw [Query.literals, Resource.literals_eq_flatMap_nodes]
    exact List.countP_flatMap
  have hEnd : Token.floats [.endOfInput] = 0 := rfl
  rw [hLiterals, queryTokens, Token.floats_append, floats_resourceTokens, hEnd]
  exact List.sum_lt_sum _ _ le lt

end ChainStyle

end GatedQuery
