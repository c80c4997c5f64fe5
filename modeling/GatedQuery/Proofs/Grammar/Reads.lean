import GatedQuery.Proofs.Grammar.Basic
import Mathlib.Tactic.Simproc.ExistsAndEq

/-! Runs of readers. A reader that succeeds goes from one stream to another, and what it does there
follows from what the readers do that it is made of. The facts about single readers say everything
that they can do. -/

namespace GatedQuery

open Grammar

namespace TokenStream

def all (s : TokenStream) : Tokens :=
  s.current :: s.following

/-- The stream of tokens that are there. The end of the input stands for none. -/
def ofTokens : Tokens → TokenStream
  | [] => ⟨⟨.endOfInput, .start⟩, []⟩
  | t :: ts => ⟨t, ts⟩

@[simp] theorem ofTokens_cons_current (t : PlacedToken) (ts : Tokens) :
    (ofTokens (t :: ts)).current = t := rfl

@[simp] theorem ofTokens_cons_following (t : PlacedToken) (ts : Tokens) :
    (ofTokens (t :: ts)).following = ts := rfl

@[simp] theorem ofTokens_cons_second (t u : PlacedToken) (ts : Tokens) :
    (ofTokens (t :: u :: ts)).second = u.token := rfl

@[simp] theorem ofTokens_cons_advance (t u : PlacedToken) (ts : Tokens) :
    (ofTokens (t :: u :: ts)).advance = ofTokens (u :: ts) := rfl

/-- Moving on drops the first token, as long as another one is left. The end stays where it is. -/
theorem ofTokens_advance {t : PlacedToken} {ts : Tokens} (h : ts ≠ []) :
    (ofTokens (t :: ts)).advance = ofTokens ts := by
  obtain ⟨u, us, rfl⟩ := List.exists_cons_of_ne_nil h
  rfl

/-- Tokens that end with the end of the input are read as they are. -/
theorem ofList_ended (before : Tokens) (p : Position) :
    ofList (before ++ [⟨.endOfInput, p⟩]) = ofTokens (before ++ [⟨.endOfInput, p⟩]) := by
  cases before with
  | nil => rfl
  | cons t ts =>
      have hLast : (t :: (ts ++ [⟨.endOfInput, p⟩])).getLast (List.cons_ne_nil _ _) =
          (⟨.endOfInput, p⟩ : PlacedToken) := List.getLast_concat (l := t :: ts)
      rw [List.cons_append, ofList, hLast]
      rfl

/-- Other tokens are followed by the end of the input, at the place of the last one. -/
theorem ofList_concat (before : Tokens) {t : PlacedToken} (h : t.token ≠ .endOfInput) :
    ofList (before ++ [t]) = ofTokens (before ++ [t] ++ [⟨.endOfInput, t.position⟩]) := by
  obtain ⟨token, p⟩ := t
  cases before with
  | nil => cases token <;> first | rfl | exact absurd rfl h
  | cons u us =>
      have hLast : (u :: (us ++ [⟨token, p⟩])).getLast (List.cons_ne_nil _ _) =
          (⟨token, p⟩ : PlacedToken) := List.getLast_concat (l := u :: us)
      rw [List.cons_append, ofList, hLast]
      cases token <;> first | rfl | exact absurd rfl h

end TokenStream

namespace Reading

variable {α β : Type} {s s' s'' : TokenStream}

/-- The reader goes from the stream `s` to the stream `s'` with a result. -/
def Reads (m : Reading α) (s : TokenStream) (a : α) (s' : TokenStream) : Prop :=
  m.run.run s = (.ok a, s')

@[simp] theorem reads_pure {a b : α} : Reads (pure a) s b s' ↔ b = a ∧ s' = s := by
  constructor
  · intro h
    cases h
    exact ⟨rfl, rfl⟩
  · rintro ⟨rfl, rfl⟩
    rfl

/-- A reader that is followed by another one succeeds by way of some stream between the two. -/
@[simp] theorem reads_bind {m : Reading α} {f : α → Reading β} {b : β} :
    Reads (m >>= f) s b s'' ↔ ∃ a s', Reads m s a s' ∧ Reads (f a) s' b s'' := by
  unfold Reads
  rw [ExceptT.run_bind, StateT.run_bind]
  rcases m.run.run s with ⟨e | a, t⟩
  · constructor
    · intro h
      cases h
    · rintro ⟨a, t, hm, _⟩
      cases hm
  · constructor
    · intro h
      exact ⟨a, t, rfl, h⟩
    · rintro ⟨a, t, hm, hf⟩
      cases hm
      exact hf

@[simp] theorem reads_map {m : Reading α} {f : α → β} {b : β} :
    Reads (f <$> m) s b s' ↔ ∃ a, Reads m s a s' ∧ b = f a := by
  rw [← bind_pure_comp]
  simp only [reads_bind, reads_pure]
  constructor
  · rintro ⟨a, t, hm, rfl, rfl⟩
    exact ⟨a, hm, rfl⟩
  · rintro ⟨a, hm, rfl⟩
    exact ⟨a, s', hm, rfl, rfl⟩

@[simp] theorem reads_throw {e : QueryError} {a : α} : ¬ Reads (throw e) s a s' := by
  intro h
  cases h

/-- Both branches have to be described, as a reader may decide by what it found before. -/
@[simp] theorem reads_ite {c : Prop} [Decidable c] {m n : Reading α} {a : α} :
    Reads (if c then m else n) s a s' ↔ (c ∧ Reads m s a s') ∨ (¬ c ∧ Reads n s a s') := by
  split <;> simp [*]

@[simp] theorem reads_get {t : TokenStream} : Reads get s t s' ↔ t = s ∧ s' = s := by
  constructor
  · intro h
    cases h
    exact ⟨rfl, rfl⟩
  · rintro ⟨rfl, rfl⟩
    rfl

/-- Moving on always succeeds, also at the end of the input. -/
@[simp] theorem reads_advance {u : Unit} : Reads advance s u s' ↔ s' = s.advance := by
  constructor
  · intro h
    cases h
    rfl
  · rintro rfl
    rfl

@[simp] theorem reads_current {t : Token} :
    Reads current s t s' ↔ t = s.current.token ∧ s' = s := by
  simp [current, and_comm]

@[simp] theorem reads_here {p : Position} :
    Reads here s p s' ↔ p = s.current.position ∧ s' = s := by
  simp [here, and_comm]

/-- Asking for a mark takes nothing. -/
@[simp] theorem reads_atMark {m : Mark} {b : Bool} :
    Reads (atMark m) s b s' ↔ b = s.current.token.isMark m ∧ s' = s := by
  simp only [atMark, reads_bind, reads_current, reads_pure, and_assoc, exists_and_left,
    exists_eq_left]

/-- Complaining about a token never succeeds. -/
@[simp] theorem reads_unexpected {e : Expectation} {a : α} : ¬ Reads (unexpected e) s a s' := by
  simp [unexpected]

/-- A mark that is asked for has to be the current token, and is taken. -/
@[simp] theorem reads_take {m : Mark} {e : Expectation} {u : Unit} :
    Reads (take m e) s u s' ↔ s.current.token.isMark m = true ∧ s' = s.advance := by
  simp only [take, reads_bind, reads_atMark, reads_ite, reads_advance, reads_unexpected, and_assoc,
    exists_and_left, exists_eq_left, and_false, or_false]

/-- How a list is read: it ends, or it goes on with an item that a comma or the end follows. -/
theorem reads_separated_succ {close : Mark} {between : Expectation} {read : List α → Reading α}
    {fuel : Nat} {before xs : List α} :
    Reads (separated close between read (fuel + 1) before) s xs s' ↔
      (s.current.token.isMark close = true ∧ xs = before ∧ s' = s.advance) ∨
      (s.current.token.isMark close = false ∧ ∃ x t, Reads (read before) s x t ∧
        ((t.current.token.isMark close = true ∧
            Reads (separated close between read fuel (before ++ [x])) t xs s') ∨
          (t.current.token.isMark close = false ∧ t.current.token.isMark .comma = true ∧
            Reads (separated close between read fuel (before ++ [x])) t.advance xs s'))) := by
  simp only [separated, reads_bind, reads_atMark, reads_ite, reads_advance, reads_pure, reads_take,
    Bool.not_eq_true, and_assoc, exists_and_left, exists_eq_left, exists_const]

theorem reads_list {close : Mark} {between : Expectation} {read : List α → Reading α} {xs : List α} :
    Reads (list close between read) s xs s' ↔
      Reads (separated close between read (s.following.length + 1) []) s xs s' := by
  simp only [list, reads_bind, reads_get, and_assoc, exists_and_left, exists_eq_left]

theorem wordLiteral?_eq_some_iff {w : String} {v : Literal} :
    wordLiteral? w = some v ↔ IsLiteral (.name w) v := by
  unfold wordLiteral?
  constructor
  · intro h
    split at h <;> cases h
    next hWord => exact .true hWord
    next hWord => exact .false hWord
    all_goals
      next hWord => exact .null (by rw [hWord]; decide)
  · intro h
    cases h with
    | true word =>
        rw [word]
        rfl
    | false word =>
        rw [word]
        rfl
    | null word =>
        simp only [List.mem_cons, List.not_mem_nil, or_false] at word
        rcases word with word | word | word <;>
          · rw [word]
            rfl

/-- The tokens that are read as literals are those of the grammar. -/
theorem literal?_eq_some_iff {t : Token} {v : Literal} : literal? t = some v ↔ IsLiteral t v := by
  cases t with
  | name w => exact wordLiteral?_eq_some_iff
  | _ =>
      constructor
      · intro h
        cases h <;> constructor
      · intro h
        cases h <;> rfl

theorem reads_literal {v : Literal} :
    Reads literal s v s' ↔ IsLiteral s.current.token v ∧ s' = s.advance := by
  rw [← literal?_eq_some_iff]
  simp only [literal, reads_bind, reads_current, and_assoc, exists_and_left, exists_eq_left]
  split
  next w h =>
    simp only [reads_bind, reads_advance, reads_pure, h, Option.some.injEq, exists_eq_left,
      exists_const]
    rw [and_comm (a := w = v), eq_comm (a := v), and_comm]
  next h => simp [h]

/-- Whether a sign after a name marks a named argument. -/
def isSign (t : Token) : Bool :=
  t.isMark .colon || t.isMark .equals

/-- A positional argument may not stand behind a named one. -/
theorem reads_positional {before : List Argument} {p : Position} {a : Argument} :
    Reads (argument.positional before p) s a s' ↔
      (before.any fun b => b.name?.isSome) = false ∧
        ∃ v, IsLiteral s.current.token v ∧ a = .positional v ∧ s' = s.advance := by
  simp only [argument.positional, reads_bind, reads_ite, reads_throw, reads_pure, reads_literal,
    and_assoc, exists_and_left, exists_eq_left, Bool.not_eq_true, false_and, exists_false, and_false,
    false_or]

/-- A name before a sign starts a named argument, whose name may not be taken yet. Everything else
has to be a positional one. -/
theorem reads_argument {before : List Argument} {a : Argument} :
    Reads (argument before) s a s' ↔
      (∃ n, s.current.token = .name n ∧ isSign s.second = true ∧
        (before.any fun b => b.name? == some n) = false ∧
          ∃ v, IsLiteral s.advance.advance.current.token v ∧ a = .named n v ∧
            s' = s.advance.advance.advance) ∨
      ((∀ n, s.current.token = .name n → isSign s.second = false) ∧
        (before.any fun b => b.name?.isSome) = false ∧
          ∃ v, IsLiteral s.current.token v ∧ a = .positional v ∧ s' = s.advance) := by
  simp only [argument, reads_bind, reads_here, reads_get, reads_current, and_assoc, exists_and_left,
    exists_eq_left]
  split
  next n h =>
    simp only [reads_ite, reads_bind, reads_advance, reads_throw, reads_pure, reads_literal,
      reads_positional, and_assoc, exists_and_left, exists_eq_left, Bool.not_eq_true, false_and,
      exists_false, and_false, false_or, exists_const, h, Token.name.injEq, forall_eq',
      exists_eq_left', isSign]
  next h =>
    have hNone (n : String) : s.current.token ≠ .name n := h n
    simp only [reads_positional, hNone, false_and, exists_false, false_or, false_implies,
      implies_true, true_and]

/-- A name is a call exactly if an opening parenthesis is next. -/
theorem reads_segment {x : Step} :
    Reads segment s x s' ↔ ∃ n, s.current.token = .name n ∧
      ((s.advance.current.token.isMark .leftParen = true ∧ ∃ args t,
          Reads (list .rightParen .commaOrParen argument) s.advance.advance args t ∧
            x = .call n args s.current.position ∧ s' = t) ∨
        (s.advance.current.token.isMark .leftParen = false ∧ x = .member n s.current.position ∧
          s' = s.advance)) := by
  simp only [segment, reads_bind, reads_here, reads_current, and_assoc, exists_and_left,
    exists_eq_left]
  split
  next n h =>
    simp only [reads_bind, reads_advance, reads_atMark, reads_ite, reads_pure, and_assoc,
      exists_and_left, exists_eq_left, exists_const, Bool.not_eq_true, h, Token.name.injEq,
      exists_eq_left']
  next h =>
    have hNone (n : String) : s.current.token ≠ .name n := h n
    simp only [reads_unexpected, hNone, false_and, exists_false]

/-- A bound that is left out takes nothing. -/
theorem reads_integer {b : Option Int64} :
    Reads integer? s b s' ↔
      (∃ n, s.current.token = .integer n ∧ b = some n ∧ s' = s.advance) ∨
        ((∀ n, s.current.token ≠ .integer n) ∧ b = none ∧ s' = s) := by
  simp only [integer?, reads_bind, reads_current, and_assoc, exists_and_left, exists_eq_left]
  split
  next n h => simp [h, and_comm]
  next h =>
    have hNone (n : Int64) : s.current.token ≠ .integer n := h n
    simp [hNone, and_comm]

/-- The second colon and the step behind it may be left out, and a step of zero is refused. -/
theorem reads_slice {start : Option Int64} {p : Position} {x : Step} :
    Reads (slice start p) s x s' ↔ s.current.token.isMark .colon = true ∧
      ∃ stop t, Reads integer? s.advance stop t ∧
        ((t.current.token.isMark .colon = true ∧ ∃ step u, Reads integer? t.advance step u ∧
            step ≠ some 0 ∧ x = .slice start stop step p ∧ s' = u) ∨
          (t.current.token.isMark .colon = false ∧ x = .slice start stop none p ∧ s' = t)) := by
  simp only [slice, reads_bind, reads_take, reads_atMark, reads_ite, reads_advance, reads_here,
    reads_throw, reads_pure, and_assoc, exists_and_left, exists_eq_left, exists_const,
    Bool.not_eq_true, false_and, exists_false, and_false, false_or, ne_eq]

/-- A number is the start of a slice if a colon follows it, and else an index. -/
theorem reads_indexOrSlice {i : Int64} {p : Position} {x : Step} :
    Reads (indexOrSlice i p) s x s' ↔
      (s.advance.current.token.isMark .colon = true ∧ Reads (slice (some i) p) s.advance x s') ∨
        (s.advance.current.token.isMark .colon = false ∧ x = .index i p ∧ s' = s.advance) := by
  simp only [indexOrSlice, reads_bind, reads_advance, reads_atMark, reads_ite, reads_pure, and_assoc,
    exists_and_left, exists_eq_left, exists_const, Bool.not_eq_true]

/-- Reading an index or a slice, in brackets or after a dot. -/
def ReadsSubscript (s : TokenStream) (x : Step) (s' : TokenStream) : Prop :=
  (∃ i, s.current.token = .integer i ∧ Reads (indexOrSlice i s.current.position) s x s') ∨
    (s.current.token = .mark .colon ∧ Reads (slice none s.current.position) s x s')

/-- Behind a dot stands a name, with arguments or without, or an index or slice without brackets. -/
theorem reads_dottedStep {x : Step} :
    Reads dottedStep s x s' ↔
      (∃ n, s.current.token = .name n ∧ Reads segment s x s') ∨ ReadsSubscript s x s' := by
  simp only [dottedStep, ReadsSubscript, reads_bind, reads_here, reads_current, and_assoc,
    exists_and_left, exists_eq_left]
  split
  next n h => simp [h]
  next i h => simp [h]
  next h => simp [h]
  next hName hInteger hColon =>
    have hNoName (n : String) : s.current.token ≠ .name n := hName n
    have hNoInteger (i : Int64) : s.current.token ≠ .integer i := hInteger i
    have hNoColon : s.current.token ≠ .mark .colon := hColon
    simp [hNoName, hNoInteger, hNoColon]

/-- In brackets stands an index or a slice. -/
theorem reads_bracketStep {x : Step} :
    Reads bracketStep s x s' ↔ ∃ t, ReadsSubscript s x t ∧
      t.current.token.isMark .rightBracket = true ∧ s' = t.advance := by
  simp only [bracketStep, ReadsSubscript, reads_bind, reads_here, reads_current, and_assoc,
    exists_and_left, exists_eq_left]
  split
  next i h => simp [h]
  next h => simp [h]
  next hInteger hColon =>
    have hNoInteger (i : Int64) : s.current.token ≠ .integer i := hInteger i
    have hNoColon : s.current.token ≠ .mark .colon := hColon
    simp [hNoInteger, hNoColon]

/-- One round of the loop over a chain: a dot leads to a step, a bracket to one if the token behind
it opens an index, and everything else ends the chain. -/
theorem reads_steps_succ {fuel : Nat} {before xs : List Step} :
    Reads (steps (fuel + 1) before) s xs s' ↔
      (s.current.token.isMark .dot = true ∧ ∃ x t, Reads dottedStep s.advance x t ∧
        Reads (steps fuel (before ++ [x])) t xs s') ∨
      (s.current.token.isMark .dot = false ∧
        (((s.current.token.isMark .leftBracket && opensIndex s.second) = true ∧ ∃ x t,
            Reads bracketStep s.advance x t ∧ Reads (steps fuel (before ++ [x])) t xs s') ∨
          ((s.current.token.isMark .leftBracket && opensIndex s.second) = false ∧ xs = before ∧
            s' = s))) := by
  simp only [steps, reads_bind, reads_atMark, reads_get, reads_ite, reads_advance, reads_pure,
    and_assoc, exists_and_left, exists_eq_left, exists_const, Bool.not_eq_true]

theorem reads_chain {xs : List Step} :
    Reads chain s xs s' ↔ ∃ x t, Reads segment s x t ∧
      Reads (steps (t.following.length + 1) [x]) t xs s' := by
  simp only [chain, reads_bind, reads_get, and_assoc, exists_and_left, exists_eq_left]

/-- A name is an alias exactly if a colon follows it. -/
theorem reads_label {label : Option String} :
    Reads label? s label s' ↔
      (∃ n, s.current.token = .name n ∧ s.second.isMark .colon = true ∧ label = some n ∧
        s' = s.advance.advance) ∨
      ((∀ n, s.current.token = .name n → s.second.isMark .colon = false) ∧ label = none ∧
        s' = s) := by
  simp only [label?, reads_bind, reads_current, and_assoc, exists_and_left, exists_eq_left]
  split
  next n h =>
    simp only [reads_bind, reads_get, reads_ite, reads_advance, reads_pure, and_assoc,
      exists_and_left, exists_eq_left, exists_const, Bool.not_eq_true, h, Token.name.injEq,
      exists_eq_left', forall_eq']
  next h =>
    have hNone (n : String) : s.current.token ≠ .name n := h n
    simp only [reads_pure, hNone, false_and, exists_false, false_or, false_implies, implies_true,
      true_and]

variable {body : Head → Reading Resource} {r : Resource}

/-- An alias, a chain and the body under it, which is read with what came before as its head. -/
theorem reads_named :
    Reads (named body) s r s' ↔ ∃ label t, Reads label? s label t ∧ ∃ steps u, Reads chain t steps u ∧
      Reads (body ⟨label, steps, s.current.position⟩) u r s' := by
  simp only [named, reads_bind, reads_here, and_assoc, exists_and_left, exists_eq_left]

/-- A child of an object may not have the key of an earlier child. -/
theorem reads_child {before : List Resource} :
    Reads (child body before) s r s' ↔ Reads (named body) s r s' ∧
      ∀ key, r.key? = some key → ∀ x ∈ before, x.key? ≠ some key := by
  simp only [child, reads_bind]
  constructor
  · rintro ⟨a, t, hNamed, hRest⟩
    split at hRest
    next hKey =>
      obtain ⟨rfl, rfl⟩ := reads_pure.mp hRest
      exact ⟨hNamed, fun key hSome => by simp [hKey] at hSome⟩
    next key hKey =>
      split at hRest
      next => exact absurd hRest reads_throw
      next hNew =>
        obtain ⟨rfl, rfl⟩ := reads_pure.mp hRest
        refine ⟨hNamed, fun key' hSome x hx hSame => List.find?_eq_none.mp hNew x hx ?_⟩
        rw [hKey, Option.some.injEq] at hSome
        rw [hSame, hSome, beq_self_eq_true]
  · rintro ⟨hNamed, hNew⟩
    refine ⟨r, s', hNamed, ?_⟩
    split
    next => exact reads_pure.mpr ⟨rfl, rfl⟩
    next key hKey =>
      have hNone : (before.find? fun x => x.key? == some key) = none :=
        List.find?_eq_none.mpr fun x hx hSame => hNew key hKey x hx (eq_of_beq hSame)
      rw [hNone]
      exact reads_pure.mpr ⟨rfl, rfl⟩

/-- An item of a list starts with a brace or a bracket, and then has no head, or with a name. -/
theorem reads_item {before : List Resource} :
    Reads (item body before) s r s' ↔
      ((s.current.token = .mark .leftBrace ∨ s.current.token = .mark .leftBracket) ∧
        Reads (body ⟨none, [], s.current.position⟩) s r s') ∨
      ((∃ n, s.current.token = .name n) ∧ Reads (named body) s r s') := by
  simp only [item, reads_bind, reads_here, reads_current, and_assoc, exists_and_left, exists_eq_left]
  split
  next h => simp [h]
  next h => simp [h]
  next n h => simp [h]
  next hBrace hBracket hName =>
    have hNoBrace : s.current.token ≠ .mark .leftBrace := hBrace
    have hNoBracket : s.current.token ≠ .mark .leftBracket := hBracket
    have hNoName (n : String) : s.current.token ≠ .name n := hName n
    simp [hNoBrace, hNoBracket, hNoName]

/-- One level of a body: a bracket opens a list, which may not be empty, a brace an object, and
anything else makes the resource a field. -/
theorem reads_body_succ {depth : Nat} {h : Head} :
    Reads (Reading.body (depth + 1) h) s r s' ↔
      (s.current.token.isMark .leftBracket = true ∧
        s.advance.current.token.isMark .rightBracket = false ∧ ∃ items t,
          Reads (list .rightBracket .commaOrBracket (item (Reading.body depth))) s.advance items t ∧
            r = .list h items ∧ s' = t) ∨
      (s.current.token.isMark .leftBracket = false ∧
        ((s.current.token.isMark .leftBrace = true ∧ ∃ children t,
            Reads (list .rightBrace .commaOrBrace (child (Reading.body depth))) s.advance children t ∧
              r = .object h children ∧ s' = t) ∨
          (s.current.token.isMark .leftBrace = false ∧ r = .field h ∧ s' = s))) := by
  simp only [Reading.body, reads_bind, reads_atMark, reads_ite, reads_advance, reads_pure,
    reads_unexpected, and_assoc, exists_and_left, exists_eq_left, exists_const, Bool.not_eq_true,
    false_and, exists_false, and_false, false_or]

/-- A query is a chain and a block in braces up to the end of the input. -/
theorem reads_query {q : Query} :
    Reads query s q s' ↔ ∃ steps t, Reads chain s steps t ∧
      t.current.token.isMark .leftBrace = true ∧ ∃ children u,
        Reads (list .rightBrace .commaOrBrace
            (child (Reading.body (t.advance.following.length + 1)))) t.advance children u ∧
          u.current.token = .endOfInput ∧ q = ⟨⟨none, steps, s.current.position⟩, children⟩ ∧
            s' = u.advance := by
  simp only [query, reads_bind, reads_here, reads_get, reads_current, reads_take, and_assoc,
    exists_and_left, exists_eq_left, exists_const]
  constructor
  · rintro ⟨steps, t, hSteps, hOpen, children, u, hChildren, hEnd⟩
    refine ⟨steps, t, hSteps, hOpen, children, u, hChildren, ?_⟩
    split at hEnd
    next h =>
      simp only [reads_bind, reads_advance, reads_pure, exists_eq_left, exists_const] at hEnd
      exact ⟨h, hEnd⟩
    next => simp at hEnd
  · rintro ⟨steps, t, hSteps, hOpen, children, u, hChildren, hEnd, hQuery, hRest⟩
    refine ⟨steps, t, hSteps, hOpen, children, u, hChildren, ?_⟩
    rw [hEnd]
    simp only [reads_bind, reads_advance, reads_pure, exists_eq_left, exists_const]
    exact ⟨hQuery, hRest⟩

end Reading

end GatedQuery
