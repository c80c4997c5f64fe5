import GatedQuery.Proofs.Grammar.Reads

/-! Failures of readers. A reader fails where one of the readers that it is made of fails, after those
before it have succeeded, and the stream is left where that happened. -/

namespace GatedQuery

open Grammar

namespace Reading

variable {α β : Type} {s s' s'' : TokenStream} {e : QueryError}

/-- The reader fails on the stream `s` and leaves the stream `s'`. -/
def Fails (m : Reading α) (s : TokenStream) (e : QueryError) (s' : TokenStream) : Prop :=
  m.run.run s = (.error e, s')

@[simp] theorem fails_pure {a : α} : ¬ Fails (pure a) s e s' := by
  intro h
  cases h

/-- Two readers one after the other fail if the first one does, or the second one does after it. -/
@[simp] theorem fails_bind {m : Reading α} {f : α → Reading β} :
    Fails (m >>= f) s e s'' ↔
      Fails m s e s'' ∨ ∃ a s', Reads m s a s' ∧ Fails (f a) s' e s'' := by
  unfold Fails Reads
  rw [ExceptT.run_bind, StateT.run_bind]
  rcases m.run.run s with ⟨e' | a, t⟩
  · constructor
    · intro h
      cases h
      exact .inl rfl
    · rintro (hm | ⟨a, t, hm, _⟩)
      · cases hm
        rfl
      · cases hm
  · constructor
    · intro h
      exact .inr ⟨a, t, rfl, h⟩
    · rintro (hm | ⟨a, t, hm, hf⟩)
      · cases hm
      · cases hm
        exact hf

@[simp] theorem fails_map {m : Reading α} {f : α → β} : Fails (f <$> m) s e s' ↔ Fails m s e s' := by
  rw [← bind_pure_comp]
  simp only [fails_bind, fails_pure, and_false, exists_false, or_false]

@[simp] theorem fails_throw {x : QueryError} :
    Fails (throw x : Reading α) s e s' ↔ e = x ∧ s' = s := by
  constructor
  · intro h
    cases h
    exact ⟨rfl, rfl⟩
  · rintro ⟨rfl, rfl⟩
    rfl

/-- A choice fails if the branch that is taken does. -/
@[simp] theorem fails_ite {c : Prop} [Decidable c] {m n : Reading α} :
    Fails (if c then m else n) s e s' ↔ (c ∧ Fails m s e s') ∨ (¬ c ∧ Fails n s e s') := by
  split <;> simp [*]

@[simp] theorem fails_get : ¬ Fails (get : Reading TokenStream) s e s' := by
  intro h
  cases h

/-- Moving on never fails, also at the end of the input. -/
@[simp] theorem fails_advance : ¬ Fails advance s e s' := by
  intro h
  cases h

@[simp] theorem fails_current : ¬ Fails current s e s' := by
  simp [current]

@[simp] theorem fails_here : ¬ Fails here s e s' := by
  simp [here]

@[simp] theorem fails_atMark {m : Mark} : ¬ Fails (atMark m) s e s' := by
  simp [atMark]

/-- A complaint is about the current token and names its place. -/
@[simp] theorem fails_unexpected {expected : Expectation} :
    Fails (unexpected expected : Reading α) s e s' ↔
      e = .unexpected expected s.current.token s.current.position ∧ s' = s := by
  simp only [unexpected, fails_bind, fails_current, fails_here, reads_current, reads_here,
    fails_throw, false_or, and_assoc, exists_and_left, exists_eq_left]

/-- A missing mark is reported at the token that stands in its place. -/
@[simp] theorem fails_take {m : Mark} {expected : Expectation} :
    Fails (take m expected) s e s' ↔ s.current.token.isMark m = false ∧
      e = .unexpected expected s.current.token s.current.position ∧ s' = s := by
  simp only [take, fails_bind, fails_atMark, reads_atMark, fails_ite, fails_advance,
    fails_unexpected, false_or, and_assoc, exists_and_left, exists_eq_left, and_false,
    Bool.not_eq_true]

/-- How a list fails: at an item, where neither a comma nor the end follows one, or further on. -/
theorem fails_separated_succ {close : Mark} {between : Expectation} {read : List α → Reading α}
    {fuel : Nat} {before : List α} :
    Fails (separated close between read (fuel + 1) before) s e s' ↔
      s.current.token.isMark close = false ∧ (Fails (read before) s e s' ∨
        ∃ x t, Reads (read before) s x t ∧
          ((t.current.token.isMark close = true ∧
              Fails (separated close between read fuel (before ++ [x])) t e s') ∨
            (t.current.token.isMark close = false ∧
              (Fails (take .comma between) t e s' ∨ (t.current.token.isMark .comma = true ∧
                Fails (separated close between read fuel (before ++ [x])) t.advance e s'))))) := by
  simp only [separated, fails_bind, fails_atMark, reads_atMark, fails_ite, fails_advance, fails_pure,
    fails_take, reads_take, false_or, and_assoc, exists_and_left, exists_eq_left, and_false,
    exists_false, exists_const, Bool.not_eq_true]

theorem fails_list {close : Mark} {between : Expectation} {read : List α → Reading α} :
    Fails (list close between read) s e s' ↔
      Fails (separated close between read (s.following.length + 1) []) s e s' := by
  simp only [list, fails_bind, fails_get, reads_get, false_or, and_assoc, exists_and_left,
    exists_eq_left]

/-- What is no literal is refused as such, at its own place. -/
theorem fails_literal :
    Fails literal s e s' ↔ (∀ v, ¬ IsLiteral s.current.token v) ∧
      e = .unexpected .literal s.current.token s.current.position ∧ s' = s := by
  simp only [← literal?_eq_some_iff, literal, fails_bind, fails_current, reads_current, false_or,
    and_assoc, exists_and_left, exists_eq_left]
  split
  next v h => simp [h]
  next h => simp [h]

/-- A positional argument behind a named one is refused before its value is looked at. -/
theorem fails_positional {before : List Argument} {p : Position} :
    Fails (argument.positional before p) s e s' ↔
      ((before.any fun b => b.name?.isSome) = true ∧ e = .positionalAfterNamed p ∧ s' = s) ∨
        ((before.any fun b => b.name?.isSome) = false ∧ Fails literal s e s') := by
  simp only [argument.positional, fails_bind, fails_ite, fails_throw, fails_pure, reads_throw,
    false_and, and_false, or_false, exists_false, Bool.not_eq_true]

/-- A named argument is refused if its name is taken, or if no literal follows its sign. Everything
else fails as a positional one. -/
theorem fails_argument {before : List Argument} :
    Fails (argument before) s e s' ↔
      (∃ n, s.current.token = .name n ∧ isSign s.second = true ∧
        (((before.any fun b => b.name? == some n) = true ∧
            e = .duplicateArgument n s.current.position ∧ s' = s.advance.advance) ∨
          ((before.any fun b => b.name? == some n) = false ∧
            Fails literal s.advance.advance e s'))) ∨
      ((∀ n, s.current.token = .name n → isSign s.second = false) ∧
        Fails (argument.positional before s.current.position) s e s') := by
  simp only [argument, fails_bind, fails_here, fails_get, fails_current, reads_here, reads_get,
    reads_current, false_or, and_assoc, exists_and_left, exists_eq_left]
  split
  next n h =>
    simp only [fails_ite, fails_bind, fails_advance, fails_throw, fails_pure, reads_advance,
      reads_throw, exists_eq_left, Bool.not_eq_true, false_and, and_false, false_or,
      or_false, exists_false, exists_const, h, Token.name.injEq, forall_eq', exists_eq_left', isSign]
  next h =>
    have hNone (n : String) : s.current.token ≠ .name n := h n
    simp only [hNone, false_and, exists_false, false_or, false_implies, implies_true, true_and]

/-- A name alone never fails; a call fails in its arguments. -/
theorem fails_segment :
    Fails segment s e s' ↔
      (∃ n, s.current.token = .name n ∧ s.advance.current.token.isMark .leftParen = true ∧
        Fails (list .rightParen .commaOrParen argument) s.advance.advance e s') ∨
      ((∀ n, s.current.token ≠ .name n) ∧
        e = .unexpected .identifier s.current.token s.current.position ∧ s' = s) := by
  simp only [segment, fails_bind, fails_here, fails_current, reads_here, reads_current, false_or,
    and_assoc, exists_and_left, exists_eq_left]
  split
  next n h =>
    simp only [fails_bind, fails_advance, reads_advance, fails_atMark, reads_atMark, fails_ite,
      fails_pure, and_assoc, exists_and_left, exists_eq_left, exists_const, and_false,
      exists_false, or_false, false_or, h, Token.name.injEq, exists_eq_left', ne_eq, forall_eq',
      false_and]
  next h =>
    have hNone (n : String) : s.current.token ≠ .name n := h n
    simp only [fails_unexpected, hNone, false_and, exists_false, false_or, ne_eq, not_false_eq_true,
      implies_true, true_and]

@[simp] theorem fails_integer : ¬ Fails integer? s e s' := by
  simp only [integer?, fails_bind, fails_current, reads_current, false_or, and_assoc,
    exists_and_left, exists_eq_left]
  split <;> simp

/-- A slice fails without its first colon, or for a step of zero, which is reported where it stands. -/
theorem fails_slice {start : Option Int64} {p : Position} :
    Fails (slice start p) s e s' ↔
      Fails (take .colon .colon) s e s' ∨
      (s.current.token.isMark .colon = true ∧ ∃ stop t, Reads integer? s.advance stop t ∧
        t.current.token.isMark .colon = true ∧ ∃ step u, Reads integer? t.advance step u ∧
          step = some 0 ∧ e = .zeroStep t.advance.current.position ∧ s' = u) := by
  simp only [slice, fails_bind, fails_take, reads_take, fails_integer, fails_atMark, reads_atMark,
    fails_ite, fails_advance, reads_advance, fails_here, reads_here, fails_throw, fails_pure,
    reads_throw, false_or, or_false, and_false, and_assoc, exists_and_left, exists_eq_left,
    exists_const, exists_false, Bool.not_eq_true]

theorem fails_indexOrSlice {i : Int64} {p : Position} :
    Fails (indexOrSlice i p) s e s' ↔
      s.advance.current.token.isMark .colon = true ∧ Fails (slice (some i) p) s.advance e s' := by
  simp only [indexOrSlice, fails_bind, fails_advance, reads_advance, fails_atMark, reads_atMark,
    fails_ite, fails_pure, and_assoc, exists_and_left, exists_eq_left, exists_const, false_or,
    or_false, and_false]

/-- Failing to read an index or a slice, in brackets or after a dot. -/
def FailsSubscript (s : TokenStream) (e : QueryError) (s' : TokenStream) : Prop :=
  (∃ i, s.current.token = .integer i ∧ Fails (indexOrSlice i s.current.position) s e s') ∨
    (s.current.token = .mark .colon ∧ Fails (slice none s.current.position) s e s')

/-- Behind a dot, everything but a name, a number or a colon is refused. -/
theorem fails_dottedStep :
    Fails dottedStep s e s' ↔
      (∃ n, s.current.token = .name n ∧ Fails segment s e s') ∨ FailsSubscript s e s' ∨
        ((∀ n, s.current.token ≠ .name n) ∧ (∀ i, s.current.token ≠ .integer i) ∧
          s.current.token ≠ .mark .colon ∧
            e = .unexpected .step s.current.token s.current.position ∧ s' = s) := by
  simp only [dottedStep, FailsSubscript, fails_bind, fails_here, reads_here, fails_current,
    reads_current, false_or, and_assoc, exists_and_left, exists_eq_left]
  split
  next n h => simp [h]
  next i h => simp [h]
  next h => simp [h]
  next hName hInteger hColon =>
    have hNoName (n : String) : s.current.token ≠ .name n := hName n
    have hNoInteger (i : Int64) : s.current.token ≠ .integer i := hInteger i
    have hNoColon : s.current.token ≠ .mark .colon := hColon
    simp [hNoName, hNoInteger, hNoColon]

/-- In brackets, everything but a number or a colon is refused, and so is what follows an index or a
slice in the place of the closing bracket. -/
theorem fails_bracketStep :
    Fails bracketStep s e s' ↔
      FailsSubscript s e s' ∨
        ((∀ i, s.current.token ≠ .integer i) ∧ s.current.token ≠ .mark .colon ∧
          e = .unexpected .indexOrSlice s.current.token s.current.position ∧ s' = s) ∨
        ∃ x t, ReadsSubscript s x t ∧ Fails (take .rightBracket .rightBracket) t e s' := by
  simp only [bracketStep, FailsSubscript, ReadsSubscript, fails_bind, fails_here, reads_here,
    fails_current, reads_current, false_or, and_assoc, exists_and_left, exists_eq_left]
  split
  next i h => simp [h]
  next h => simp [h]
  next hInteger hColon =>
    have hNoInteger (i : Int64) : s.current.token ≠ .integer i := hInteger i
    have hNoColon : s.current.token ≠ .mark .colon := hColon
    simp [hNoInteger, hNoColon]

/-- One round of the loop over a chain fails in the step that it reads, or in a later round. -/
theorem fails_steps_succ {fuel : Nat} {before : List Step} :
    Fails (steps (fuel + 1) before) s e s' ↔
      (s.current.token.isMark .dot = true ∧ (Fails dottedStep s.advance e s' ∨
        ∃ x t, Reads dottedStep s.advance x t ∧ Fails (steps fuel (before ++ [x])) t e s')) ∨
      (s.current.token.isMark .dot = false ∧
        (s.current.token.isMark .leftBracket && opensIndex s.second) = true ∧
          (Fails bracketStep s.advance e s' ∨
            ∃ x t, Reads bracketStep s.advance x t ∧ Fails (steps fuel (before ++ [x])) t e s')) := by
  simp only [steps, fails_bind, fails_atMark, reads_atMark, fails_get, reads_get, fails_ite,
    fails_advance, reads_advance, fails_pure, and_assoc, exists_and_left, exists_eq_left,
    exists_const, Bool.not_eq_true, false_or, or_false, and_false]

/-- A chain fails in its first name or in the loop over its other steps. -/
theorem fails_chain :
    Fails chain s e s' ↔ Fails segment s e s' ∨
      ∃ x t, Reads segment s x t ∧ Fails (steps (t.following.length + 1) [x]) t e s' := by
  simp only [chain, fails_bind, fails_get, reads_get, false_or, and_assoc, exists_and_left,
    exists_eq_left]

/-- Asking for an alias never fails. -/
@[simp] theorem fails_label : ¬ Fails label? s e s' := by
  simp only [label?, fails_bind, fails_current, reads_current, false_or, and_assoc,
    exists_and_left, exists_eq_left]
  split <;> simp

variable {body : Head → Reading Resource}

/-- A resource fails in its chain or in its body, as an alias is never refused. -/
theorem fails_named :
    Fails (named body) s e s' ↔ ∃ label t, Reads label? s label t ∧
      (Fails chain t e s' ∨ ∃ steps u, Reads chain t steps u ∧
        Fails (body ⟨label, steps, s.current.position⟩) u e s') := by
  simp only [named, fails_bind, fails_here, reads_here, fails_label, false_or, and_assoc,
    exists_and_left, exists_eq_left]

/-- A child fails where it cannot be read, or after it has been read with the key of another one. -/
theorem fails_child {before : List Resource} :
    Fails (child body before) s e s' ↔ Fails (named body) s e s' ∨
      ∃ r key first, Reads (named body) s r s' ∧ r.key? = some key ∧
        (before.find? fun x => x.key? == some key) = some first ∧
          e = .duplicateKey key r.position first.position := by
  simp only [child, fails_bind]
  refine or_congr_right ⟨?_, ?_⟩
  · rintro ⟨r, t, hNamed, hRest⟩
    split at hRest
    next => exact absurd hRest fails_pure
    next key hKey =>
      split at hRest
      next first hFirst =>
        obtain ⟨rfl, rfl⟩ := fails_throw.mp hRest
        exact ⟨r, key, first, hNamed, hKey, hFirst, rfl⟩
      next => exact absurd hRest fails_pure
  · rintro ⟨r, key, first, hNamed, hKey, hFirst, rfl⟩
    refine ⟨r, s', hNamed, ?_⟩
    rw [hKey]
    dsimp only
    rw [hFirst]
    exact fails_throw.mpr ⟨rfl, rfl⟩

/-- An item fails in its body or its head, or because it starts with neither a name nor an opening
mark. -/
theorem fails_item {before : List Resource} :
    Fails (item body before) s e s' ↔
      ((s.current.token = .mark .leftBrace ∨ s.current.token = .mark .leftBracket) ∧
        Fails (body ⟨none, [], s.current.position⟩) s e s') ∨
      ((∃ n, s.current.token = .name n) ∧ Fails (named body) s e s') ∨
      (s.current.token ≠ .mark .leftBrace ∧ s.current.token ≠ .mark .leftBracket ∧
        (∀ n, s.current.token ≠ .name n) ∧
          e = .unexpected .listItem s.current.token s.current.position ∧ s' = s) := by
  simp only [item, fails_bind, fails_here, reads_here, fails_current, reads_current, false_or,
    and_assoc, exists_and_left, exists_eq_left]
  split
  next h => simp [h]
  next h => simp [h]
  next n h => simp [h]
  next hBrace hBracket hName =>
    have hNoBrace : s.current.token ≠ .mark .leftBrace := hBrace
    have hNoBracket : s.current.token ≠ .mark .leftBracket := hBracket
    have hNoName (n : String) : s.current.token ≠ .name n := hName n
    simp [hNoBrace, hNoBracket, hNoName]

/-- One level of a body fails in its list or its object, and an empty list fails at once. -/
theorem fails_body_succ {depth : Nat} {h : Head} :
    Fails (Reading.body (depth + 1) h) s e s' ↔
      (s.current.token.isMark .leftBracket = true ∧
        ((s.advance.current.token.isMark .rightBracket = true ∧
            Fails (unexpected .listItem : Reading Unit) s.advance e s') ∨
          (s.advance.current.token.isMark .rightBracket = false ∧
            Fails (list .rightBracket .commaOrBracket (item (Reading.body depth))) s.advance e s'))) ∨
      (s.current.token.isMark .leftBracket = false ∧ s.current.token.isMark .leftBrace = true ∧
        Fails (list .rightBrace .commaOrBrace (child (Reading.body depth))) s.advance e s') := by
  simp only [Reading.body, fails_bind, fails_atMark, reads_atMark, fails_ite, fails_advance,
    reads_advance, fails_pure, reads_unexpected, and_assoc, exists_and_left, exists_eq_left,
    exists_const, Bool.not_eq_true, false_and, exists_false, and_false, false_or, or_false]

/-- A query fails in its chain, at a missing brace, in its block, or because something follows the
block. -/
theorem fails_query :
    Fails query s e s' ↔ Fails chain s e s' ∨ ∃ steps t, Reads chain s steps t ∧
      (Fails (take .leftBrace .leftBrace) t e s' ∨ (t.current.token.isMark .leftBrace = true ∧
        (Fails (list .rightBrace .commaOrBrace
            (child (Reading.body (t.advance.following.length + 1)))) t.advance e s' ∨
          ∃ children u, Reads (list .rightBrace .commaOrBrace
              (child (Reading.body (t.advance.following.length + 1)))) t.advance children u ∧
            u.current.token ≠ .endOfInput ∧
              e = .unexpected .endOfInput u.current.token u.current.position ∧ s' = u))) := by
  simp only [query, fails_bind, fails_here, reads_here, fails_get, reads_get, fails_current,
    reads_current, reads_take, false_or, and_assoc, exists_and_left, exists_eq_left, exists_const]
  refine or_congr_right (exists_congr fun steps => exists_congr fun t => and_congr_right fun _ =>
    or_congr_right (and_congr_right fun _ => or_congr_right (exists_congr fun children =>
      exists_congr fun u => and_congr_right fun _ => ?_)))
  split
  next h => simp [h]
  next h =>
    have hNot : u.current.token ≠ .endOfInput := h
    simp [hNot]

end Reading

end GatedQuery
