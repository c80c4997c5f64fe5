import GatedQuery.Proofs.Grammar.Conditions
import GatedQuery.Proofs.Grammar.Reads

/-! Readers read everything that the grammar derives. Each of them looks one token past what it reads,
so that the token which follows has to be one that does not continue it. -/

namespace GatedQuery

open Grammar Reading TokenStream

namespace Grammar

section Lengths

variable {α : Type} {ts rest : Tokens}

/-- Items that each take a token leave room for as many rounds as a list is read with. -/
theorem Separated.length {item : Tokens → Tokens → α → Prop} {close : Mark} {xs : List α}
    (h : Separated item close ts rest xs)
    (takes : ∀ x ∈ xs, ∀ us vs, item us vs x → vs.length < us.length) :
    xs.length + rest.length < ts.length := by
  induction h with
  | nil => simp
  | last head =>
      have hHead := takes _ List.mem_cons_self _ _ head
      simp only [List.length_cons] at hHead ⊢
      simp only [List.length_nil]
      omega
  | cons head _ ih =>
      have hHead := takes _ List.mem_cons_self _ _ head
      have hTail := ih fun x hx => takes x (List.mem_cons_of_mem _ hx)
      simp only [List.length_cons] at hHead ⊢
      omega

/-- An argument takes at least one token. -/
theorem IsArgument.length {a : Argument} (h : IsArgument ts rest a) : rest.length < ts.length := by
  cases h <;> simp only [List.length_cons] <;> omega

theorem Segment.length {s : Step} (h : Segment ts rest s) : rest.length < ts.length := by
  cases h with
  | member => simp
  | call arguments =>
      have hArguments := arguments.length fun _ _ _ _ ha => ha.length
      simp only [List.length_cons]
      omega

/-- A bound may take nothing. -/
theorem Bound.length {b : Option Int64} (h : Bound ts rest b) : rest.length ≤ ts.length := by
  cases h <;> simp

theorem Stride.length {b : Option Int64} (h : Stride ts rest b) : rest.length ≤ ts.length := by
  cases h with
  | none => exact Nat.le_refl _
  | some bound => exact Nat.le_succ_of_le bound.length

theorem Subscript.length {s : Step} (h : Subscript ts rest s) : rest.length < ts.length := by
  cases h with
  | index => simp
  | slice first second third =>
      have hFirst := first.length
      have hSecond := second.length
      have hThird := third.length
      simp only [List.length_cons] at hFirst ⊢
      omega

/-- Every further step of a chain takes a token. -/
theorem Tail.length {ss : List Step} (h : Tail ts rest ss) : ss.length + rest.length ≤ ts.length := by
  induction h with
  | nil => simp
  | named head _ ih =>
      have hHead := head.length
      simp only [List.length_cons]
      omega
  | dotted head _ ih =>
      have hHead := head.length
      simp only [List.length_cons]
      omega
  | bracket head _ ih =>
      have hHead := head.length
      simp only [List.length_cons] at hHead ⊢
      omega

theorem Chain.length {ss : List Step} (h : Chain ts rest ss) : rest.length < ts.length := by
  cases h with
  | cons head tail =>
      have hHead := head.length
      have hTail := tail.length
      omega

theorem IsHead.length {h : Head} (hHead : IsHead ts rest h) : rest.length < ts.length := by
  cases hHead with
  | plain steps => exact steps.length
  | labelled steps =>
      have hSteps := steps.length
      simp only [List.length_cons]
      omega

theorem Named.length {block : Tokens → Tokens → Head → Resource → Prop} {r : Resource}
    (hNamed : Named block ts rest r) (takes : ∀ us vs h, block us vs h r → vs.length < us.length) :
    rest.length < ts.length := by
  cases hNamed with
  | field head => exact head.length
  | block head inner => exact Nat.lt_trans (takes _ _ _ inner) head.length

theorem Item.length {block : Tokens → Tokens → Head → Resource → Prop} {r : Resource}
    (hItem : Item block ts rest r) (takes : ∀ us vs h, block us vs h r → vs.length < us.length) :
    rest.length < ts.length := by
  cases hItem with
  | named resource => exact resource.length takes
  | bare resource => exact takes _ _ _ resource

/-- A block takes at least its opening mark. -/
theorem Block.length {h : Head} {r : Resource} (hBlock : Block ts rest h r) :
    rest.length < ts.length := by
  induction r using Resource.induct generalizing h ts rest with
  | field => cases hBlock
  | list _ items ih =>
      cases hBlock with
      | list _ inner =>
          have hInner := inner.length fun r hr _ _ hItem => hItem.length fun _ _ _ => ih r hr
          simp only [List.length_cons]
          omega
  | object _ children ih =>
      cases hBlock with
      | object inner =>
          have hInner := inner.length fun r hr _ _ hChild => hChild.length fun _ _ _ => ih r hr
          simp only [List.length_cons]
          omega

end Lengths

end Grammar

namespace Reading

theorem ne_nil_of_length_lt {ts rest : Tokens} (h : rest.length < ts.length) : ts ≠ [] :=
  List.ne_nil_of_length_pos (Nat.zero_lt_of_lt h)

section Separated

variable {α : Type} {item : Tokens → Tokens → α → Prop} {read : List α → Reading α} {close : Mark}
  {between : Expectation}

/-- Reading a list reads all of its items, one after another. The items are read in the presence of
those before them, and each of them is followed by a comma or by the end of the list. -/
theorem reads_separated (hClose : close ≠ .comma) {ts : Tokens} {u : PlacedToken} {rest : Tokens}
    {xs : List α} (h : Separated item close ts (u :: rest) xs)
    (takes : ∀ x ∈ xs, ∀ us vs, item us vs x → vs.length < us.length)
    (opens : ∀ x ∈ xs, ∀ v us vs, item (v :: us) vs x → v.token.isMark close = false)
    (before : List α)
    (reads : ∀ done x todo, xs = done ++ x :: todo → ∀ us v vs, item us (v :: vs) x →
      us.length ≤ ts.length → v.token = .mark close ∨ v.token = .mark .comma →
        Reads (read (before ++ done)) (ofTokens us) x (ofTokens (v :: vs)))
    {fuel : Nat} (hFuel : xs.length < fuel) :
    Reads (separated close between read fuel before) (ofTokens ts) (before ++ xs)
      (ofTokens (u :: rest)) := by
  generalize hLeft : u :: rest = left at h
  induction h generalizing before fuel with
  | nil =>
      subst hLeft
      obtain ⟨fuel, rfl⟩ := Nat.exists_eq_add_of_lt hFuel
      exact reads_separated_succ.mpr (.inl ⟨by simp [Token.isMark], by simp, rfl⟩)
  | @last ts _ p x head =>
      subst hLeft
      obtain ⟨fuel, rfl⟩ : ∃ n, fuel = n + 2 := ⟨fuel - 2, by simp at hFuel; omega⟩
      obtain ⟨v, vs, rfl⟩ := List.exists_cons_of_ne_nil
        (ne_nil_of_length_lt (takes x List.mem_cons_self _ _ head))
      have hRead := reads [] x [] rfl _ _ _ head (Nat.le_refl _) (.inl rfl)
      rw [List.append_nil] at hRead
      refine reads_separated_succ.mpr (.inr ⟨opens x List.mem_cons_self _ _ _ head, x, _, hRead,
        .inl ⟨by simp [Token.isMark], ?_⟩⟩)
      exact reads_separated_succ.mpr (.inl ⟨by simp [Token.isMark], rfl, rfl⟩)
  | @cons ts us _ p x xs head tail ih =>
      subst hLeft
      obtain ⟨fuel, rfl⟩ := Nat.exists_eq_add_of_lt hFuel
      have hHead := takes x List.mem_cons_self _ _ head
      have takesRest (y : α) (hy : y ∈ xs) := takes y (List.mem_cons_of_mem x hy)
      have hTail := tail.length takesRest
      obtain ⟨v, vs, rfl⟩ := List.exists_cons_of_ne_nil (ne_nil_of_length_lt hHead)
      have hRead := reads [] x xs rfl _ _ _ head (Nat.le_refl _) (.inr rfl)
      rw [List.append_nil] at hRead
      refine reads_separated_succ.mpr (.inr ⟨opens x List.mem_cons_self _ _ _ head, x, _, hRead,
        .inr ⟨by simp [Token.isMark, hClose.symm], by simp [Token.isMark], ?_⟩⟩)
      have hUs : us ≠ [] := List.ne_nil_of_length_pos (by omega)
      rw [ofTokens_advance hUs]
      have hLater : xs.length < 0 + xs.length + 1 + fuel := by omega
      have hRest := ih takesRest (fun y hy => opens y (List.mem_cons_of_mem x hy)) (before ++ [x])
        ?_ hLater rfl
      · simpa using hRest
      · intro done y todo hXs us' w ws hItem hLength hEnd
        have hLater := reads (x :: done) y todo (by rw [hXs]; rfl) us' w ws hItem ?_ hEnd
        · simpa using hLater
        · simp only [List.length_cons] at hHead ⊢
          omega

/-- A list is read as the grammar derives it if each item is: no item starts with the closing mark,
and each one is read after any that came before it. -/
theorem reads_list_of_separated (hClose : close ≠ .comma) {ts : Tokens} {u : PlacedToken}
    {rest : Tokens} {xs : List α} (h : Separated item close ts (u :: rest) xs)
    (takes : ∀ x ∈ xs, ∀ us vs, item us vs x → vs.length < us.length)
    (opens : ∀ x ∈ xs, ∀ v us vs, item (v :: us) vs x → v.token.isMark close = false)
    (reads : ∀ done x todo, xs = done ++ x :: todo → ∀ us v vs, item us (v :: vs) x →
      us.length ≤ ts.length → v.token = .mark close ∨ v.token = .mark .comma →
        Reads (read done) (ofTokens us) x (ofTokens (v :: vs))) :
    Reads (list close between read) (ofTokens ts) xs (ofTokens (u :: rest)) := by
  have hLength := h.length takes
  obtain ⟨t, ts, rfl⟩ := List.exists_cons_of_ne_nil
    (List.ne_nil_of_length_pos (l := ts) (by omega))
  simp only [List.length_cons] at hLength
  have hFuel : xs.length < ts.length + 1 := by omega
  exact reads_list.mpr (reads_separated hClose h takes opens [] reads hFuel)

end Separated

/-- Tokens that do not continue a step. -/
structure EndsStep (t : Token) : Prop where
  paren : t.isMark .leftParen = false
  colon : t.isMark .colon = false
  integer : ∀ i, t ≠ .integer i

/-- Streams that do not continue a chain. -/
structure EndsChain (s : TokenStream) : Prop where
  step : EndsStep s.current.token
  dot : s.current.token.isMark .dot = false
  subscript : (s.current.token.isMark .leftBracket && opensIndex s.second) = false

/-- All marks but a parenthesis and a colon end a step. -/
theorem endsStep_mark {m : Mark} (hParen : m ≠ .leftParen) (hColon : m ≠ .colon) :
    EndsStep (.mark m) :=
  ⟨beq_eq_false_iff_ne.mpr hParen, beq_eq_false_iff_ne.mpr hColon, fun _ h => by cases h⟩

theorem isArgument_opens {v : PlacedToken} {us vs : Tokens} {a : Argument}
    (h : IsArgument (v :: us) vs a) : v.token.isMark .rightParen = false := by
  cases h with
  | positional value =>
      cases ht : v.token with
      | mark m =>
          rw [ht] at value
          cases value
      | _ => rfl
  | named => rfl

/-- An argument in an ordered list is read in the presence of those before it. -/
theorem reads_argument_of {done todo : List Argument} {a : Argument}
    (ordered : Argument.Ordered (done ++ a :: todo)) {ts : Tokens} {u : PlacedToken} {rest : Tokens}
    (h : IsArgument ts (u :: rest) a) (hEnd : isSign u.token = false) :
    Reads (argument done) (ofTokens ts) a (ofTokens (u :: rest)) := by
  have hOrder := (List.pairwise_append.mp ordered.namesLast).2.2
  have hDistinct := ordered.distinct
  rw [List.filterMap_append] at hDistinct
  apply reads_argument.mpr
  cases h with
  | @positional t _ v value =>
      refine .inr ⟨fun _ _ => hEnd, ?_, v, value, rfl, rfl⟩
      apply List.any_eq_false.mpr
      intro b hb
      have hNone := hOrder b hb _ List.mem_cons_self rfl
      simp [hNone]
  | @named n p sign t _ v marked value =>
      refine .inl ⟨n, rfl, ?_, ?_, v, value, rfl, rfl⟩
      · rcases marked with hSign | hSign <;> simp [hSign, isSign, Token.isMark]
      · apply List.any_eq_false.mpr
        intro b hb hSame
        have hName : b.name? = some n := eq_of_beq hSame
        have hMember : n ∈ done.filterMap Argument.name? := List.mem_filterMap.mpr ⟨b, hb, hName⟩
        exact (List.nodup_append.mp hDistinct).2.2 n hMember n (by simp [Argument.name?]) rfl

/-- A derived name or call is read as such if no parenthesis follows it. -/
theorem reads_segment_of {ts : Tokens} {u : PlacedToken} {rest : Tokens} {x : Step}
    (h : Segment ts (u :: rest) x) (admissible : x.Admissible)
    (hEnd : u.token.isMark .leftParen = false) :
    Reads segment (ofTokens ts) x (ofTokens (u :: rest)) := by
  apply reads_segment.mpr
  cases h with
  | @member n p => exact ⟨n, rfl, .inr ⟨hEnd, rfl, rfl⟩⟩
  | @call n p q ts _ args arguments =>
      refine ⟨n, rfl, .inl ⟨rfl, args, _, ?_, rfl, rfl⟩⟩
      have hLength := arguments.length fun _ _ _ _ ha => ha.length
      have hTs : ts ≠ [] := List.ne_nil_of_length_pos (by omega)
      rw [ofTokens_cons_advance, ofTokens_advance hTs]
      refine reads_list_of_separated (by decide) arguments (fun _ _ _ _ ha => ha.length)
        (fun _ _ _ _ _ ha => isArgument_opens ha) ?_
      rintro done a todo rfl us v vs ha _ hv
      apply reads_argument_of admissible ha
      rcases hv with hv | hv <;> rw [hv] <;> rfl

/-- A derived bound is read as such if no further number follows it. -/
theorem reads_integer_of {ts : Tokens} {u : PlacedToken} {rest : Tokens} {b : Option Int64}
    (h : Bound ts (u :: rest) b) (hEnd : ∀ i, u.token ≠ .integer i) :
    Reads integer? (ofTokens ts) b (ofTokens (u :: rest)) := by
  apply reads_integer.mpr
  cases h with
  | none => exact .inr ⟨hEnd, rfl, rfl⟩
  | @some n p => exact .inl ⟨n, rfl, rfl, rfl⟩

/-- A derived slice is read as such, from its first colon on. -/
theorem reads_slice_of {start stop step : Option Int64} {p q : Position} {us vs : Tokens}
    {u : PlacedToken} {rest : Tokens} (second : Bound us vs stop) (third : Stride vs (u :: rest) step)
    (moves : step ≠ some 0) (hEnd : EndsStep u.token) :
    Reads (slice start p) (ofTokens (⟨.mark .colon, q⟩ :: us)) (.slice start stop step p)
      (ofTokens (u :: rest)) := by
  refine reads_slice.mpr ⟨rfl, ?_⟩
  have hSecond := second.length
  have hThird := third.length
  simp only [List.length_cons] at hThird
  have hUs : us ≠ [] := List.ne_nil_of_length_pos (by omega)
  rw [ofTokens_advance hUs]
  cases third with
  | none => exact ⟨stop, _, reads_integer_of second hEnd.integer, .inr ⟨hEnd.colon, rfl, rfl⟩⟩
  | @some r ws _ _ bound =>
      have hBound := bound.length
      simp only [List.length_cons] at hBound
      have hWs : ws ≠ [] := List.ne_nil_of_length_pos (by omega)
      refine ⟨stop, _, reads_integer_of second (fun _ h => by cases h), .inl ⟨rfl, step, _, ?_, moves,
        rfl, rfl⟩⟩
      rw [ofTokens_advance hWs]
      exact reads_integer_of bound hEnd.integer

theorem readsSubscript_of {ts : Tokens} {u : PlacedToken} {rest : Tokens} {x : Step}
    (h : Subscript ts (u :: rest) x) (admissible : x.Admissible) (hEnd : EndsStep u.token) :
    ReadsSubscript (ofTokens ts) x (ofTokens (u :: rest)) := by
  cases h with
  | @index i p => exact .inl ⟨i, rfl, reads_indexOrSlice.mpr (.inr ⟨hEnd.colon, rfl, rfl⟩)⟩
  | slice first second third =>
      cases first with
      | none => exact .inr ⟨rfl, reads_slice_of second third admissible hEnd⟩
      | @some n p =>
          exact .inl ⟨n, rfl, reads_indexOrSlice.mpr (.inl ⟨rfl,
            reads_slice_of second third admissible hEnd⟩)⟩

/-- The first token of an index or a slice is one that opens it in brackets. -/
theorem subscript_opens {t : PlacedToken} {ts rest : Tokens} {x : Step}
    (h : Subscript (t :: ts) rest x) : opensIndex t.token = true := by
  cases h with
  | index => rfl
  | slice first _ _ =>
      cases first with
      | none => rfl
      | some => rfl

/-- Steps that follow another one do not continue it. -/
theorem endsStep_of_tail {ts : Tokens} {u : PlacedToken} {rest : Tokens} {xs : List Step}
    (h : Tail ts (u :: rest) xs) (hEnd : EndsStep u.token) :
    ∃ t us, ts = t :: us ∧ EndsStep t.token := by
  cases h with
  | nil => exact ⟨u, rest, rfl, hEnd⟩
  | named => exact ⟨_, _, rfl, endsStep_mark (by decide) (by decide)⟩
  | dotted => exact ⟨_, _, rfl, endsStep_mark (by decide) (by decide)⟩
  | bracket => exact ⟨_, _, rfl, endsStep_mark (by decide) (by decide)⟩

/-- The loop over a chain reads a derived tail, given more fuel than there are steps. -/
theorem reads_steps_of {ts : Tokens} {u : PlacedToken} {rest : Tokens} {xs : List Step}
    (h : Tail ts (u :: rest) xs) (hEnd : EndsChain (ofTokens (u :: rest)))
    (admissible : ∀ x ∈ xs, x.Admissible) (before : List Step) {fuel : Nat}
    (hFuel : xs.length < fuel) :
    Reads (steps fuel before) (ofTokens ts) (before ++ xs) (ofTokens (u :: rest)) := by
  induction xs generalizing ts before fuel with
  | nil =>
      obtain ⟨fuel, rfl⟩ := Nat.exists_eq_add_of_lt hFuel
      cases h
      refine reads_steps_succ.mpr (.inr ⟨hEnd.dot, .inr ⟨hEnd.subscript, by simp, rfl⟩⟩)
  | cons x xs ih =>
      obtain ⟨hx, hxs⟩ := List.forall_mem_cons.mp admissible
      obtain ⟨fuel, rfl⟩ : ∃ n, fuel = n + 1 := ⟨fuel - 1, by omega⟩
      have hStep {us : Tokens} (tail : Tail us (u :: rest) xs) :
          Reads (steps fuel (before ++ [x])) (ofTokens us) (before ++ x :: xs)
            (ofTokens (u :: rest)) := by
        have hRest := ih tail hxs (before ++ [x]) (Nat.lt_of_succ_lt_succ hFuel)
        simpa using hRest
      cases h with
      | @named p ts us _ _ _ head tail =>
          obtain ⟨v, vs, rfl, hNext⟩ := endsStep_of_tail tail hEnd.step
          refine reads_steps_succ.mpr (.inl ⟨rfl, x, ofTokens (v :: vs), ?_, hStep tail⟩)
          rw [ofTokens_advance (ne_nil_of_length_lt head.length)]
          have hSegment := reads_segment_of head hx hNext.paren
          refine reads_dottedStep.mpr (.inl ?_)
          cases head with
          | @member n p => exact ⟨n, rfl, hSegment⟩
          | @call n p => exact ⟨n, rfl, hSegment⟩
      | @dotted p ts us _ _ _ head tail =>
          obtain ⟨v, vs, rfl, hNext⟩ := endsStep_of_tail tail hEnd.step
          refine reads_steps_succ.mpr (.inl ⟨rfl, x, ofTokens (v :: vs), ?_, hStep tail⟩)
          rw [ofTokens_advance (ne_nil_of_length_lt head.length)]
          exact reads_dottedStep.mpr (.inr (readsSubscript_of head hx hNext))
      | @bracket p q ts us _ _ _ head tail =>
          obtain ⟨v, vs, rfl, _⟩ := endsStep_of_tail tail hEnd.step
          obtain ⟨t, ts, rfl⟩ := List.exists_cons_of_ne_nil (ne_nil_of_length_lt head.length)
          refine reads_steps_succ.mpr (.inr ⟨rfl, .inl ⟨?_, x, ofTokens (v :: vs), ?_, hStep tail⟩⟩)
          · rw [ofTokens_cons_second, subscript_opens head]
            rfl
          · refine reads_bracketStep.mpr ⟨_, readsSubscript_of head hx ?_, rfl, rfl⟩
            exact endsStep_mark (by decide) (by decide)

/-- A derived chain is read as such if what is left does not continue it. -/
theorem reads_chain_of {ts : Tokens} {u : PlacedToken} {rest : Tokens} {xs : List Step}
    (h : Chain ts (u :: rest) xs) (hEnd : EndsChain (ofTokens (u :: rest)))
    (admissible : ∀ x ∈ xs, x.Admissible) :
    Reads chain (ofTokens ts) xs (ofTokens (u :: rest)) := by
  cases h with
  | @cons _ us x xs head tail =>
      obtain ⟨hx, hxs⟩ := List.forall_mem_cons.mp admissible
      have hLength := tail.length
      obtain ⟨v, vs, rfl, hNext⟩ := endsStep_of_tail tail hEnd.step
      refine reads_chain.mpr ⟨x, _, reads_segment_of head hx hNext.paren, ?_⟩
      simp only [List.length_cons] at hLength
      exact reads_steps_of tail hEnd hxs [x] (by simp only [ofTokens_cons_following]; omega)

/-- Tokens that do not continue a resource. -/
def EndsResource (t : Token) : Prop :=
  t = .mark .comma ∨ t = .mark .rightBracket ∨ t = .mark .rightBrace

/-- What ends a resource also ends its chain. -/
theorem EndsResource.endsChain {u : PlacedToken} (h : EndsResource u.token) (rest : Tokens) :
    EndsChain (ofTokens (u :: rest)) := by
  rcases h with h | h | h <;>
    exact ⟨by rw [ofTokens_cons_current, h]; exact endsStep_mark (by decide) (by decide),
      by rw [ofTokens_cons_current, h]; rfl, by rw [ofTokens_cons_current, h]; rfl⟩

/-- A chain starts with a name that no colon follows. -/
theorem chain_starts {t : PlacedToken} {ts : Tokens} {u : PlacedToken} {rest : Tokens}
    {xs : List Step} (h : Chain (t :: ts) (u :: rest) xs) (hEnd : EndsStep u.token) :
    ∃ n, t.token = .name n ∧ (ofTokens (t :: ts)).second.isMark .colon = false := by
  cases h with
  | cons head tail =>
      obtain ⟨v, vs, rfl, hNext⟩ := endsStep_of_tail tail hEnd
      cases head with
      | @member n => exact ⟨n, rfl, hNext.colon⟩
      | @call n => exact ⟨n, rfl, rfl⟩

theorem isHead_starts {ts : Tokens} {rest : Tokens} {h : Head} (hHead : IsHead ts rest h) :
    ∃ n p us, ts = ⟨.name n, p⟩ :: us := by
  cases hHead with
  | plain steps =>
      cases steps with
      | cons head _ => cases head <;> exact ⟨_, _, _, rfl⟩
  | labelled => exact ⟨_, _, _, rfl⟩

theorem named_starts {block : Tokens → Tokens → Head → Resource → Prop} {ts rest : Tokens}
    {r : Resource} (h : Named block ts rest r) : ∃ n p us, ts = ⟨.name n, p⟩ :: us := by
  cases h with
  | field head => exact isHead_starts head
  | block head _ => exact isHead_starts head

theorem block_starts {ts rest : Tokens} {h : Head} {r : Resource} (hBlock : Block ts rest h r) :
    ∃ t us, ts = t :: us ∧ (t.token = .mark .leftBrace ∨ t.token = .mark .leftBracket) := by
  cases hBlock with
  | list => exact ⟨_, _, rfl, .inr rfl⟩
  | object => exact ⟨_, _, rfl, .inl rfl⟩

/-- What an item of a list can start with is neither the end of the list nor an index. -/
theorem item_starts {v : PlacedToken} {us rest : Tokens} {r : Resource}
    (h : Item Block (v :: us) rest r) :
    v.token.isMark .rightBracket = false ∧ opensIndex v.token = false := by
  cases h with
  | named resource =>
      obtain ⟨n, p, us, hStart⟩ := named_starts resource
      cases hStart
      exact ⟨rfl, rfl⟩
  | bare resource =>
      obtain ⟨t, us, hStart, hToken⟩ := block_starts resource
      cases hStart
      rcases hToken with hToken | hToken <;> rw [hToken] <;> exact ⟨rfl, rfl⟩

/-- The first token of a list of items neither closes the list nor opens an index, which is how a
list is told from a bracketed step. -/
theorem separated_item_starts {t : PlacedToken} {ts rest : Tokens} {items : List Resource}
    (h : Separated (Item Block) .rightBracket (t :: ts) rest items) (some : items ≠ []) :
    t.token.isMark .rightBracket = false ∧ opensIndex t.token = false := by
  cases h with
  | nil => exact absurd rfl some
  | last head => exact item_starts head
  | cons head _ => exact item_starts head

theorem separated_length {ts rest : Tokens} {items : List Resource}
    (h : Separated (Item Block) .rightBracket ts rest items) : rest.length < ts.length := by
  have hLength := h.length fun _ _ _ _ hItem => hItem.length fun _ _ _ => Block.length
  omega

/-- A block ends the chain of the head above it. -/
theorem block_endsChain {ts : Tokens} {u : PlacedToken} {rest : Tokens} {h : Head} {r : Resource}
    (hBlock : Block ts (u :: rest) h r) : EndsChain (ofTokens ts) := by
  cases hBlock with
  | list some inner =>
      obtain ⟨t, ts, rfl⟩ := List.exists_cons_of_ne_nil
        (ne_nil_of_length_lt (separated_length inner))
      refine ⟨endsStep_mark (by decide) (by decide), rfl, ?_⟩
      rw [ofTokens_cons_second, (separated_item_starts inner some).2, Bool.and_false]
  | object => exact ⟨endsStep_mark (by decide) (by decide), rfl, rfl⟩

section Resources

variable {read : Head → Reading Resource} {ts : Tokens} {u : PlacedToken} {rest : Tokens}

/-- Once a head is read as it is derived, the resource is whatever its body reader makes of it. -/
theorem reads_head_of {h : Head} (hHead : IsHead ts (u :: rest) h)
    (hEnd : EndsChain (ofTokens (u :: rest))) (admissible : ∀ x ∈ h.chain, x.Admissible)
    {r : Resource} {s : TokenStream} (follow : Reads (read h) (ofTokens (u :: rest)) r s) :
    Reads (named read) (ofTokens ts) r s := by
  apply reads_named.mpr
  cases hHead with
  | plain steps =>
      obtain ⟨n, hName, hSecond⟩ := chain_starts steps hEnd.step
      refine ⟨none, _, reads_label.mpr (.inr ⟨fun _ _ => hSecond, rfl, rfl⟩), _, _,
        reads_chain_of steps hEnd admissible, follow⟩
  | @labelled n p q ts _ _ steps =>
      refine ⟨some n, _, reads_label.mpr (.inl ⟨n, rfl, rfl, rfl, rfl⟩), _, _, ?_, follow⟩
      rw [ofTokens_cons_advance, ofTokens_advance (ne_nil_of_length_lt steps.length)]
      exact reads_chain_of steps hEnd admissible

/-- A derived resource is read as such if its block is, or if it is a field and nothing opens a
block. -/
theorem reads_named_of {r : Resource} (h : Named Block ts (u :: rest) r) (hEnd : EndsResource u.token)
    (admissible : ∀ x ∈ r.head.chain, x.Admissible)
    (field : ∀ h, r = .field h → Reads (read h) (ofTokens (u :: rest)) r (ofTokens (u :: rest)))
    (block : ∀ us h, Block us (u :: rest) h r → us.length ≤ ts.length →
      Reads (read h) (ofTokens us) r (ofTokens (u :: rest))) :
    Reads (named read) (ofTokens ts) r (ofTokens (u :: rest)) := by
  cases h with
  | field head => exact reads_head_of head (hEnd.endsChain rest) admissible (field _ rfl)
  | @block t ts us _ h _ head inner =>
      obtain ⟨v, vs, rfl, _⟩ := block_starts inner
      have hLength := head.length
      refine reads_head_of head (block_endsChain inner) ?_ (block _ h inner (Nat.le_of_lt hLength))
      rw [← inner.head]
      exact admissible

end Resources

/-- A child of an object with different keys is read in the presence of those before it. -/
theorem reads_child_of {read : Head → Reading Resource} {s s' : TokenStream}
    {done todo : List Resource} {r : Resource}
    (keys : Resource.DistinctKeys (done ++ r :: todo)) (h : Reads (named read) s r s') :
    Reads (child read done) s r s' := by
  refine reads_child.mpr ⟨h, fun key hKey x hx hSame => ?_⟩
  unfold Resource.DistinctKeys at keys
  rw [List.filterMap_append] at keys
  have hMember : key ∈ done.filterMap Resource.key? := List.mem_filterMap.mpr ⟨x, hx, hSame⟩
  exact (List.nodup_append.mp keys).2.2 key hMember key (by simp [hKey]) rfl

theorem reads_body_field {depth : Nat} {h : Head} {u : PlacedToken} (hEnd : EndsResource u.token)
    (rest : Tokens) :
    Reads (Reading.body (depth + 1) h) (ofTokens (u :: rest)) (.field h) (ofTokens (u :: rest)) := by
  refine reads_body_succ.mpr (.inr ?_)
  rcases hEnd with hEnd | hEnd | hEnd <;>
    exact ⟨by rw [ofTokens_cons_current, hEnd]; rfl, .inr ⟨by rw [ofTokens_cons_current, hEnd]; rfl,
      rfl, rfl⟩⟩

/-- Blocks that derive a tree are read at every depth that is not less than the number of their
tokens. -/
def ReadsBlocks (r : Resource) : Prop :=
  ∀ {ts : Tokens} {u : PlacedToken} {rest : Tokens} {h : Head}, Block ts (u :: rest) h r →
    ∀ {depth : Nat}, ts.length ≤ depth →
      Reads (Reading.body depth h) (ofTokens ts) r (ofTokens (u :: rest))

/-- A resource whose blocks are read as they are derived is read as it is derived. -/
theorem ReadsBlocks.named {r : Resource} (blocks : ReadsBlocks r) (admissible : r.Admissible)
    {ts : Tokens} {u : PlacedToken} {rest : Tokens} (h : Named Block ts (u :: rest) r)
    (hEnd : EndsResource u.token) {depth : Nat} (hDepth : ts.length ≤ depth) :
    Reads (Reading.named (Reading.body depth)) (ofTokens ts) r (ofTokens (u :: rest)) := by
  obtain ⟨n, p, us, rfl⟩ := named_starts h
  obtain ⟨depth, rfl⟩ : ∃ d, depth = d + 1 := ⟨depth - 1, by simp at hDepth; omega⟩
  refine reads_named_of h hEnd admissible.steps ?_ ?_
  · rintro head rfl
    exact reads_body_field hEnd rest
  · exact fun vs head hBlock hLength => blocks hBlock (Nat.le_trans hLength hDepth)

/-- The same of an item of a list, which may be a block without a head. -/
theorem ReadsBlocks.item {r : Resource} (blocks : ReadsBlocks r) (admissible : r.Admissible)
    {ts : Tokens} {u : PlacedToken} {rest : Tokens} (h : Item Block ts (u :: rest) r)
    (hEnd : EndsResource u.token) {depth : Nat} (hDepth : ts.length ≤ depth)
    (before : List Resource) :
    Reads (Reading.item (Reading.body depth) before) (ofTokens ts) r (ofTokens (u :: rest)) := by
  apply reads_item.mpr
  cases h with
  | named resource =>
      have hRead := blocks.named admissible resource hEnd hDepth
      obtain ⟨n, p, us, rfl⟩ := named_starts resource
      exact .inr ⟨⟨n, rfl⟩, hRead⟩
  | bare resource =>
      have hRead := blocks resource hDepth
      obtain ⟨t, us, hStart, hToken⟩ := block_starts resource
      cases hStart
      exact .inl ⟨hToken, hRead⟩

/-- The children of an object are read one after another, as no two of them share a key. -/
theorem reads_children_of {children : List Resource} (keys : Resource.DistinctKeys children)
    (parts : ∀ r ∈ children, r.Admissible) (blocks : ∀ r ∈ children, ReadsBlocks r) {ts : Tokens}
    {u : PlacedToken} {rest : Tokens}
    (h : Separated (Named Block) .rightBrace ts (u :: rest) children) {depth : Nat}
    (hDepth : ts.length ≤ depth) :
    Reads (list .rightBrace .commaOrBrace (child (Reading.body depth))) (ofTokens ts) children
      (ofTokens (u :: rest)) := by
  refine reads_list_of_separated (by decide) h
    (fun _ _ _ _ hChild => hChild.length fun _ _ _ => Block.length) ?_ ?_
  · intro r _ v us vs hChild
    obtain ⟨n, p, ws, hStart⟩ := named_starts hChild
    cases hStart
    rfl
  · rintro done r todo rfl us v vs hChild hShort hv
    have hMember : r ∈ done ++ r :: todo := by simp
    refine reads_child_of keys (ReadsBlocks.named (blocks r hMember) (parts r hMember) hChild ?_ ?_)
    · exact hv.elim (fun h => .inr (.inr h)) .inl
    · exact Nat.le_trans hShort hDepth

/-- Every admissible tree is read from the blocks that derive it. The induction is on the tree, and
the depth that is left covers it because each level takes a token. -/
theorem reads_block_of {r : Resource} (admissible : r.Admissible) : ReadsBlocks r := by
  induction r using Resource.induct with
  | field =>
      intro ts u rest h hBlock
      cases hBlock
  | list _ items ih =>
      intro ts u rest h hBlock depth hDepth
      cases hBlock with
      | @list _ p ts _ _ some inner =>
          cases admissible with
          | list _ parts =>
              obtain ⟨depth, rfl⟩ : ∃ d, depth = d + 1 := ⟨depth - 1, by simp at hDepth; omega⟩
              have hLength := separated_length inner
              obtain ⟨t, ts, rfl⟩ := List.exists_cons_of_ne_nil (ne_nil_of_length_lt hLength)
              refine reads_body_succ.mpr (.inl ⟨rfl, ?_, items, _, ?_, rfl, rfl⟩)
              · exact (separated_item_starts inner some).1
              · rw [ofTokens_cons_advance]
                refine reads_list_of_separated (by decide) inner
                  (fun _ _ _ _ hItem => hItem.length fun _ _ _ => Block.length)
                  (fun _ _ _ _ _ hItem => (item_starts hItem).1) ?_
                rintro done r todo rfl us v vs hItem hShort hv
                have hMember : r ∈ done ++ r :: todo := by simp
                refine ReadsBlocks.item (ih r hMember (parts r hMember)) (parts r hMember) hItem ?_ ?_ done
                · exact hv.elim (fun h => .inr (.inl h)) .inl
                · exact Nat.le_trans hShort (Nat.le_of_succ_le_succ hDepth)
  | object _ children ih =>
      intro ts u rest h hBlock depth hDepth
      cases hBlock with
      | @object _ p ts _ _ inner =>
          cases admissible with
          | object _ keys parts =>
              obtain ⟨depth, rfl⟩ : ∃ d, depth = d + 1 := ⟨depth - 1, by simp at hDepth; omega⟩
              have hLength := inner.length fun _ _ _ _ hChild => hChild.length fun _ _ _ => Block.length
              have hTs : ts ≠ [] := List.ne_nil_of_length_pos (by omega)
              refine reads_body_succ.mpr (.inr ⟨rfl, .inl ⟨rfl, children, _, ?_, rfl, rfl⟩⟩)
              rw [ofTokens_advance hTs]
              exact reads_children_of keys parts (fun r hr => ih r hr (parts r hr)) inner
                (Nat.le_of_succ_le_succ hDepth)

/-- Every derived query whose nodes are admissible is read, whatever stands behind the end of the
input. -/
theorem reads_query_of {ts : Tokens} {q : Query} (h : IsQuery ts q) (admissible : q.Admissible) :
    ∃ s, Reads query (ofTokens ts) q s := by
  cases h with
  | @mk t ts us p r steps children hSteps inner =>
      have hLength := inner.length fun _ _ _ _ hChild => hChild.length fun _ _ _ => Block.length
      obtain ⟨v, vs, rfl⟩ := List.exists_cons_of_ne_nil
        (List.ne_nil_of_length_pos (l := us) (by omega))
      have hEnd : EndsChain (ofTokens (⟨.mark .leftBrace, p⟩ :: v :: vs)) :=
        ⟨endsStep_mark (by decide) (by decide), rfl, rfl⟩
      refine ⟨_, reads_query.mpr ⟨steps, _, reads_chain_of hSteps hEnd admissible.steps, rfl, children,
        ofTokens [⟨.endOfInput, r⟩], ?_, rfl, rfl, rfl⟩⟩
      rw [ofTokens_cons_advance]
      exact reads_children_of admissible.keys admissible.parts
        (fun r hr => reads_block_of (admissible.parts r hr)) inner (Nat.le_refl _)

end Reading

end GatedQuery
