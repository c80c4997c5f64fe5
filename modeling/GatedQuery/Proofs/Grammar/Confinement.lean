import GatedQuery.Proofs.Grammar.Soundness

/-! The end of the input confines readers. None of them looks at anything behind it, so that a query
is read in the same way whether or not other tokens follow there. Every item, step and resource
takes a token, so that the bounds on the work of a reader, which count the tokens of the whole
stream, do not matter either. -/

namespace GatedQuery

open Grammar Reading TokenStream

namespace Reading

variable {α β : Type} {more ts us : Tokens} {k n : Nat}

/-- Two runs that end in the same way, the first one at tokens `ts` and the second one at the same
tokens with `more` after them. What they leave is at the end of `ts`, and after a result it has at
most `k` tokens. -/
inductive SameEnd (more ts : Tokens) (k : Nat) :
    Except QueryError α × TokenStream → Except QueryError α × TokenStream → Prop where
  | ok {x : α} {rest : Tokens} (left : rest <:+ ts) (ended : Ended rest) (short : rest.length ≤ k) :
      SameEnd more ts k (.ok x, ofTokens rest) (.ok x, ofTokens (rest ++ more))
  | error {e : QueryError} {rest : Tokens} (left : rest <:+ ts) (ended : Ended rest) :
      SameEnd more ts k (.error e, ofTokens rest) (.error e, ofTokens (rest ++ more))

/-- What ends in the same way behind some tokens does so from there on. -/
theorem SameEnd.mono {r r' : Except QueryError α × TokenStream} (h : SameEnd more us n r r')
    (suffix : us <:+ ts) (le : n ≤ k) : SameEnd more ts k r r' := by
  cases h with
  | ok left ended short => exact .ok (left.trans suffix) ended (Nat.le_trans short le)
  | error left ended => exact .error (left.trans suffix) ended

/-- Two readers that end in the same way, the first one at tokens `ts` and the second one at the
same tokens with `more` after them. -/
def Confined (more : Tokens) (k : Nat) (m m' : Reading α) (ts : Tokens) : Prop :=
  SameEnd more ts k (m.run.run (ofTokens ts)) (m'.run.run (ofTokens (ts ++ more)))

namespace Confined

variable {m m' : Reading α} {f f' : α → Reading β}

/-- A result that takes nothing leaves the tokens as they are. -/
theorem pure (ended : Ended ts) (short : ts.length ≤ k) (x : α) :
    Confined more k (pure x) (pure x) ts :=
  .ok (List.suffix_refl ts) ended short

/-- A failure does not depend on what follows the end of the input. -/
theorem throw (ended : Ended ts) (e : QueryError) :
    Confined more k (throw e : Reading α) (throw e) ts :=
  .error (List.suffix_refl ts) ended

theorem mono (h : Confined more n m m' ts) (le : n ≤ k) : Confined more k m m' ts :=
  SameEnd.mono h (List.suffix_refl ts) le

/-- What holds of two runs that go on in the same way, and of two that end with the same problem,
holds of the runs that start with two readers that end in the same way. -/
theorem bind_run {P : Except QueryError β × TokenStream → Except QueryError β × TokenStream → Prop}
    (first : Confined more n m m' ts)
    (error : ∀ e rest, rest <:+ ts → Ended rest →
      P (.error e, ofTokens rest) (.error e, ofTokens (rest ++ more)))
    (next : ∀ x us, us <:+ ts → Ended us → us.length ≤ n →
      P ((f x).run.run (ofTokens us)) ((f' x).run.run (ofTokens (us ++ more)))) :
    P ((m >>= f).run.run (ofTokens ts)) ((m' >>= f').run.run (ofTokens (ts ++ more))) := by
  rw [ExceptT.run_bind, StateT.run_bind, ExceptT.run_bind, StateT.run_bind]
  unfold Confined at first
  generalize m.run.run (ofTokens ts) = r at first
  generalize m'.run.run (ofTokens (ts ++ more)) = r' at first
  cases first with
  | ok left ended short => exact next _ _ left ended short
  | error left ended => exact error _ _ left ended

theorem get_run {P : Except QueryError β × TokenStream → Except QueryError β × TokenStream → Prop}
    {f f' : TokenStream → Reading β}
    (h : P ((f (ofTokens ts)).run.run (ofTokens ts))
      ((f' (ofTokens (ts ++ more))).run.run (ofTokens (ts ++ more)))) :
    P ((get >>= f).run.run (ofTokens ts)) ((get >>= f').run.run (ofTokens (ts ++ more))) := h

/-- Two readers one after the other stay within the tokens if the second one does from wherever the
first one stops. -/
theorem bind (first : Confined more n m m' ts)
    (next : ∀ x us, Ended us → us.length ≤ n → Confined more k (f x) (f' x) us) :
    Confined more k (m >>= f) (m' >>= f') ts :=
  first.bind_run (P := SameEnd more ts k) (fun _ _ left ended => .error left ended)
    fun x us left ended short => SameEnd.mono (next x us ended short) left (Nat.le_refl k)

theorem ite {c : Prop} [Decidable c] {m n m' n' : Reading α} (yes : c → Confined more k m m' ts)
    (no : ¬ c → Confined more k n n' ts) :
    Confined more k (if c then m else n) (if c then m' else n') ts := by
  split
  next h => exact yes h
  next h => exact no h

section Token

variable {t : PlacedToken}

/-- A reader that looks at the whole rest may behave differently with more tokens behind the end, so
that both runs are named. -/
theorem get_bind {f f' : TokenStream → Reading α}
    (h : Confined more k (f (ofTokens ts)) (f' (ofTokens (ts ++ more))) ts) :
    Confined more k (get >>= f) (get >>= f') ts := h

theorem here_bind {f f' : Position → Reading α}
    (h : Confined more k (f t.position) (f' t.position) (t :: us)) :
    Confined more k (here >>= f) (here >>= f') (t :: us) := h

theorem here (ended : Ended ts) : Confined more ts.length Reading.here Reading.here ts := by
  obtain ⟨t, us, rfl⟩ := ended.exists_cons
  exact .ok (List.suffix_refl _) ended (Nat.le_refl _)

/-- The current token is the same in both runs. -/
theorem current_bind {f f' : Token → Reading α}
    (h : Confined more k (f t.token) (f' t.token) (t :: us)) :
    Confined more k (current >>= f) (current >>= f') (t :: us) := h

theorem mark_bind {m : Mark} {f f' : Bool → Reading α}
    (h : Confined more k (f (t.token.isMark m)) (f' (t.token.isMark m)) (t :: us)) :
    Confined more k (atMark m >>= f) (atMark m >>= f') (t :: us) := h

/-- Only the end of the input is not taken. -/
theorem advance_bind {f f' : Unit → Reading α} (ended : Ended (t :: us))
    (some : t.token ≠ .endOfInput) (h : Confined more k (f ()) (f' ()) us) :
    Confined more k (advance >>= f) (advance >>= f') (t :: us) := by
  obtain ⟨u, vs, rfl⟩ := (ended.tail some).exists_cons
  exact SameEnd.mono h (List.suffix_cons t _) (Nat.le_refl k)

theorem unexpected (ended : Ended ts) (expected : Expectation) :
    Confined more k (unexpected expected : Reading α) (unexpected expected) ts := by
  obtain ⟨t, us, rfl⟩ := ended.exists_cons
  exact .error (List.suffix_refl _) ended

/-- Nothing is read after a token that is refused. -/
theorem unexpected_bind {f f' : α → Reading β} (ended : Ended ts) (expected : Expectation) :
    Confined more k (Reading.unexpected expected >>= f) (Reading.unexpected expected >>= f') ts := by
  refine (unexpected (k := 0) ended expected).bind fun _ us hUs short => ?_
  obtain ⟨u, us, rfl⟩ := hUs.exists_cons
  exact absurd short (Nat.not_succ_le_zero _)

/-- Moving on stays within the tokens, as the current one is not their end. -/
theorem advance (ended : Ended (t :: us)) (some : t.token ≠ .endOfInput) :
    Confined more us.length advance advance (t :: us) :=
  advance_bind ended some (pure (ended.tail some) (Nat.le_refl _) ())

/-- A reader that found a mark is not at the end of the input. -/
theorem ne_endOfInput_of_isMark {m : Mark} {t : Token} (h : t.isMark m = true) :
    t ≠ .endOfInput := by
  rw [Token.isMark_iff] at h
  simp [h]

theorem ne_endOfInput_of_isSign {t : Token} (h : isSign t = true) : t ≠ .endOfInput := by
  rcases sign_of_isSign h with h | h <;> simp [h]

/-- Taking a mark leaves one token less, or fails at a token that is common to both runs. -/
theorem take (ended : Ended ts) (m : Mark) (expected : Expectation) :
    Confined more (ts.length - 1) (take m expected) (take m expected) ts := by
  obtain ⟨t, us, rfl⟩ := ended.exists_cons
  exact mark_bind (ite (fun h => advance ended (ne_endOfInput_of_isMark h))
    fun _ => unexpected ended expected)

end Token

section Separated

variable {close : Mark} {between : Expectation} {read read' : List α → Reading α}

/-- Bounds that are not less than the number of tokens do not matter. -/
theorem separated
    (items : ∀ before us, Ended us → us.length ≤ n →
      Confined more (us.length - 1) (read before) (read' before) us)
    {fuel fuel' : Nat} {before : List α} (ended : Ended ts) (count : ts.length ≤ n)
    (enough : ts.length ≤ fuel) (enough' : ts.length ≤ fuel') :
    Confined more (ts.length - 1) (separated close between read fuel before)
      (separated close between read' fuel' before) ts := by
  induction fuel generalizing ts before fuel' with
  | zero =>
      obtain ⟨t, us, rfl⟩ := ended.exists_cons
      simp at enough
  | succ fuel ih =>
      obtain ⟨t, us, rfl⟩ := ended.exists_cons
      rw [List.length_cons] at enough enough' count
      obtain ⟨fuel', rfl⟩ : ∃ m, fuel' = m + 1 := ⟨fuel' - 1, by omega⟩
      refine mark_bind (ite (fun hClose => ?_) fun hOpen => ?_)
      · have hNot := ne_endOfInput_of_isMark hClose
        exact advance_bind ended hNot (pure (ended.tail hNot) (Nat.le_refl _) before)
      · refine (items before _ ended count).bind fun x vs hVs hShort => ?_
        rw [List.length_cons, Nat.add_sub_cancel] at hShort
        -- the item took a token, so that both bounds are still enough for those that are left
        have hMore {ws : Tokens} (hWs : Ended ws) (hLess : ws.length ≤ vs.length) :
            Confined more us.length (Reading.separated close between read fuel (before ++ [x]))
              (Reading.separated close between read' fuel' (before ++ [x])) ws :=
          (ih hWs (by omega) (by omega) (by omega)).mono (by omega)
        obtain ⟨v, vs, rfl⟩ := hVs.exists_cons
        refine mark_bind (ite (fun _ => hMore hVs (Nat.le_refl _)) fun _ => ?_)
        exact (take hVs .comma between).bind fun _ ws hWs hLess => hMore hWs (by omega)

/-- The two runs have different numbers of rounds to spend, and neither spends them all: every item
takes a token, and the end of the input takes part in none. -/
theorem list
    (items : ∀ before us, Ended us → us.length ≤ n →
      Confined more (us.length - 1) (read before) (read' before) us)
    (ended : Ended ts) (count : ts.length ≤ n) :
    Confined more (ts.length - 1) (list close between read) (list close between read') ts := by
  obtain ⟨t, us, rfl⟩ := ended.exists_cons
  refine get_bind (separated items ended count (Nat.le_refl _) ?_)
  simp

end Separated

theorem literal (ended : Ended ts) : Confined more (ts.length - 1) literal literal ts := by
  obtain ⟨t, us, rfl⟩ := ended.exists_cons
  apply current_bind
  cases hValue : literal? t.token with
  | none => exact unexpected ended .literal
  | some v =>
      have hNot : t.token ≠ .endOfInput := literal_ne_endOfInput (literal?_eq_some_iff.mp hValue)
      exact advance_bind ended hNot (pure (ended.tail hNot) (Nat.le_refl _) v)

theorem literal_map (ended : Ended ts) (f : Literal → α) :
    Confined more (ts.length - 1) (Reading.literal >>= fun v => Pure.pure (f v))
      (Reading.literal >>= fun v => Pure.pure (f v)) ts :=
  (literal ended).bind fun v _ hUs short => pure hUs short (f v)

theorem positional (ended : Ended ts) (before : List Argument) (p : Position) :
    Confined more (ts.length - 1) (argument.positional before p) (argument.positional before p) ts :=
  ite (fun _ => throw ended _) fun _ => literal_map ended Argument.positional

/-- An argument is read within the tokens, although the second token decides about it: a name is not
the end of the input, so that there is one. -/
theorem argument (ended : Ended ts) (before : List Argument) :
    Confined more (ts.length - 1) (argument before) (argument before) ts := by
  obtain ⟨⟨t, p⟩, us, rfl⟩ := ended.exists_cons
  cases t with
  | name n =>
      have hUs := ended.tail Token.noConfusion
      obtain ⟨sign, vs, rfl⟩ := hUs.exists_cons
      refine here_bind (get_bind (current_bind (ite (fun hSign => ?_) fun _ => ?_)))
      · have hNot : sign.token ≠ .endOfInput := ne_endOfInput_of_isSign hSign
        refine advance_bind ended Token.noConfusion (advance_bind hUs hNot ?_)
        refine ite (fun _ => throw (hUs.tail hNot) _) fun _ => ?_
        refine (literal_map (hUs.tail hNot) (Argument.named n)).mono ?_
        simp
        omega
      · exact positional ended before p
  | _ => exact here_bind (get_bind (current_bind (positional ended before p)))

theorem arguments (ended : Ended ts) : Confined more (ts.length - 1)
    (Reading.list .rightParen .commaOrParen Reading.argument)
    (Reading.list .rightParen .commaOrParen Reading.argument) ts :=
  list (fun before _ hUs _ => argument hUs before) ended (Nat.le_refl _)

/-- A name or a call is read within the tokens. -/
theorem segment (ended : Ended ts) : Confined more (ts.length - 1) segment segment ts := by
  obtain ⟨⟨t, p⟩, us, rfl⟩ := ended.exists_cons
  cases t with
  | name n =>
      have hUs := ended.tail Token.noConfusion
      obtain ⟨u, vs, rfl⟩ := hUs.exists_cons
      refine here_bind (current_bind (advance_bind ended Token.noConfusion (mark_bind ?_)))
      refine ite (fun hOpen => ?_) fun _ => pure hUs (Nat.le_refl _) _
      have hNot := ne_endOfInput_of_isMark hOpen
      refine advance_bind hUs hNot ((arguments (hUs.tail hNot)).bind fun args ws hWs hLess => ?_)
      exact pure hWs (by simp; omega) _
  | _ => exact here_bind (current_bind (unexpected ended .identifier))

theorem integer? (ended : Ended ts) : Confined more ts.length integer? integer? ts := by
  obtain ⟨⟨t, p⟩, us, rfl⟩ := ended.exists_cons
  cases t with
  | integer n =>
      have hUs := ended.tail Token.noConfusion
      exact current_bind (advance_bind ended Token.noConfusion (pure hUs (by simp) _))
  | _ => exact current_bind (pure ended (Nat.le_refl _) none)

/-- A slice is read within the tokens, whichever of its bounds are left out. -/
theorem slice (ended : Ended ts) (start : Option Int64) (p : Position) :
    Confined more (ts.length - 1) (slice start p) (slice start p) ts := by
  refine (take ended .colon .colon).bind fun _ us hUs hShort => ?_
  refine (integer? hUs).bind fun stop vs hVs hLess => ?_
  obtain ⟨v, vs, rfl⟩ := hVs.exists_cons
  refine mark_bind (ite (fun hColon => ?_) fun _ => pure hVs (by omega) _)
  have hNot := ne_endOfInput_of_isMark hColon
  have hTail := hVs.tail hNot
  refine advance_bind hVs hNot ?_
  obtain ⟨w, ws, rfl⟩ := hTail.exists_cons
  refine here_bind ((integer? hTail).bind fun step xs hXs hFewer => ?_)
  rw [List.length_cons] at hLess
  exact ite (fun _ => throw hXs _) fun _ => pure hXs (by omega) _

/-- The token after the number is one of the tokens, as the number is not the end. -/
theorem indexOrSlice {t : PlacedToken} (ended : Ended (t :: us)) (some : t.token ≠ .endOfInput)
    (i : Int64) (p : Position) :
    Confined more us.length (indexOrSlice i p) (indexOrSlice i p) (t :: us) := by
  have hUs := ended.tail some
  obtain ⟨u, vs, rfl⟩ := hUs.exists_cons
  refine advance_bind ended some (mark_bind (ite (fun _ => ?_) fun _ => pure hUs (Nat.le_refl _) _))
  exact (slice hUs (Option.some i) p).mono (Nat.sub_le ..)

theorem dottedStep (ended : Ended ts) :
    Confined more (ts.length - 1) dottedStep dottedStep ts := by
  obtain ⟨⟨t, p⟩, us, rfl⟩ := ended.exists_cons
  cases t with
  | name n => exact here_bind (current_bind (segment ended))
  | integer i => exact here_bind (current_bind (indexOrSlice ended Token.noConfusion i p))
  | mark m =>
      cases m with
      | colon => exact here_bind (current_bind (slice ended none p))
      | _ => exact here_bind (current_bind (unexpected ended .step))
  | _ => exact here_bind (current_bind (unexpected ended .step))

theorem bracketStep (ended : Ended ts) :
    Confined more (ts.length - 1) bracketStep bracketStep ts := by
  have hClosed {m : Reading Step} (h : Confined more (ts.length - 1) m m ts) :
      Confined more (ts.length - 1)
        (m >>= fun x => Reading.take .rightBracket .rightBracket >>= fun _ => Pure.pure x)
        (m >>= fun x => Reading.take .rightBracket .rightBracket >>= fun _ => Pure.pure x) ts :=
    h.bind fun x us hUs hShort => (take hUs .rightBracket .rightBracket).bind
      fun _ vs hVs hLess => pure hVs (by omega) x
  obtain ⟨⟨t, p⟩, us, rfl⟩ := ended.exists_cons
  cases t with
  | integer i =>
      exact here_bind (current_bind (hClosed (indexOrSlice ended Token.noConfusion i p)))
  | mark m =>
      cases m with
      | colon => exact here_bind (current_bind (hClosed (slice ended none p)))
      | _ => exact here_bind (current_bind (hClosed (unexpected ended .indexOrSlice)))
  | _ => exact here_bind (current_bind (hClosed (unexpected ended .indexOrSlice)))

/-- Both runs have fuel for as many steps as there are tokens, which is more than they take. -/
theorem steps {fuel fuel' : Nat} (ended : Ended ts) (before : List Step) (enough : ts.length ≤ fuel)
    (enough' : ts.length ≤ fuel') :
    Confined more ts.length (steps fuel before) (steps fuel' before) ts := by
  induction fuel generalizing ts before fuel' with
  | zero =>
      obtain ⟨t, us, rfl⟩ := ended.exists_cons
      simp at enough
  | succ fuel ih =>
      obtain ⟨t, us, rfl⟩ := ended.exists_cons
      rw [List.length_cons] at enough enough'
      obtain ⟨fuel', rfl⟩ : ∃ m, fuel' = m + 1 := ⟨fuel' - 1, by omega⟩
      have hMore {vs : Tokens} (hVs : Ended vs) (hLess : vs.length ≤ us.length) (x : Step) :
          Confined more (us.length + 1) (Reading.steps fuel (before ++ [x]))
            (Reading.steps fuel' (before ++ [x])) vs :=
        (ih hVs _ (by omega) (by omega)).mono (by omega)
      refine mark_bind (ite (fun hDot => ?_) fun _ => mark_bind (get_bind ?_))
      · have hNot := ne_endOfInput_of_isMark hDot
        refine advance_bind ended hNot ((dottedStep (ended.tail hNot)).bind fun x vs hVs hLess => ?_)
        exact hMore hVs (by omega) x
      · -- only behind a bracket, which is not the end of the input, is a second token looked at
        cases hOpen : t.token.isMark .leftBracket with
        | false => exact pure ended (Nat.le_refl _) before
        | true =>
            have hNot := ne_endOfInput_of_isMark hOpen
            have hUs := ended.tail hNot
            obtain ⟨u, vs, rfl⟩ := hUs.exists_cons
            refine ite (fun _ => ?_) fun _ => pure ended (Nat.le_refl _) before
            refine advance_bind ended hNot ((bracketStep hUs).bind fun x ws hWs hLess => ?_)
            exact hMore hWs (by omega) x

/-- A chain is read within the tokens. -/
theorem chain (ended : Ended ts) : Confined more (ts.length - 1) chain chain ts := by
  refine (segment ended).bind fun x us hUs hLess => get_bind ?_
  obtain ⟨u, vs, rfl⟩ := hUs.exists_cons
  refine (steps hUs [x] (Nat.le_refl _) ?_).mono hLess
  simp

/-- Asking for an alias takes two tokens or none. -/
theorem label? (ended : Ended ts) : Confined more ts.length label? label? ts := by
  obtain ⟨⟨t, p⟩, us, rfl⟩ := ended.exists_cons
  cases t with
  | name n =>
      have hUs := ended.tail Token.noConfusion
      obtain ⟨u, vs, rfl⟩ := hUs.exists_cons
      refine current_bind (get_bind (ite (fun hColon => ?_) fun _ => pure ended (Nat.le_refl _) none))
      have hNot : u.token ≠ .endOfInput := ne_endOfInput_of_isMark hColon
      refine advance_bind ended Token.noConfusion (advance_bind hUs hNot ?_)
      exact pure (hUs.tail hNot) (by simp; omega) _
  | _ => exact current_bind (pure ended (Nat.le_refl _) none)

def opensBlock (t : Token) : Bool :=
  t.isMark .leftBracket || t.isMark .leftBrace

/-- Readers of what follows a head, at up to `n` tokens. They take a token where a block opens. -/
def Bodies (more : Tokens) (n : Nat) (body body' : Head → Reading Resource) : Prop :=
  ∀ h t us, Ended (t :: us) → us.length < n →
    Confined more (if opensBlock t.token then us.length else us.length + 1) (body h) (body' h)
      (t :: us)

section Bodies

variable {body body' : Head → Reading Resource} (bodies : Bodies more n body body')

include bodies

theorem named (ended : Ended ts) (count : ts.length ≤ n) :
    Confined more (ts.length - 1) (named body) (named body') ts := by
  obtain ⟨t, us, rfl⟩ := ended.exists_cons
  rw [List.length_cons] at count
  refine here_bind ((label? ended).bind fun label vs hVs hLess => ?_)
  refine (chain hVs).bind fun steps ws hWs hFewer => ?_
  obtain ⟨w, ws, rfl⟩ := hWs.exists_cons
  rw [List.length_cons] at hLess hFewer
  refine (bodies _ w ws hWs (by omega)).mono ?_
  simp only [List.length_cons]
  split <;> omega

theorem child (ended : Ended ts) (count : ts.length ≤ n) (before : List Resource) :
    Confined more (ts.length - 1) (child body before) (child body' before) ts := by
  refine (named bodies ended count).bind fun r us hUs hLess => ?_
  cases r.key? with
  | none => exact pure hUs hLess r
  | some key =>
      dsimp only
      split
      · exact throw hUs _
      · exact pure hUs hLess r

theorem item (ended : Ended ts) (count : ts.length ≤ n) (before : List Resource) :
    Confined more (ts.length - 1) (item body before) (item body' before) ts := by
  obtain ⟨⟨t, p⟩, us, rfl⟩ := ended.exists_cons
  have hBody (h : Head) := bodies h _ us ended (by simp at count; omega)
  cases t with
  | name n => exact here_bind (current_bind (named bodies ended count))
  | mark m =>
      cases m with
      | leftBrace | leftBracket => exact here_bind (current_bind (hBody _))
      | _ => exact here_bind (current_bind (unexpected ended .listItem))
  | _ => exact here_bind (current_bind (unexpected ended .listItem))

end Bodies

/-- Bodies with enough depth for the tokens behave alike. The induction is on the bound for the
number of tokens. -/
theorem body {depth depth' : Nat} (enough : n ≤ depth) (enough' : n ≤ depth') :
    Bodies more n (Reading.body depth) (Reading.body depth') := by
  induction depth generalizing depth' n with
  | zero =>
      intro h t us ended count
      omega
  | succ depth ih =>
      intro h t us ended count
      obtain ⟨depth', rfl⟩ : ∃ m, depth' = m + 1 := ⟨depth' - 1, by omega⟩
      have hInner : Bodies more us.length (Reading.body depth) (Reading.body depth') :=
        ih (by omega) (by omega)
      refine mark_bind (ite (fun hOpen => ?_) fun hNoList =>
        mark_bind (ite (fun hOpen => ?_) fun hNoObject => ?_))
      · have hNot := ne_endOfInput_of_isMark hOpen
        have hUs := ended.tail hNot
        have hOpens : opensBlock t.token = true := by simp [opensBlock, hOpen]
        obtain ⟨u, vs, rfl⟩ := hUs.exists_cons
        rw [if_pos hOpens]
        refine advance_bind ended hNot (mark_bind ?_)
        refine ite (fun _ => unexpected_bind hUs .listItem) fun _ => ?_
        refine (list (fun before _ hWs hLess => item hInner hWs hLess before) hUs
          (Nat.le_refl _)).bind fun items ws hWs hLess => ?_
        exact pure hWs (Nat.le_trans hLess (Nat.sub_le ..)) _
      · have hNot := ne_endOfInput_of_isMark hOpen
        have hUs := ended.tail hNot
        have hOpens : opensBlock t.token = true := by simp [opensBlock, hOpen]
        rw [if_pos hOpens]
        refine advance_bind ended hNot ((list (fun before _ hWs hLess => child hInner hWs hLess before)
          hUs (Nat.le_refl _)).bind fun children ws hWs hLess => ?_)
        exact pure hWs (Nat.le_trans hLess (Nat.sub_le ..)) _
      · have hNone : opensBlock t.token = false := by simp [opensBlock, hNoList, hNoObject]
        rw [if_neg (Bool.not_eq_true _ ▸ hNone)]
        exact pure ended (Nat.le_refl _) _

end Confined

end Reading

theorem Ended.cons {t : PlacedToken} {ts : Tokens} (h : Ended ts) (some : t.token ≠ .endOfInput) :
    Ended (t :: ts) := by
  obtain ⟨before, p, rfl, hBefore⟩ := h
  exact ⟨t :: before, p, rfl, List.forall_mem_cons.mpr ⟨some, hBefore⟩⟩

/-- The tokens up to the first end of the input. -/
theorem exists_ended_prefix {ts : Tokens} (h : ∃ t ∈ ts, t.token = .endOfInput) :
    ∃ front more, ts = front ++ more ∧ Ended front := by
  induction ts with
  | nil => simp at h
  | cons t ts ih =>
      by_cases hEnd : t.token = .endOfInput
      · obtain ⟨token, p⟩ := t
        obtain rfl : token = .endOfInput := hEnd
        exact ⟨[⟨.endOfInput, p⟩], ts, rfl, [], p, rfl, by simp⟩
      · have hLater : ∃ u ∈ ts, u.token = .endOfInput := by simpa [hEnd] using h
        obtain ⟨front, more, rfl, hFront⟩ := ih hLater
        exact ⟨t :: front, more, rfl, hFront.cons hEnd⟩

/-- Two readings of a query, the first one from tokens `ts` and the second one from the same tokens
with `more` after them. They end in the same way. A query takes the end of the input, unless that is
the last token. -/
inductive SameReading (more ts : Tokens) :
    Except QueryError Query × TokenStream → Except QueryError Query × TokenStream → Prop where
  | ok {q : Query} {p : Position} (left : [⟨.endOfInput, p⟩] <:+ ts) :
      SameReading more ts (.ok q, ofTokens [⟨.endOfInput, p⟩])
        (.ok q, (ofTokens (⟨.endOfInput, p⟩ :: more)).advance)
  | error {e : QueryError} {rest : Tokens} (left : rest <:+ ts) (ended : Ended rest) :
      SameReading more ts (.error e, ofTokens rest) (.error e, ofTokens (rest ++ more))

/-- What stands behind the end of the input is never looked at. -/
theorem readQuery_append (ended : Ended ts) (more : Tokens) :
    SameReading more ts (ofTokens ts).readQuery (ofTokens (ts ++ more)).readQuery := by
  have hFails {us : Tokens} (hUs : us <:+ ts) (e : QueryError) (rest : Tokens) (left : rest <:+ us)
      (hRest : Ended rest) :
      SameReading more ts (.error e, ofTokens rest) (.error e, ofTokens (rest ++ more)) :=
    .error (left.trans hUs) hRest
  unfold TokenStream.readQuery Reading.query
  refine (Confined.here ended).bind_run (hFails (List.suffix_refl ts)) fun p us hUs ended _ => ?_
  refine (Confined.chain ended).bind_run (hFails hUs) fun steps vs left ended _ => ?_
  have hVs := left.trans hUs
  refine (Confined.take ended .leftBrace .leftBrace).bind_run (hFails hVs) fun _ ws left ended _ => ?_
  have hWs := left.trans hVs
  refine Confined.get_run (P := SameReading more ts) ?_
  have hChildren : Confined more (ws.length - 1)
      (Reading.list .rightBrace .commaOrBrace
        (child (Reading.body ((ofTokens ws).following.length + 1))))
      (Reading.list .rightBrace .commaOrBrace
        (child (Reading.body ((ofTokens (ws ++ more)).following.length + 1)))) ws := by
    obtain ⟨w, ws, rfl⟩ := ended.exists_cons
    refine Confined.list (fun before _ hXs hLess => ?_) ended (Nat.le_refl _)
    exact Confined.child (Confined.body (Nat.le_refl _) (by simp)) hXs hLess before
  refine hChildren.bind_run (hFails hWs) fun children xs left ended _ => ?_
  have hXs := left.trans hWs
  obtain ⟨⟨t, q⟩, ys, rfl⟩ := ended.exists_cons
  cases t with
  | endOfInput =>
      obtain ⟨before, q, hAll, hBefore⟩ := ended
      cases before with
      | nil =>
          cases hAll
          exact .ok hXs
      | cons u before => cases hAll; exact absurd rfl (hBefore _ List.mem_cons_self)
  | _ => exact .error hXs ended

end GatedQuery
