import GatedQuery.Proofs.Grammar.Streams

/-! What readers take. A reader only moves on in its stream, and it takes nothing past the last token.
Where a reader calls itself, or begins another round of a loop, it has taken a token since that is not
the end of the input; what it reads therefore depends on the recursion only behind that token. -/

namespace GatedQuery

open Grammar TokenStream

namespace TokenStream

variable {s s' s'' : TokenStream} {j k : Nat}

/-- A stream that is left after at least `k` tokens have been taken, none of which is the end of the
input. -/
def Ahead (k : Nat) (s s' : TokenStream) : Prop :=
  ∃ taken : Tokens, s.all = taken ++ s'.all ∧ k ≤ taken.length ∧ ∀ t ∈ taken, t.token ≠ .endOfInput

theorem Ahead.refl (s : TokenStream) : Ahead 0 s s :=
  ⟨[], rfl, Nat.le_refl _, fun _ ht => absurd ht List.not_mem_nil⟩

/-- Being further ahead includes being ahead by less. -/
theorem Ahead.mono (h : Ahead j s s') (le : k ≤ j) : Ahead k s s' := by
  obtain ⟨taken, hAll, hCount, hSome⟩ := h
  exact ⟨taken, hAll, Nat.le_trans le hCount, hSome⟩

/-- Distances add up. -/
theorem Ahead.trans (first : Ahead j s s') (second : Ahead k s' s'') : Ahead (j + k) s s'' := by
  obtain ⟨front, hFront, hFirst, hSome⟩ := first
  obtain ⟨more, hMore, hSecond, hOthers⟩ := second
  refine ⟨front ++ more, by rw [hFront, hMore, List.append_assoc], ?_, ?_⟩
  · rw [List.length_append]
    omega
  · exact List.forall_mem_append.mpr ⟨hSome, hOthers⟩

/-- What is left of the stream later is the end of what was left of it before. -/
theorem Ahead.suffix (h : Ahead k s s') : s'.all <:+ s.all := by
  obtain ⟨taken, hAll, _⟩ := h
  exact ⟨taken, hAll.symm⟩

/-- The end of the input is still to come. -/
theorem Ahead.terminated (h : Ahead k s s') (terminated : Terminated s.all) : Terminated s'.all :=
  terminated.of_suffix h.suffix (List.cons_ne_nil _ _)

/-- Every token that was taken leaves fewer of them. -/
theorem Ahead.length (h : Ahead k s s') : s'.following.length + k ≤ s.following.length := by
  obtain ⟨taken, hAll, hCount, _⟩ := h
  have hLength := congrArg List.length hAll
  simp only [all, List.length_append, List.length_cons] at hLength
  omega

/-- Only the end of the input can be the last token. -/
theorem ahead_advance (terminated : Terminated s.all) (some : s.current.token ≠ .endOfInput) :
    Ahead 1 s s.advance := by
  obtain ⟨t, us⟩ := s
  cases us with
  | nil =>
      obtain ⟨p, hLast⟩ := terminated
      cases hLast
      exact absurd rfl some
  | cons u us => exact ⟨[t], rfl, Nat.le_refl _, List.forall_mem_singleton.mpr some⟩

/-- A stream always has an end of the input, which is added if the tokens do not have it. -/
theorem terminated_ofList (ts : Tokens) : Terminated (ofList ts).all := by
  rcases List.eq_nil_or_concat ts with rfl | ⟨before, t, rfl⟩
  · exact ⟨.start, rfl⟩
  · obtain ⟨token, p⟩ := t
    rw [List.concat_eq_append]
    by_cases hEnd : token = .endOfInput
    · subst hEnd
      rw [ofList_ended, all_ofTokens (by simp)]
      exact ⟨p, by simp⟩
    · rw [ofList_concat before hEnd, all_ofTokens (by simp)]
      exact ⟨p, by simp⟩

end TokenStream

namespace Reading

variable {ι α β : Type} {s : TokenStream} {j k : Nat}

/-- Two readers that run in the same way from a stream. They only move on in it, and before a result
they take at least `k` tokens. -/
structure Agree (k : Nat) (m m' : Reading α) (s : TokenStream) : Prop where
  same : m.run.run s = m'.run.run s
  onward : Ahead 0 s (m.run.run s).2
  result : ∀ x, (m.run.run s).1 = .ok x → Ahead k s (m.run.run s).2

namespace Agree

variable {m m' n n' : Reading α}

theorem pure (s : TokenStream) (x : α) : Agree 0 (pure x : Reading α) (pure x) s :=
  ⟨rfl, .refl s, fun _ _ => .refl s⟩

theorem throw (s : TokenStream) (e : QueryError) : Agree k (throw e : Reading α) (throw e) s :=
  ⟨rfl, .refl s, nofun⟩

theorem unexpected (s : TokenStream) (expected : Expectation) :
    Agree k (unexpected expected : Reading α) (unexpected expected) s :=
  ⟨rfl, .refl s, nofun⟩

/-- Nothing is read after a token that is refused. -/
theorem unexpected_bind {f f' : α → Reading β} (s : TokenStream) (expected : Expectation) :
    Agree k (Reading.unexpected expected >>= f) (Reading.unexpected expected >>= f') s :=
  ⟨rfl, .refl s, nofun⟩

/-- Readers that take more tokens than asked for agree as well. -/
theorem mono (h : Agree j m m' s) (le : k ≤ j) : Agree k m m' s :=
  ⟨h.same, h.onward, fun x hx => (h.result x hx).mono le⟩

theorem ite {c : Prop} [Decidable c] (yes : c → Agree k m m' s) (no : ¬ c → Agree k n n' s) :
    Agree k (if c then m else n) (if c then m' else n') s := by
  split
  next h => exact yes h
  next h => exact no h

/-- Runs that go on with two readers, after a result that stands ahead, or that end at once. -/
theorem bind_run {P : Except QueryError β × TokenStream → Except QueryError β × TokenStream → Prop}
    {f g : α → Reading β} (first : Agree j m m' s)
    (error : ∀ e s', Ahead 0 s s' → P (.error e, s') (.error e, s'))
    (next : ∀ x s', Ahead j s s' → P ((f x).run.run s') ((g x).run.run s')) :
    P ((m >>= f).run.run s) ((m' >>= g).run.run s) := by
  obtain ⟨hSame, hOnward, hResult⟩ := first
  rw [ExceptT.run_bind, StateT.run_bind, ExceptT.run_bind, StateT.run_bind, ← hSame]
  generalize m.run.run s = r at hOnward hResult
  obtain ⟨outcome, s'⟩ := r
  cases outcome with
  | error e => exact error e s' hOnward
  | ok x => exact next x s' (hResult x rfl)

/-- Two readers one after the other take as many tokens as both together, and it is enough if the
second ones agree wherever the first ones stop. -/
theorem bind {f f' : α → Reading β} (first : Agree j m m' s)
    (next : ∀ x s', Ahead j s s' → Agree k (f x) (f' x) s') :
    Agree (j + k) (m >>= f) (m' >>= f') s := by
  have hRuns := first.bind_run (f := f) (g := f')
    (P := fun r r' => r = r' ∧ Ahead 0 s r.2 ∧ ∀ y, r.1 = .ok y → Ahead (j + k) s r.2)
    (fun e s' hOnward => ⟨rfl, hOnward, nofun⟩) fun x s' hAhead => by
      obtain ⟨hSame, hOnward, hResult⟩ := next x s' hAhead
      exact ⟨hSame, (hAhead.trans hOnward).mono (Nat.zero_le _), fun y hy =>
        hAhead.trans (hResult y hy)⟩
  exact ⟨hRuns.1, hRuns.2.1, hRuns.2.2⟩

theorem get_bind {f f' : TokenStream → Reading α} (h : Agree k (f s) (f' s) s) :
    Agree k (get >>= f) (get >>= f') s :=
  ⟨h.same, h.onward, h.result⟩

theorem here_bind {f f' : Position → Reading α}
    (h : Agree k (f s.current.position) (f' s.current.position) s) :
    Agree k (here >>= f) (here >>= f') s :=
  ⟨h.same, h.onward, h.result⟩

/-- Readers that decide by the current token have to agree for this token only. -/
theorem current_bind {f f' : Token → Reading α}
    (h : Agree k (f s.current.token) (f' s.current.token) s) :
    Agree k (current >>= f) (current >>= f') s :=
  ⟨h.same, h.onward, h.result⟩

theorem mark_bind {c : Mark} {f f' : Bool → Reading α}
    (h : Agree k (f (s.current.token.isMark c)) (f' (s.current.token.isMark c)) s) :
    Agree k (atMark c >>= f) (atMark c >>= f') s :=
  ⟨h.same, h.onward, h.result⟩

/-- Moving on takes a token, unless it is the end of the input. -/
theorem advance (terminated : Terminated s.all) (some : s.current.token ≠ .endOfInput) :
    Agree 1 advance advance s :=
  ⟨rfl, (ahead_advance terminated some).mono (Nat.zero_le _), fun _ _ => ahead_advance terminated some⟩

/-- What a reader takes before the end of the input it takes before anything that follows there. -/
theorem of_confined (terminated : Terminated s.all)
    (h : ∀ more ts, Ended ts → Confined more (ts.length - k) m m ts) : Agree k m m s := by
  obtain ⟨front, more, hAll, hFront⟩ := exists_ended_prefix terminated.mem
  have hAhead {rest : Tokens} (left : rest <:+ front) (ended : Ended rest) {n : Nat}
      (short : rest.length + n ≤ front.length) : Ahead n s (ofTokens (rest ++ more)) := by
    obtain ⟨taken, rfl⟩ := left
    obtain ⟨before, p, rfl, _⟩ := ended
    obtain ⟨interior, q, hInterior, hSome⟩ := hFront
    rw [← List.append_assoc] at hInterior
    obtain ⟨hTaken, _⟩ := List.append_inj' hInterior rfl
    refine ⟨taken, ?_, ?_, fun t ht => hSome t (hTaken ▸ List.mem_append_left _ ht)⟩
    · rw [hAll, all_ofTokens (by simp), List.append_assoc]
    · simp only [List.length_append, List.length_cons] at short
      omega
  -- Both runs of `Confined` are of one reader here, and what is left says what it has taken.
  have hRun := h more front hFront
  unfold Confined at hRun
  rw [← hAll, ofTokens_all] at hRun
  generalize hLeft : m.run.run s = r at hRun
  generalize m.run.run (ofTokens front) = r' at hRun
  refine ⟨rfl, ?_, ?_⟩
  · rw [hLeft]
    cases hRun with
    | ok left ended short => exact hAhead left ended left.length_le
    | error left ended => exact hAhead left ended left.length_le
  · rw [hLeft]
    cases hRun with
    | ok left ended short =>
        obtain ⟨t, us, rfl⟩ := ended.exists_cons
        intro _ _
        refine hAhead left ended ?_
        simp only [List.length_cons] at short ⊢
        omega
    | error left ended => nofun

variable (terminated : Terminated s.all)
include terminated

/-- A mark is never the end of the input, so that taking one always moves on. -/
theorem take (c : Mark) (expected : Expectation) : Agree 1 (take c expected) (take c expected) s :=
  of_confined terminated fun _ _ ended => Confined.take ended c expected

/-- An argument takes a token at least. -/
theorem argument (before : List Argument) : Agree 1 (argument before) (argument before) s :=
  of_confined terminated fun _ _ ended => Confined.argument ended before

theorem dottedStep : Agree 1 dottedStep dottedStep s :=
  of_confined terminated fun _ _ ended => Confined.dottedStep ended

theorem bracketStep : Agree 1 bracketStep bracketStep s :=
  of_confined terminated fun _ _ ended => Confined.bracketStep ended

/-- A name takes a token at least, also if it is called. -/
theorem segment : Agree 1 segment segment s :=
  of_confined terminated fun _ _ ended => Confined.segment ended

theorem label? : Agree 0 label? label? s :=
  of_confined terminated fun _ _ ended => Confined.label? ended

/-- A chain takes its first name at least. -/
theorem chain : Agree 1 chain chain s :=
  of_confined terminated fun _ _ ended => Confined.chain ended

end Agree

/-- One level of a recursion. What it reads from a stream depends on the levels below it only in
streams that are left after it has taken a token, which is not the end of the input. -/
def Progresses (level : (ι → Reading α) → ι → Reading α) : Prop :=
  ∀ (again again' : ι → Reading α) (i : ι) (s : TokenStream), Terminated s.all →
    (∀ i s', Ahead 1 s s' → Agree 0 (again i) (again' i) s') → Agree 0 (level again i) (level again' i) s

/-- A recursion that goes down so many levels, and below them does `deepest`. -/
def unrolled (level : (ι → Reading α) → ι → Reading α) (deepest : ι → Reading α) :
    Nat → ι → Reading α
  | 0 => deepest
  | depth + 1 => level (unrolled level deepest depth)

namespace Progresses

variable {level : (ι → Reading α) → ι → Reading α} {deepest deepest' : ι → Reading α}

/-- With more levels than there are tokens after the current one, it does not matter how many there
are or what is done below them. -/
theorem unrolled_agree (h : Progresses level) (terminated : Terminated s.all) {depth depth' : Nat}
    (hDepth : s.following.length < depth) (hDepth' : s.following.length < depth') (i : ι) :
    Agree 0 (unrolled level deepest depth i) (unrolled level deepest' depth' i) s := by
  -- Each level below comes after a token, so that fewer tokens are left for it to exceed.
  induction depth generalizing depth' s i with
  | zero => exact absurd hDepth (Nat.not_lt_zero _)
  | succ depth ih =>
      obtain ⟨depth', rfl⟩ := Nat.exists_eq_add_one_of_ne_zero (Nat.ne_zero_of_lt hDepth')
      refine h _ _ i s terminated fun i s' hAhead => ?_
      have hShorter := hAhead.length
      exact ih (hAhead.terminated terminated) (by omega) (by omega) i

/-- With any number of levels a recursion moves on, if it does so below them. -/
theorem unrolled_onward (h : Progresses level) (hDeepest : ∀ i s, Agree 0 (deepest i) (deepest i) s)
    (depth : Nat) (i : ι) (terminated : Terminated s.all) :
    Agree 0 (unrolled level deepest depth i) (unrolled level deepest depth i) s := by
  induction depth generalizing s i with
  | zero => exact hDeepest i s
  | succ depth ih =>
      exact h _ _ i s terminated fun i s' hAhead => ih i (hAhead.terminated terminated)

end Progresses

section Round

variable {close : Mark} {between : Expectation} {item item' : List α → Reading α}

/-- One round of a list with commas: its end, or an item and what stands after it. -/
def round (close : Mark) (between : Expectation) (item : List α → Reading α)
    (again : List α → Reading (List α)) (before : List α) : Reading (List α) := do
  if ← atMark close then
    advance
    return before
  let x ← item before
  unless ← atMark close do
    take .comma between
  again (before ++ [x])

/-- Reading a list is a loop of rounds, each of which reads an item and what follows it. -/
theorem separated_eq_unrolled : separated close between item =
    unrolled (round close between item) fun _ => unexpected between := by
  funext fuel
  induction fuel with
  | zero => rfl
  | succ fuel ih =>
      funext before
      rw [unrolled, ← ih]
      rfl

theorem ne_endOfInput_of_isMark {c : Mark} (h : s.current.token.isMark c = true) :
    s.current.token ≠ .endOfInput :=
  Confined.ne_endOfInput_of_isMark h

/-- Rounds agree if their items do and the rounds after them do. -/
theorem agree_round {again again' : List α → Reading (List α)} {before : List α}
    (terminated : Terminated s.all) (hItem : Agree k (item before) (item' before) s)
    (hAgain : ∀ before s', Ahead k s s' → Agree 0 (again before) (again' before) s') :
    Agree 0 (round close between item again before) (round close between item' again' before) s := by
  refine .mark_bind (.ite (fun hClose => ?_) fun _ => ?_)
  · have hAdvance := Agree.advance terminated (ne_endOfInput_of_isMark hClose)
    exact (hAdvance.bind fun _ s' _ => Agree.pure s' before).mono (Nat.zero_le _)
  · refine (hItem.bind (k := 0) fun x s' hAhead => ?_).mono (Nat.zero_le _)
    refine .mark_bind (.ite (fun _ => hAgain _ s' hAhead) fun _ => ?_)
    have hComma := Agree.take (hAhead.terminated terminated) .comma between
    refine (hComma.bind (k := 0) fun _ s'' hMore => ?_).mono (Nat.zero_le _)
    exact hAgain _ s'' ((hAhead.trans hMore).mono (Nat.le_add_right _ _))

/-- A loop whose items take a token progresses. -/
theorem progresses_round
    (hItem : ∀ before s, Terminated s.all → Agree 1 (item before) (item before) s) :
    Progresses (round close between item) :=
  fun _ _ before s terminated hAgain => agree_round terminated (hItem before s terminated) hAgain

/-- Lists of items that take a token agree if their items do, with any bounds on the rounds that
exceed the number of tokens after the current one. -/
theorem agree_separated (terminated : Terminated s.all)
    (hItem : ∀ before s', Ahead 0 s s' → Agree 1 (item before) (item' before) s') {rounds rounds' : Nat}
    (hRounds : s.following.length < rounds) (hRounds' : s.following.length < rounds')
    (before : List α) :
    Agree 0 (separated close between item rounds before) (separated close between item' rounds' before)
      s := by
  rw [separated_eq_unrolled, separated_eq_unrolled]
  induction rounds generalizing rounds' s before with
  | zero => exact absurd hRounds (Nat.not_lt_zero _)
  | succ rounds ih =>
      obtain ⟨rounds', rfl⟩ := Nat.exists_eq_add_one_of_ne_zero (Nat.ne_zero_of_lt hRounds')
      refine agree_round terminated (hItem before s (.refl s)) fun before s' hAhead => ?_
      have hShorter := hAhead.length
      refine ih (hAhead.terminated terminated) (fun before s'' hMore => ?_) (by omega) (by omega) before
      exact hItem before s'' ((hAhead.trans hMore).mono (Nat.zero_le _))

/-- Lists agree if their items do. -/
theorem agree_list (terminated : Terminated s.all)
    (hItem : ∀ before s', Ahead 0 s s' → Agree 0 (item before) (item' before) s') :
    Agree 0 (list close between item) (list close between item') s := by
  refine .get_bind ?_
  rw [separated_eq_unrolled, separated_eq_unrolled]
  generalize s.following.length + 1 = rounds
  generalize ([] : List α) = before
  induction rounds generalizing s before with
  | zero => exact .unexpected s between
  | succ rounds ih =>
      refine agree_round terminated (hItem before s (.refl s)) fun before s' hAhead => ?_
      exact ih (hAhead.terminated terminated) (fun before s'' hMore =>
        hItem before s'' (hAhead.trans hMore)) before

end Round

def stepThen (again : List Step → Reading (List Step)) (before : List Step) : Reading (List Step) := do
  if ← atMark .dot then
    advance
    let s ← dottedStep
    again (before ++ [s])
  else if (← atMark .leftBracket) && opensIndex (← get).second then
    advance
    let s ← bracketStep
    again (before ++ [s])
  else return before

/-- Reading the steps of a chain is a loop of rounds, each of which reads one step. -/
theorem steps_eq_unrolled : steps = unrolled stepThen fun _ => unexpected .step := by
  funext fuel
  induction fuel with
  | zero => rfl
  | succ fuel ih =>
      funext before
      rw [unrolled, ← ih]
      rfl

/-- Every further step takes its dot or its bracket. -/
theorem progresses_stepThen : Progresses stepThen := by
  intro again again' before s terminated hAgain
  have hStep {m : Reading Step} (some : s.current.token ≠ .endOfInput)
      (hm : ∀ s', Terminated s'.all → Agree 1 m m s') :
      Agree 0 (Reading.advance >>= fun _ => m >>= fun x => again (before ++ [x]))
        (Reading.advance >>= fun _ => m >>= fun x => again' (before ++ [x])) s := by
    have hAdvance := Agree.advance terminated some
    refine (hAdvance.bind (k := 0) fun _ s' hAhead => ?_).mono (Nat.zero_le _)
    refine ((hm s' (hAhead.terminated terminated)).bind (k := 0) fun x s'' hMore => ?_).mono
      (Nat.zero_le _)
    exact hAgain _ s'' ((hAhead.trans hMore).mono (Nat.le_add_right _ _))
  refine .mark_bind (.ite (fun hDot => ?_) fun _ => .mark_bind (.get_bind ?_))
  · exact hStep (ne_endOfInput_of_isMark hDot) fun _ => Agree.dottedStep
  · refine .ite (fun hOpen => ?_) fun _ => .pure s before
    exact hStep (ne_endOfInput_of_isMark (Bool.and_eq_true_iff.mp hOpen).1) fun _ => Agree.bracketStep

section Inner

variable {inner inner' : Head → Reading Resource}

/-- Bodies that agree after at least one token give resources that agree. -/
theorem agree_named (terminated : Terminated s.all)
    (hInner : ∀ h s', Ahead 1 s s' → Agree 0 (inner h) (inner' h) s') :
    Agree 1 (named inner) (named inner') s := by
  refine .here_bind ?_
  have hLabel := Agree.label? terminated
  refine (hLabel.bind (k := 1) fun label s' hAhead => ?_).mono (Nat.le_refl _)
  have hChain := Agree.chain (hAhead.terminated terminated)
  refine (hChain.bind (k := 0) fun steps s'' hMore => ?_).mono (Nat.le_refl _)
  exact hInner _ s'' (hAhead.trans hMore)

theorem agree_child (terminated : Terminated s.all)
    (hInner : ∀ h s', Ahead 1 s s' → Agree 0 (inner h) (inner' h) s') (before : List Resource) :
    Agree 1 (child inner before) (child inner' before) s := by
  refine ((agree_named terminated hInner).bind (k := 0) fun r s' _ => ?_).mono (Nat.le_refl _)
  cases r.key? with
  | none => exact .pure s' r
  | some key =>
      dsimp only
      split
      · exact .throw s' _
      · exact .pure s' r

/-- An item that opens a block at once takes what the block does. -/
theorem agree_item (terminated : Terminated s.all) (le : k ≤ 1)
    (hBlock : Confined.opensBlock s.current.token = true → ∀ h, Agree k (inner h) (inner' h) s)
    (hInner : ∀ h s', Ahead 1 s s' → Agree 0 (inner h) (inner' h) s') (before : List Resource) :
    Agree k (item inner before) (item inner' before) s := by
  refine .here_bind (.current_bind ?_)
  cases hToken : s.current.token with
  | name n => exact (agree_named terminated hInner).mono le
  | mark c =>
      cases c with
      | leftBrace | leftBracket => exact hBlock (by rw [hToken]; rfl) _
      | _ => exact .unexpected s .listItem
  | _ => exact .unexpected s .listItem

end Inner

/-- One block of a resource, if there is one. `inner` reads the blocks in it. -/
def block (inner : Head → Reading Resource) (h : Head) : Reading Resource := do
  if ← atMark .leftBracket then
    advance
    if ← atMark .rightBracket then
      unexpected .listItem
    return .list h (← list .rightBracket .commaOrBracket (item inner))
  else if ← atMark .leftBrace then
    advance
    return .object h (← list .rightBrace .commaOrBrace (child inner))
  else return .field h

/-- Reading a body is a recursion on the depth of blocks, each of which reads the parts of one
block. -/
theorem body_eq_unrolled : body = unrolled block fun _ => unexpected .listItem := by
  funext depth
  induction depth with
  | zero => rfl
  | succ depth ih =>
      funext h
      rw [unrolled, ← ih]
      rfl

section Block

variable {inner inner' : Head → Reading Resource} (terminated : Terminated s.all)
  (hInner : ∀ h s', Ahead 1 s s' → Agree 0 (inner h) (inner' h) s')

include terminated hInner

/-- A block takes its opening bracket before anything else. -/
theorem agree_block_open (hOpen : Confined.opensBlock s.current.token = true) (h : Head) :
    Agree 1 (block inner h) (block inner' h) s := by
  have hNot : s.current.token ≠ .endOfInput := by
    intro hEnd
    rw [hEnd] at hOpen
    cases hOpen
  have hAdvance := Agree.advance terminated hNot
  have hLater {s' s'' : TokenStream} (hAhead : Ahead 1 s s') (hMore : Ahead 0 s' s'') :
      ∀ h s''', Ahead 1 s'' s''' → Agree 0 (inner h) (inner' h) s''' := fun h s''' hRest =>
    hInner h s''' (((hAhead.trans hMore).trans hRest).mono (Nat.le_add_left _ _))
  refine .mark_bind (.ite (fun _ => ?_) fun hNoList => .mark_bind (.ite (fun _ => ?_) fun hNoObject => ?_))
  · refine hAdvance.bind (k := 0) fun _ s' hAhead => .mark_bind ?_
    have hItems : Agree 0 (list .rightBracket .commaOrBracket (item inner))
        (list .rightBracket .commaOrBracket (item inner')) s' := by
      refine agree_list (hAhead.terminated terminated) fun before s'' hMore => ?_
      refine agree_item (hMore.terminated (hAhead.terminated terminated)) (Nat.zero_le _) (fun _ h => ?_)
        (hLater hAhead hMore) before
      exact hInner h s'' (hAhead.trans hMore)
    refine .ite (fun _ => .unexpected_bind s' .listItem) fun _ => ?_
    exact hItems.bind fun items s'' _ => .pure s'' _
  · refine hAdvance.bind (k := 0) fun _ s' hAhead => ?_
    have hChildren : Agree 0 (list .rightBrace .commaOrBrace (child inner))
        (list .rightBrace .commaOrBrace (child inner')) s' := by
      refine agree_list (hAhead.terminated terminated) fun before s'' hMore => ?_
      exact (agree_child (hMore.terminated (hAhead.terminated terminated)) (hLater hAhead hMore)
        before).mono (Nat.zero_le _)
    exact hChildren.bind fun children s'' _ => .pure s'' _
  · rw [Confined.opensBlock, Bool.or_eq_true_iff] at hOpen
    exact absurd (hOpen.resolve_left hNoList) hNoObject

end Block

/-- Every level of nesting takes its opening mark. -/
theorem progresses_block : Progresses block := by
  intro inner inner' h s terminated hInner
  cases hOpen : Confined.opensBlock s.current.token with
  | true => exact (agree_block_open terminated hInner hOpen h).mono (Nat.zero_le _)
  | false =>
      rw [Confined.opensBlock, Bool.or_eq_false_iff] at hOpen
      refine .mark_bind (.ite (fun hList => ?_) fun _ => .mark_bind (.ite (fun hObject => ?_) fun _ => ?_))
      · exact absurd hOpen.1 (by simp [hList])
      · exact absurd hOpen.2 (by simp [hObject])
      · exact .pure s _

/-- With any bound on the depth, what follows a chain is read onward, and a block takes a token. -/
theorem agree_body (terminated : Terminated s.all) (depth : Nat) (h : Head) :
    Agree 0 (body depth h) (body depth h) s := by
  rw [body_eq_unrolled]
  exact progresses_block.unrolled_onward (fun _ s => .unexpected s .listItem) depth h terminated

/-- An item takes a token at least, whatever the depth is that is left. -/
theorem agree_item_body (terminated : Terminated s.all) (depth : Nat) (before : List Resource) :
    Agree 1 (item (body depth) before) (item (body depth) before) s := by
  refine agree_item terminated (Nat.le_refl _) (fun hOpen h => ?_)
    (fun h s' hAhead => agree_body (hAhead.terminated terminated) depth h) before
  cases depth with
  | zero => exact .unexpected s .listItem
  | succ depth =>
      exact agree_block_open terminated
        (fun h s' hAhead => agree_body (hAhead.terminated terminated) depth h) hOpen h

theorem agree_child_body (terminated : Terminated s.all) (depth : Nat) (before : List Resource) :
    Agree 1 (child (body depth) before) (child (body depth) before) s :=
  agree_child terminated (fun h _ hAhead => agree_body (hAhead.terminated terminated) depth h) before

end Reading

end GatedQuery
