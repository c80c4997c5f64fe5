import GatedQuery.Proofs.Grammar.Acceptance
import GatedQuery.Proofs.Grammar.Confinement
import GatedQuery.Proofs.Grammar.Framing
import GatedQuery.Proofs.Grammar.Refusals

/-! Refusals in time. When a token is refused, there was still hope before it: the tokens in front
of it can be gone on with so that the whole derives from the grammar. The proofs follow the readers.
Each place where one of them refuses a token comes with a way to go on that does not use the token.
-/

namespace GatedQuery

open Grammar Reading TokenStream

variable {α β : Type} {derives : Tokens → Tokens → α → Prop} {derives' : Tokens → Tokens → β → Prop}

namespace Grammar

/-- Tokens that others can be put after so that something derives from all of them. -/
def Viable (derives : Tokens → Tokens → α → Prop) (before : Tokens) : Prop :=
  ∃ more x, (∀ t ∈ more, t.token ≠ .endOfInput) ∧ Takes derives (before ++ more) x

/-- What is derived already can be completed by nothing. -/
theorem Takes.viable {taken : Tokens} {x : α} (h : Takes derives taken x) : Viable derives taken :=
  ⟨[], x, by simp, by rwa [List.append_nil]⟩

/-- A phrase that can be finished stands in a larger one that can be finished. -/
theorem Viable.within {before : Tokens} (h : Viable derives before) (front back : Tokens)
    (hBack : ∀ t ∈ back, t.token ≠ .endOfInput)
    (context : ∀ taken x, Takes derives taken x → ∃ y, Takes derives' (front ++ taken ++ back) y) :
    Viable derives' (front ++ before) := by
  obtain ⟨more, x, hMore, hTaken⟩ := h
  obtain ⟨y, hAll⟩ := context _ x hTaken
  refine ⟨more ++ back, y, List.forall_mem_append.mpr ⟨hMore, hBack⟩, ?_⟩
  simpa using hAll

/-- Tokens that can be completed to a part can be completed to a whole that has this part after
`front`. -/
theorem Viable.after {before : Tokens} (h : Viable derives before) (front : Tokens)
    (context : ∀ taken x, Takes derives taken x → ∃ y, Takes derives' (front ++ taken) y) :
    Viable derives' (front ++ before) := by
  apply h.within front [] (by simp)
  simpa using context

end Grammar

/-- If a token is refused, then it is one of these, and the tokens before it are viable. -/
def QueryError.InTime (derives : Tokens → Tokens → α → Prop) (ts : Tokens) (e : QueryError) : Prop :=
  ∀ expected found p, e = .unexpected expected found p →
    ∃ before after, ts = before ++ ⟨found, p⟩ :: after ∧ Viable derives before

namespace QueryError.InTime

variable {ts us : Tokens} {e : QueryError}

/-- Other problems refuse no token. -/
theorem other (h : ∀ expected found p, e ≠ .unexpected expected found p) : e.InTime derives ts :=
  fun expected found p he => absurd he (h expected found p)

/-- A complaint about the current token is in time if the tokens before it can still be completed. -/
theorem at_current {front : Tokens} {expected : Expectation} (viable : Viable derives front)
    (ended : Ended us)
    (h : e = .unexpected expected (ofTokens us).current.token (ofTokens us).current.position) :
    e.InTime derives (front ++ us) := by
  obtain ⟨t, us, rfl⟩ := ended.exists_cons
  rintro _ _ _ rfl
  cases h
  exact ⟨front, us, rfl, viable⟩

/-- A problem in time for a part is in time for a whole that can begin with it. -/
theorem mono (h : e.InTime derives ts)
    (f : ∀ before, Viable derives before → Viable derives' before) : e.InTime derives' ts := by
  intro expected found p he
  obtain ⟨before, after, hTs, hViable⟩ := h expected found p he
  exact ⟨before, after, hTs, f before hViable⟩

/-- The same of a part that stands behind other tokens of the whole. -/
theorem after (h : e.InTime derives us) (front : Tokens)
    (context : ∀ taken x, Takes derives taken x → ∃ y, Takes derives' (front ++ taken) y) :
    e.InTime derives' (front ++ us) := by
  intro expected found p he
  obtain ⟨before, after, rfl, hViable⟩ := h expected found p he
  exact ⟨front ++ before, after, by simp, hViable.after front context⟩

end QueryError.InTime

namespace Reading

open QueryError

variable {ts : Tokens} {e : QueryError} {s s' : TokenStream}

/-- A reader that refuses a token only as long as there is hope. -/
def StopsInTime (derives : Tokens → Tokens → α → Prop) (m : Reading β) : Prop :=
  ∀ ts e s, Ended ts → Fails m (ofTokens ts) e s → e.InTime derives ts

theorem stopsInTime_unexpected (viable : Viable derives []) (expected : Expectation) :
    StopsInTime derives (unexpected expected : Reading β) :=
  fun _ _ _ ended h => .at_current viable ended (fails_unexpected.mp h).1

section Separated

variable {item : Tokens → Tokens → α → Prop} {read : List α → Reading α} {close : Mark}
  {between : Expectation} {before : List α} {fuel : Nat}

/-- Items up to the mark `close`, at least one of them. -/
def Filled (item : Tokens → Tokens → α → Prop) (close : Mark) (ts rest : Tokens) (xs : List α) :
    Prop :=
  xs ≠ [] ∧ Separated item close ts rest xs

/-- The start of an item is the start of a list with items. -/
theorem viable_filled {before : Tokens} (h : Viable item before) :
    Viable (Filled item close) before := by
  apply h.within [] [⟨.mark close, .start⟩] (by simp)
  exact fun taken x hTaken => ⟨[x], fun rest => ⟨List.cons_ne_nil _ _, hTaken.last .start rest⟩⟩

/-- After the last item there is no more work, so that nothing can go wrong but the bound on it. -/
theorem refused_of_closed (h : s.current.token.isMark close = true)
    (hFails : Fails (separated close between read fuel before) s e s') :
    e = .unexpected between s.current.token s.current.position := by
  cases fuel with
  | zero => exact (fails_unexpected.mp hFails).1
  | succ fuel =>
      obtain ⟨hOther, _⟩ := fails_separated_succ.mp hFails
      rw [h] at hOther
      cases hOther

/-- A list can be ended after each of its items, and in front of an item an item can be put. -/
theorem inTime_of_separated {invariant : List α → Prop}
    (finds : ∀ before, invariant before →
      Finds (read before) fun ts rest x => item ts rest x ∧ invariant (before ++ [x]))
    (framed : Framed item) (viable : Viable item [])
    (stops : ∀ before, StopsInTime item (read before)) (hBefore : invariant before)
    (ended : Ended ts)
    (h : Fails (separated close between read fuel before) (ofTokens ts) e s) :
    e.InTime (Filled item close) ts := by
  induction fuel generalizing before ts with
  | zero => exact stopsInTime_unexpected (viable_filled viable) between ts e s ended h
  | succ fuel ih =>
      obtain ⟨_, hItem | ⟨x, t, hRead, hMore⟩⟩ := fails_separated_succ.mp h
      · exact (stops before ts e s ended hItem).mono fun _ => viable_filled
      · obtain ⟨us, rfl, hUs, hHead, hAdded⟩ := finds before hBefore ts x t ended hRead
        obtain ⟨taken, rfl, hTaken⟩ := framed _ _ _ hHead
        -- after an item the list can be ended at once, whatever stands there
        rcases hMore with ⟨hClose, hMore⟩ | ⟨_, hTake | ⟨hComma, hMore⟩⟩
        · exact .at_current (viable_filled hTaken.viable) hUs (refused_of_closed hClose hMore)
        · exact .at_current (viable_filled hTaken.viable) hUs (fails_take.mp hTake).2.1
        · obtain ⟨p, vs, rfl, hVs, hAdvance⟩ := hUs.exists_mark hComma
          rw [hAdvance] at hMore
          rw [List.append_cons]
          apply (ih hAdded hVs hMore).after
          intro taken' xs hXs
          refine ⟨x :: xs, fun rest => ⟨List.cons_ne_nil _ _, ?_⟩⟩
          rw [← List.append_cons]
          exact hTaken.cons p (fun rest => (hXs rest).2) rest

/-- A list stops in time if its items do: after some items and commas, whatever begins an item can
be completed to a list. -/
theorem stopsInTime_list {invariant : List α → Prop}
    (finds : ∀ before, invariant before →
      Finds (read before) fun ts rest x => item ts rest x ∧ invariant (before ++ [x]))
    (framed : Framed item) (viable : Viable item [])
    (stops : ∀ before, StopsInTime item (read before)) (hNone : invariant []) :
    StopsInTime (Filled item close) (list close between read) :=
  fun _ _ _ ended h => inTime_of_separated finds framed viable stops hNone ended (fails_list.mp h)

end Separated

/-- An argument can begin with nothing read, as there is one. -/
theorem viable_argument : Viable IsArgument [] :=
  ⟨[⟨.integer 0, .start⟩], .positional (.integer 0), by simp, fun _ => .positional .integer⟩

/-- A name and its sign can be completed by a literal. -/
theorem viable_named_argument (n : String) (p : Position) {sign : PlacedToken}
    (marked : sign.token = .mark .colon ∨ sign.token = .mark .equals) :
    Viable IsArgument [⟨.name n, p⟩, sign] :=
  ⟨[⟨.integer 0, .start⟩], .named n (.integer 0), by simp, fun _ => .named marked .integer⟩

/-- An argument is refused at the first token that no argument has there. -/
theorem stopsInTime_argument (before : List Argument) :
    StopsInTime IsArgument (argument before) := by
  intro ts e s ended h
  rcases fails_argument.mp h with ⟨n, hName, hSign, ⟨_, rfl, _⟩ | ⟨_, hLiteral⟩⟩ | ⟨_, hPositional⟩
  · exact .other (by simp)
  · obtain ⟨p, us, rfl, hUs, hAdvance⟩ := ended.exists_token hName Token.noConfusion
    obtain ⟨sign, vs, rfl⟩ := hUs.exists_cons
    have hNot : sign.token ≠ .endOfInput := Confined.ne_endOfInput_of_isSign hSign
    rw [hAdvance, hUs.advance hNot] at hLiteral
    obtain ⟨_, hHere, _⟩ := fails_literal.mp hLiteral
    exact .at_current (viable_named_argument n p (sign_of_isSign hSign)) (hUs.tail hNot) hHere
  · rcases fails_positional.mp hPositional with ⟨_, rfl, _⟩ | ⟨_, hLiteral⟩
    · exact .other (by simp)
    · obtain ⟨_, hHere, _⟩ := fails_literal.mp hLiteral
      exact .at_current viable_argument ended hHere

theorem viable_segment : Viable Segment [] :=
  ⟨[⟨.name "_", .start⟩], .member "_" .start, by simp, fun _ => .member⟩

/-- A name or a call is refused at the first token that none has there. -/
theorem stopsInTime_segment : StopsInTime Segment segment := by
  intro ts e s ended h
  rcases fails_segment.mp h with ⟨n, hName, hOpen, hArguments⟩ | ⟨_, hHere, _⟩
  · obtain ⟨p, us, rfl, hUs, hAdvance⟩ := ended.exists_token hName Token.noConfusion
    rw [hAdvance] at hOpen hArguments
    obtain ⟨q, vs, rfl, hVs, hAdvance⟩ := hUs.exists_mark hOpen
    rw [hAdvance] at hArguments
    have hList := stopsInTime_list (fun _ => finds_argument) isArgument_framed viable_argument
      stopsInTime_argument ordered_nil vs e s hVs hArguments
    apply hList.after [⟨.name n, p⟩, ⟨.mark .leftParen, q⟩]
    exact fun taken args hTaken => ⟨.call n args p, fun rest => .call (hTaken rest).2⟩
  · exact .at_current viable_segment ended hHere

/-- A slice whose first colon is there can only have a step of zero. -/
theorem zeroStep_of_slice {start : Option Int64} {p : Position}
    (hColon : s.current.token.isMark .colon = true) (h : Fails (slice start p) s e s') :
    ∃ q, e = .zeroStep q := by
  rcases fails_slice.mp h with hTake | ⟨_, _, _, _, _, _, _, _, _, hZero, _⟩
  · obtain ⟨hNot, _⟩ := fails_take.mp hTake
    rw [hColon] at hNot
    cases hNot
  · exact ⟨_, hZero⟩

/-- An index or a slice is refused in time: what stands before the refused token can be completed by
a number or by nothing. -/
theorem inTime_of_subscript (h : FailsSubscript s e s') : e.InTime derives ts := by
  have hZero : ∃ q, e = .zeroStep q := by
    rcases h with ⟨i, _, hIndex⟩ | ⟨hColon, hSlice⟩
    · obtain ⟨hColon, hSlice⟩ := fails_indexOrSlice.mp hIndex
      exact zeroStep_of_slice hColon hSlice
    · exact zeroStep_of_slice (Token.isMark_iff.mpr hColon) hSlice
  obtain ⟨q, rfl⟩ := hZero
  exact .other (by simp)

theorem viable_dotted : Viable Dotted [] :=
  viable_segment.after [] fun _ s hTaken => ⟨s, fun rest => .inl (hTaken rest)⟩

/-- A step behind a dot is refused at the first token that none has there. -/
theorem stopsInTime_dottedStep : StopsInTime Dotted dottedStep := by
  intro ts e s ended h
  rcases fails_dottedStep.mp h with ⟨_, _, hSegment⟩ | hSubscript | ⟨_, _, _, hHere, _⟩
  · exact (stopsInTime_segment ts e s ended hSegment).after []
      fun _ s hTaken => ⟨s, fun rest => .inl (hTaken rest)⟩
  · exact inTime_of_subscript hSubscript
  · exact .at_current viable_dotted ended hHere

theorem finds_dottedStep : Finds dottedStep Dotted := by
  intro ts x s ended h
  rcases reads_dottedStep.mp h with ⟨_, _, hSegment⟩ | hSubscript
  · obtain ⟨us, rfl, hUs, hHead, _⟩ := finds_segment ts x s ended hSegment
    exact ⟨us, rfl, hUs, .inl hHead⟩
  · obtain ⟨us, rfl, hUs, hHead, _⟩ := exists_subscript_of_reads ended hSubscript
    exact ⟨us, rfl, hUs, .inr hHead⟩

theorem viable_bracketed : Viable Bracketed [] :=
  ⟨[⟨.integer 0, .start⟩, ⟨.mark .rightBracket, .start⟩], .index 0 .start, by simp,
    fun _ => ⟨.start, .index⟩⟩

/-- A step in brackets is refused at the first token that none has there, the closing bracket
included. -/
theorem stopsInTime_bracketStep : StopsInTime Bracketed bracketStep := by
  intro ts e s ended h
  rcases fails_bracketStep.mp h with hSubscript | ⟨_, _, hHere, _⟩ | ⟨x, t, hRead, hTake⟩
  · exact inTime_of_subscript hSubscript
  · exact .at_current viable_bracketed ended hHere
  · obtain ⟨us, rfl, hUs, hHead, _⟩ := exists_subscript_of_reads ended hRead
    obtain ⟨taken, rfl, hTaken⟩ := subscript_framed _ _ _ hHead
    have hViable : Viable Bracketed taken :=
      ⟨[⟨.mark .rightBracket, .start⟩], x, by simp, hTaken.bracketed .start⟩
    exact .at_current hViable hUs (fails_take.mp hTake).2.1

theorem finds_bracketStep : Finds bracketStep Bracketed := by
  intro ts x s ended h
  obtain ⟨t, hSubscript, hClose, rfl⟩ := reads_bracketStep.mp h
  obtain ⟨us, rfl, hUs, hHead, _⟩ := exists_subscript_of_reads ended hSubscript
  obtain ⟨q, vs, rfl, hVs, hAdvance⟩ := hUs.exists_mark hClose
  exact ⟨vs, hAdvance, hVs, q, hHead⟩

theorem takes_tail_nil : Takes Tail [] [] :=
  fun _ => .nil

/-- A step that fails after the mark in front of it, or steps after it that do. -/
theorem inTime_of_step {step : Reading Step} {more : Step → Reading (List Step)} {t : PlacedToken}
    {us : Tokens} {head : Tokens → Tokens → Step → Prop} (finds : Finds step head)
    (framed : Framed head) (stops : StopsInTime head step)
    (stopsMore : ∀ x, StopsInTime Tail (more x))
    (context : ∀ {taken taken' x xs}, Takes head taken x → Takes Tail taken' xs →
      Takes Tail (t :: taken ++ taken') (x :: xs))
    (hUs : Ended us) (h : Fails step (ofTokens us) e s ∨
      ∃ x v, Reads step (ofTokens us) x v ∧ Fails (more x) v e s) :
    e.InTime Tail (t :: us) := by
  rcases h with hStep | ⟨x, v, hRead, hMore⟩
  · apply (stops us e s hUs hStep).after [t]
    intro taken x hTaken
    refine ⟨[x], ?_⟩
    simpa using context hTaken takes_tail_nil
  · obtain ⟨vs, rfl, hVs, hHead⟩ := finds us x v hUs hRead
    obtain ⟨taken, rfl, hTaken⟩ := framed _ _ _ hHead
    apply (stopsMore x vs e s hVs hMore).after (t :: taken)
    exact fun taken' xs hTail => ⟨x :: xs, context hTaken hTail⟩

/-- The loop over a chain stops in time, as a chain may end after every step. -/
theorem stopsInTime_steps (fuel : Nat) (before : List Step) :
    StopsInTime Tail (steps fuel before) := by
  induction fuel generalizing before with
  | zero => exact stopsInTime_unexpected takes_tail_nil.viable .step
  | succ fuel ih =>
      intro ts e s ended h
      rcases fails_steps_succ.mp h with ⟨hDot, hStep⟩ | ⟨_, hOpen, hStep⟩
      · obtain ⟨p, us, rfl, hUs, hAdvance⟩ := ended.exists_mark hDot
        rw [hAdvance] at hStep
        exact inTime_of_step finds_dottedStep dotted_framed stopsInTime_dottedStep (fun _ => ih _)
          (fun hHead => hHead.tail_dot p) hUs hStep
      · obtain ⟨p, us, rfl, hUs, hAdvance⟩ := ended.exists_mark (Bool.and_eq_true_iff.mp hOpen).1
        rw [hAdvance] at hStep
        exact inTime_of_step finds_bracketStep bracketed_framed stopsInTime_bracketStep
          (fun _ => ih _) (fun hHead => hHead.tail_bracket p) hUs hStep

/-- A chain is refused at the first token that no chain has there. -/
theorem stopsInTime_chain : StopsInTime Chain chain := by
  intro ts e s ended h
  rcases fails_chain.mp h with hSegment | ⟨x, t, hRead, hMore⟩
  · apply (stopsInTime_segment ts e s ended hSegment).after []
    intro taken x hTaken
    refine ⟨[x], ?_⟩
    simpa using hTaken.chain takes_tail_nil
  · obtain ⟨us, rfl, hUs, hHead, _⟩ := finds_segment ts x t ended hRead
    obtain ⟨taken, rfl, hTaken⟩ := segment_framed _ _ _ hHead
    apply (stopsInTime_steps _ _ us e s hUs hMore).after taken
    exact fun taken' xs hTail => ⟨x :: xs, hTaken.chain hTail⟩

/-- An alias in front of a chain, or none. -/
theorem exists_label_of_reads {label : Option String} (ended : Ended ts)
    (h : Reads label? (ofTokens ts) label s) :
    ∃ front us, ts = front ++ us ∧ s = ofTokens us ∧ Ended us ∧
      ∀ taken steps, Takes Chain taken steps →
        ∃ p, Takes IsHead (front ++ taken) ⟨label, steps, p⟩ := by
  rcases reads_label.mp h with ⟨n, hName, hColon, rfl, rfl⟩ | ⟨_, rfl, rfl⟩
  · obtain ⟨p, us, rfl, hUs, hAdvance⟩ := ended.exists_token hName Token.noConfusion
    obtain ⟨u, us, rfl⟩ := hUs.exists_cons
    obtain ⟨q, vs, hCons, hVs, hNext⟩ := hUs.exists_mark hColon
    cases hCons
    refine ⟨[⟨.name n, p⟩, ⟨.mark .colon, q⟩], us, rfl, ?_, hVs, ?_⟩
    · rw [hAdvance, hNext]
    · exact fun taken steps hTaken => ⟨p, fun rest => .labelled (hTaken rest)⟩
  · refine ⟨[], ts, rfl, rfl, ended, fun taken steps hTaken => ?_⟩
    obtain ⟨t, us, rfl⟩ := hTaken.exists_cons fun _ _ => Chain.length
    exact ⟨t.position, fun rest => .plain (hTaken rest)⟩

variable {body : Head → Reading Resource}

/-- A resource is refused in time if its body is. -/
theorem stopsInTime_named (stops : ∀ h, StopsInTime Body (body h)) :
    StopsInTime (Named Block) (named body) := by
  intro ts e s ended h
  obtain ⟨label, t, hLabel, hChain⟩ := fails_named.mp h
  obtain ⟨front, us, rfl, rfl, hUs, hHead⟩ := exists_label_of_reads ended hLabel
  rcases hChain with hChain | ⟨steps, u, hRead, hBody⟩
  · apply (stopsInTime_chain us e s hUs hChain).after front
    intro taken steps hTaken
    obtain ⟨p, hField⟩ := hHead taken steps hTaken
    exact ⟨_, hField.field⟩
  · obtain ⟨vs, rfl, hVs, hSteps, _⟩ := finds_chain us steps u hUs hRead
    obtain ⟨taken, rfl, hTaken⟩ := chain_framed _ _ _ hSteps
    obtain ⟨p, hStart⟩ := hHead taken steps hTaken
    rw [← List.append_assoc]
    apply (stops _ vs e s hVs hBody).after (front ++ taken)
    exact fun taken' f hInner => ⟨_, hStart.block fun rest => hInner rest _⟩

theorem stopsInTime_child (stops : ∀ h, StopsInTime Body (body h)) (before : List Resource) :
    StopsInTime (Named Block) (child body before) := by
  intro ts e s ended h
  rcases fails_child.mp h with hNamed | ⟨_, _, _, _, _, _, rfl⟩
  · exact stopsInTime_named stops ts e s ended hNamed
  · exact .other (by simp)

theorem viable_named : Viable (Named Block) [] :=
  ⟨[⟨.name "_", .start⟩], .field ⟨none, [.member "_" .start], .start⟩, by simp,
    fun _ => .field (.plain (.cons .member .nil))⟩

/-- An item can begin with nothing read, as there is one. -/
theorem viable_item : Viable (Item Block) [] :=
  viable_named.after [] fun _ r hTaken => ⟨r, fun rest => .named (hTaken rest)⟩

/-- An item is refused in time if its body is. -/
theorem stopsInTime_item (stops : ∀ h, StopsInTime Body (body h)) (before : List Resource) :
    StopsInTime (Item Block) (item body before) := by
  intro ts e s ended h
  rcases fails_item.mp h with ⟨_, hBody⟩ | ⟨_, hNamed⟩ | ⟨_, _, _, hHere, _⟩
  · apply (stops _ ts e s ended hBody).after []
    intro taken f hTaken
    -- the place of a bare block is that of its first token, which is known only now
    obtain ⟨t, us, rfl⟩ := Takes.exists_cons (fun rest => hTaken rest ⟨none, [], .start⟩)
      fun _ _ => Block.length
    exact ⟨_, fun rest => .bare (hTaken rest _)⟩
  · apply (stopsInTime_named stops ts e s ended hNamed).after []
    exact fun _ r hTaken => ⟨r, fun rest => .named (hTaken rest)⟩
  · exact .at_current viable_item ended hHere

/-- A body can begin with nothing read, as a field has none. -/
theorem viable_body : Viable Body [] :=
  ⟨[⟨.mark .leftBrace, .start⟩, ⟨.mark .rightBrace, .start⟩], fun h => .object h [], by simp,
    fun _ _ => .object .nil⟩

/-- An opening bracket and items with their closing bracket are the body of a list. -/
theorem takes_list {taken : Tokens} {items : List Resource} (p : Position)
    (h : Takes (Filled (Item Block) .rightBracket) taken items) :
    Takes Body (⟨.mark .leftBracket, p⟩ :: taken) fun h => .list h items :=
  fun rest _ => .list (h rest).1 (h rest).2

/-- The children of an object are refused in time. -/
theorem stopsInTime_children (finds : FindsBody body) (stops : ∀ h, StopsInTime Body (body h)) :
    StopsInTime (Filled (Named Block) .rightBrace) (list .rightBrace .commaOrBrace (child body)) :=
  stopsInTime_list (fun _ => finds_child finds) named_framed viable_named (stopsInTime_child stops)
    children_nil

theorem stopsInTime_items (finds : FindsBody body) (stops : ∀ h, StopsInTime Body (body h)) :
    StopsInTime (Filled (Item Block) .rightBracket)
      (list .rightBracket .commaOrBracket (item body)) :=
  stopsInTime_list (fun _ => finds_item finds) item_framed viable_item (stopsInTime_item stops)
    fun _ hr => absurd hr List.not_mem_nil

/-- A body is refused in time at every depth. The induction is on the depth. -/
theorem stopsInTime_body (depth : Nat) (h : Head) : StopsInTime Body (Reading.body depth h) := by
  induction depth generalizing h with
  | zero => exact stopsInTime_unexpected viable_body .listItem
  | succ depth ih =>
      intro ts e s ended hFails
      rcases fails_body_succ.mp hFails with ⟨hOpen, hItems⟩ | ⟨_, hOpen, hChildren⟩
      · obtain ⟨p, us, rfl, hUs, hAdvance⟩ := ended.exists_mark hOpen
        rw [hAdvance] at hItems
        rcases hItems with ⟨_, hHere⟩ | ⟨_, hItems⟩
        · have hViable : Viable Body [⟨.mark .leftBracket, p⟩] :=
            (viable_filled viable_item).after [⟨.mark .leftBracket, p⟩]
              fun _ _ hTaken => ⟨_, takes_list p hTaken⟩
          exact .at_current hViable hUs (fails_unexpected.mp hHere).1
        · apply (stopsInTime_items (finds_body depth) ih us e s hUs hItems).after
            [⟨.mark .leftBracket, p⟩]
          exact fun _ _ hTaken => ⟨_, takes_list p hTaken⟩
      · obtain ⟨p, us, rfl, hUs, hAdvance⟩ := ended.exists_mark hOpen
        rw [hAdvance] at hChildren
        apply (stopsInTime_children (finds_body depth) ih us e s hUs hChildren).after
          [⟨.mark .leftBrace, p⟩]
        exact fun _ children hTaken =>
          ⟨fun h => .object h children, fun rest _ => .object (hTaken rest).2⟩

/-- A query without the end of the input. -/
inductive Rooted : Tokens → Tokens → Query → Prop where
  | mk {t : PlacedToken} {ts us rest : Tokens} {p : Position} {chain : List Step}
      {children : List Resource} (steps : Chain (t :: ts) (⟨.mark .leftBrace, p⟩ :: us) chain)
      (inner : Separated (Named Block) .rightBrace us rest children) :
      Rooted (t :: ts) rest ⟨⟨none, chain, t.position⟩, children⟩

/-- A query that is followed by the end of the input alone is a whole query. -/
theorem Rooted.isQuery {q : Query} {p : Position} (h : Rooted ts [⟨.endOfInput, p⟩] q) :
    IsQuery ts q := by
  cases h with
  | mk steps inner => exact .mk steps inner

/-- A chain and a block of children are a query. -/
theorem takes_rooted {taken taken' : Tokens} {steps : List Step} {children : List Resource}
    (hSteps : Takes Chain taken steps) (p : Position)
    (hInner : Takes (Separated (Named Block) .rightBrace) taken' children) :
    ∃ q, Takes Rooted (taken ++ ⟨.mark .leftBrace, p⟩ :: taken') q := by
  obtain ⟨t, us, rfl⟩ := hSteps.exists_cons fun _ _ => Chain.length
  refine ⟨⟨⟨none, steps, t.position⟩, children⟩, fun rest => ?_⟩
  rw [List.append_assoc]
  exact .mk (hSteps _) (hInner rest)

/-- The start of a chain is the start of a query. -/
theorem viable_rooted {before : Tokens} (h : Viable Chain before) : Viable Rooted before := by
  apply h.within [] [⟨.mark .leftBrace, .start⟩, ⟨.mark .rightBrace, .start⟩] (by simp)
  exact fun taken steps hTaken => takes_rooted hTaken .start fun _ => .nil

/-- A query is refused at the first token that no query has there. -/
theorem stopsInTime_query : StopsInTime Rooted query := by
  intro ts e s ended h
  rcases fails_query.mp h with hChain | ⟨steps, t, hRead, hRest⟩
  · exact (stopsInTime_chain ts e s ended hChain).mono fun _ => viable_rooted
  · obtain ⟨us, rfl, hUs, hSteps, _⟩ := finds_chain ts steps t ended hRead
    obtain ⟨taken, rfl, hTaken⟩ := chain_framed _ _ _ hSteps
    rcases hRest with hTake | ⟨hOpen, hChildren⟩
    · exact .at_current (viable_rooted hTaken.viable) hUs (fails_take.mp hTake).2.1
    · obtain ⟨p, vs, rfl, hVs, hAdvance⟩ := hUs.exists_mark hOpen
      rw [hAdvance] at hChildren
      rcases hChildren with hChildren | ⟨children, u, hRead, _, hHere, _⟩
      · rw [List.append_cons]
        apply (stopsInTime_children (finds_body _) (stopsInTime_body _) vs e s hVs hChildren).after
        intro taken' children hInner
        rw [← List.append_cons]
        exact takes_rooted hTaken p fun rest => (hInner rest).2
      · obtain ⟨ws, rfl, hWs, hList, _⟩ :=
          finds_list (fun _ => finds_child (finds_body _)) children_nil vs children u hVs hRead
        obtain ⟨taken', rfl, hInner⟩ := hList.framed fun r _ us vs => named_framed us vs r
        obtain ⟨q, hQuery⟩ := takes_rooted hTaken p hInner
        have hAll := InTime.at_current hQuery.viable hWs hHere
        rwa [List.append_assoc] at hAll

end Reading

/-- The refused token is one of those up to the end of the input, whatever stands behind it. -/
theorem inTime_of_readQuery {ts : Tokens} {e : QueryError} (ended : Ended ts) (more : Tokens)
    (h : (ofTokens (ts ++ more)).readQuery.1 = .error e) : e.InTime Rooted ts := by
  have hRun := readQuery_append ended more
  generalize hRead : (ofTokens ts).readQuery = r at hRun
  generalize (ofTokens (ts ++ more)).readQuery = r' at h hRun
  cases hRun with
  | ok => cases h
  | error =>
      cases h
      exact stopsInTime_query ts e _ ended hRead

/-- The start of a query can be completed to all tokens of a query. -/
theorem exists_derives_of_viable {before : Tokens} (h : Viable Rooted before)
    (hBefore : ∀ t ∈ before, t.token ≠ .endOfInput) : ∃ more q, Derives (before ++ more) q := by
  obtain ⟨more, q, hMore, hTaken⟩ := h
  have hAll : ∀ t ∈ before ++ more, t.token ≠ .endOfInput :=
    List.forall_mem_append.mpr ⟨hBefore, hMore⟩
  exact ⟨more, q, before ++ more, .start, .inl rfl, hAll, (hTaken [⟨.endOfInput, .start⟩]).isQuery⟩

/-- A token in front of a last one is that one or stands in what is before it. -/
theorem split_concat {before after front : Tokens} {t u : PlacedToken}
    (h : before ++ t :: after = front ++ [u]) :
    front = before ∧ t = u ∨ ∃ middle, front = before ++ t :: middle := by
  rcases List.eq_nil_or_concat after with rfl | ⟨middle, v, rfl⟩
  · obtain ⟨hFront, hLast⟩ := List.append_inj' h rfl
    exact .inl ⟨hFront.symm, (List.cons.inj hLast).1⟩
  · rw [List.concat_eq_append, ← List.cons_append, ← List.append_assoc] at h
    exact .inr ⟨middle, (List.append_inj' h rfl).1.symm⟩

/-- The end of the input is the last token, so that no token before another one is the end. -/
theorem Ended.before_ne {before after : Tokens} {t : PlacedToken}
    (h : Ended (before ++ t :: after)) : ∀ u ∈ before, u.token ≠ .endOfInput := by
  obtain ⟨front, p, hAll, hFront⟩ := h
  rcases split_concat hAll with ⟨rfl, _⟩ | ⟨middle, rfl⟩
  · exact hFront
  · exact fun u hu => hFront u (List.mem_append_left _ hu)

/-- The place of the last token, or of the start of the text if there is none. -/
def Tokens.lastPlace (ts : Tokens) : Position :=
  (ts.getLast?.map PlacedToken.position).getD .start

/-- A stream holds its tokens, and the end of the input at the place of the last one if that is not
there yet. -/
theorem ofList_cases (ts : Tokens) :
    (∃ t ∈ ts, t.token = .endOfInput) ∧ (∃ more, ofList ts = ofTokens (ts ++ more)) ∨
      (∀ t ∈ ts, t.token ≠ .endOfInput) ∧
        ofList ts = ofTokens (ts ++ [⟨.endOfInput, Tokens.lastPlace ts⟩]) := by
  rcases List.eq_nil_or_concat ts with rfl | ⟨before, t, rfl⟩
  · exact .inr ⟨by simp, rfl⟩
  · rw [List.concat_eq_append]
    by_cases hEnd : t.token = .endOfInput
    · obtain ⟨token, p⟩ := t
      obtain rfl : token = .endOfInput := hEnd
      refine .inl ⟨⟨_, List.mem_concat_self, rfl⟩, [], ?_⟩
      rw [List.append_nil, ofList_ended]
    · have hPlace : Tokens.lastPlace (before ++ [t]) = t.position := by simp [Tokens.lastPlace]
      rw [hPlace, ofList_concat before hEnd]
      by_cases hSome : ∃ u ∈ before ++ [t], u.token = .endOfInput
      · exact .inl ⟨hSome, _, rfl⟩
      · exact .inr ⟨fun u hu hToken => hSome ⟨u, hu, hToken⟩, rfl⟩

/-- Syntax errors come in time. A token that is refused is one of the tokens that were given, or it
is the end of the input after all of them, at the place of the last one, and it is at the place that
is told. The tokens before it could have been gone on with: followed by others they derive from the
grammar. The refused token itself can be possible there, as a name is in front of a sign in
arguments. -/
theorem refused_in_time (ts : Tokens) {expected : Expectation} {found : Token} {p : Position}
    (h : (ofList ts).readQuery.1 = .error (.unexpected expected found p)) :
    ∃ before, (∀ t ∈ before, t.token ≠ .endOfInput) ∧
      ((∃ after, ts = before ++ ⟨found, p⟩ :: after) ∨
        (ts = before ∧ found = .endOfInput ∧ p = Tokens.lastPlace ts)) ∧
      ∃ more q, Derives (before ++ more) q := by
  have hEnded {front more : Tokens} (ended : Ended front)
      (hRead : (ofTokens (front ++ more)).readQuery.1 = .error (.unexpected expected found p)) :
      ∃ before after, front = before ++ ⟨found, p⟩ :: after ∧
        (∀ t ∈ before, t.token ≠ .endOfInput) ∧ ∃ more q, Derives (before ++ more) q := by
    obtain ⟨before, after, rfl, hViable⟩ := inTime_of_readQuery ended more hRead expected found p rfl
    exact ⟨before, after, rfl, ended.before_ne, exists_derives_of_viable hViable ended.before_ne⟩
  rcases ofList_cases ts with ⟨hSome, more, hStream⟩ | ⟨hNone, hStream⟩
  · -- what follows the first end of the input is not looked at
    obtain ⟨front, back, rfl, ended⟩ := exists_ended_prefix hSome
    rw [hStream, List.append_assoc] at h
    obtain ⟨before, after, rfl, hBefore, hMore⟩ := hEnded ended h
    exact ⟨before, hBefore, .inl ⟨after ++ back, by simp⟩, hMore⟩
  · rw [hStream, ← List.append_nil (ts ++ _)] at h
    obtain ⟨before, after, hAll, hBefore, hMore⟩ := hEnded ⟨ts, _, rfl, hNone⟩ h
    refine ⟨before, hBefore, ?_, hMore⟩
    rcases split_concat hAll.symm with ⟨rfl, hFound⟩ | ⟨middle, rfl⟩
    · cases hFound
      exact .inr ⟨rfl, rfl, rfl⟩
    · exact .inl ⟨middle, rfl⟩

/-- The tokens of `Me \x7b id name \x7d`. -/
def missingComma : Tokens :=
  [⟨.name "Me", ⟨0, 1, 1⟩⟩, ⟨.mark .leftBrace, ⟨3, 1, 4⟩⟩, ⟨.name "id", ⟨5, 1, 6⟩⟩,
    ⟨.name "name", ⟨8, 1, 9⟩⟩, ⟨.mark .rightBrace, ⟨13, 1, 14⟩⟩]

theorem refused_in_time_missingComma :
    (ofList missingComma).readQuery.1 =
        .error (.unexpected .commaOrBrace (.name "name") ⟨8, 1, 9⟩) ∧
      ∃ before after more q, missingComma = before ++ ⟨.name "name", ⟨8, 1, 9⟩⟩ :: after ∧
        Derives (before ++ more) q := by
  have hRefused : (ofList missingComma).readQuery.1 =
      .error (.unexpected .commaOrBrace (.name "name") ⟨8, 1, 9⟩) := rfl
  obtain ⟨before, _, hFound, more, q, hMore⟩ := refused_in_time missingComma hRefused
  rcases hFound with ⟨after, hAll⟩ | ⟨_, hEnd, _⟩
  · exact ⟨hRefused, before, after, more, q, hAll, hMore⟩
  · exact absurd hEnd Token.noConfusion

end GatedQuery
