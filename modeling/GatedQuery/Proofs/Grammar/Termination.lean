import GatedQuery.Proofs.Grammar.Lookahead
import GatedQuery.Proofs.Scanning.Progress

/-! Reading ends on every input. A text is split into tokens in no more calls than it has characters
and one, and whatever tokens a query is read from, no loop and no recursion goes on without taking one
of them. -/

namespace GatedQuery

open TokenStream Reading

namespace Reading

variable {ι α : Type} {level : (ι → Reading α) → ι → Reading α} {bounded : Nat → ι → Reading α}

/-- A loop or a recursion that ends on every stream. From one level to the next it takes a token. The
readers `bounded` go down as many levels as they are told, and with more levels than there are tokens
after the current one they read what any recursion of these levels does, whatever it does below them. -/
structure Ends (level : (ι → Reading α) → ι → Reading α) (bounded : Nat → ι → Reading α) : Prop where
  progresses : Progresses level
  unrolled : ∃ deepest, bounded = unrolled level deepest
  enough : ∀ (deepest : ι → Reading α) (depth depth' : Nat) (i : ι) (s : TokenStream),
    Terminated s.all → s.following.length < depth → s.following.length < depth' →
    (bounded depth i).run.run s = (Reading.unrolled level deepest depth' i).run.run s

/-- A loop whose rounds take tokens ends by itself: with fuel for the tokens that are left, it does
not matter how much fuel there is. -/
theorem Progresses.ends {deepest : ι → Reading α} (h : Progresses level)
    (hBounded : bounded = Reading.unrolled level deepest) : Ends level bounded := by
  refine ⟨h, ⟨deepest, hBounded⟩, fun other depth depth' i s terminated hDepth hDepth' => ?_⟩
  rw [hBounded]
  exact (h.unrolled_agree terminated hDepth hDepth' i).same

/-- The loop over arguments ends by itself. -/
theorem ends_arguments : Ends (round .rightParen .commaOrParen argument)
    (separated .rightParen .commaOrParen argument) :=
  (progresses_round fun before _ terminated => .argument terminated before).ends
    separated_eq_unrolled

/-- The loop over items ends by itself at every depth. -/
theorem ends_items (depth : Nat) : Ends (round .rightBracket .commaOrBracket (item (body depth)))
    (separated .rightBracket .commaOrBracket (item (body depth))) :=
  (progresses_round fun before _ terminated => agree_item_body terminated depth before).ends
    separated_eq_unrolled

/-- The loop over children ends by itself at every depth. -/
theorem ends_children (depth : Nat) : Ends (round .rightBrace .commaOrBrace (child (body depth)))
    (separated .rightBrace .commaOrBrace (child (body depth))) :=
  (progresses_round fun before _ terminated => agree_child_body terminated depth before).ends
    separated_eq_unrolled

def chainWithin (bound : Nat) : Reading (List Step) := do
  let first ← segment
  steps bound [first]

/-- Read a query with one bound on the steps of its chain, on the number of its children and on the
depth of each of them. -/
def queryWithin (bound : Nat) : Reading Query := do
  let position ← here
  let chain ← chainWithin bound
  take .leftBrace .leftBrace
  let children ← separated .rightBrace .commaOrBrace (child (body bound)) bound []
  match ← current with
  | .endOfInput => advance
  | _ => unexpected .endOfInput
  return ⟨⟨none, chain, position⟩, children⟩

section Within

variable {s : TokenStream} {bound : Nat} (terminated : Terminated s.all)
  (hBound : s.following.length < bound)

include terminated hBound

/-- A chain needs no more rounds than there are tokens. -/
theorem agree_chainWithin : Agree 1 (chainWithin bound) chain s := by
  refine (Agree.segment terminated).bind (k := 0) fun first s' hAhead => ?_
  have hShorter := hAhead.length
  have hSteps : Agree 0 (steps bound [first]) (steps (s'.following.length + 1) [first]) s' := by
    rw [steps_eq_unrolled]
    exact progresses_stepThen.unrolled_agree (hAhead.terminated terminated) (by omega) (by omega) [first]
  exact ⟨hSteps.same, hSteps.onward, hSteps.result⟩

/-- Children need neither more rounds nor more depth than there are tokens. -/
theorem agree_childrenWithin :
    Agree 0 (separated .rightBrace .commaOrBrace (child (body bound)) bound [])
      (list .rightBrace .commaOrBrace (child (body (s.following.length + 1)))) s := by
  have hRounds : Agree 0 (separated .rightBrace .commaOrBrace (child (body bound)) bound [])
      (separated .rightBrace .commaOrBrace (child (body (s.following.length + 1)))
        (s.following.length + 1) []) s := by
    refine agree_separated terminated (fun before s' hAhead => ?_) hBound (Nat.lt_succ_self _) []
    refine agree_child (hAhead.terminated terminated) (fun h s'' hMore => ?_) before
    have hShorter := (hAhead.trans hMore).length
    rw [body_eq_unrolled]
    exact progresses_block.unrolled_agree ((hAhead.trans hMore).terminated terminated) (by omega)
      (by omega) h
  exact ⟨hRounds.same, hRounds.onward, hRounds.result⟩

/-- A bound that exceeds the number of tokens after the current one does not matter. -/
theorem queryWithin_run : (queryWithin bound).run.run s = s.readQuery := by
  unfold TokenStream.readQuery queryWithin query
  rw [here_bind_run, here_bind_run]
  refine (agree_chainWithin terminated hBound).bind_run (P := Eq) (fun _ _ _ => rfl)
    fun chain s₁ hChain => ?_
  have hBrace := Agree.take (hChain.terminated terminated) .leftBrace .leftBrace
  refine hBrace.bind_run (P := Eq) (fun _ _ _ => rfl) fun _ s₂ hTaken => ?_
  have hAhead := hChain.trans hTaken
  have hShorter := hAhead.length
  have hLeft : s₂.following.length < bound := by omega
  have hChildren := agree_childrenWithin (hAhead.terminated terminated) hLeft
  rw [get_bind_run]
  exact hChildren.bind_run (P := Eq) (fun _ _ _ => rfl) fun _ _ _ => rfl

end Within

end Reading

/-- Reading ends on every input. Scanning moves on with every token, stays inside the text, and comes
to its end or fails after no more calls than there are characters, so that the bound on the calls does
not matter. In every list of tokens, wherever the end of the input stands in it, the loops and the
recursion of a query take a token from one level to the next and need no more levels than there are
tokens; the stream only moves on and keeps its last token; and what a reader would do if it took
another token than it looked at is never done. -/
theorem reading_ends (text : String) (ts : Tokens) :
    ((∀ calls, Scanner.MovesOn text.toList ((Scanner.ofText text).after calls)) ∧
      (∃ last ≤ text.toList.length,
        (∀ calls < last, ∃ t, ((Scanner.ofText text).after calls).next.1 = .ok t ∧
          t.token ≠ .endOfInput) ∧
        ∀ t, ((Scanner.ofText text).after last).next.1 = .ok t → t.token = .endOfInput) ∧
      ∀ fuel, text.toList.length < fuel →
        (Scanner.ofText text).tokensWithin fuel = tokens text) ∧
    (Ends (round .rightParen .commaOrParen argument) (separated .rightParen .commaOrParen argument) ∧
      Ends stepThen steps ∧ Ends block body ∧
      ∀ depth,
        Ends (round .rightBracket .commaOrBracket (item (body depth)))
          (separated .rightBracket .commaOrBracket (item (body depth))) ∧
        Ends (round .rightBrace .commaOrBrace (child (body depth)))
          (separated .rightBrace .commaOrBrace (child (body depth)))) ∧
    ∀ s : TokenStream, s.all <:+ (ofList ts).all →
      Terminated s.all ∧
      (∀ bound, s.following.length < bound → (queryWithin bound).run.run s = s.readQuery) ∧
      s.readQuery.2.all <:+ s.all ∧ s.readQuery.2.all.getLast? = s.all.getLast? ∧
      ∀ (noName : Reading String) (noMark : Reading Unit) (noValue : Reading Literal),
        (segmentOr noName).run.run s = segment.run.run s ∧
        (labelOr noName noMark).run.run s = label?.run.run s ∧
        (∀ before, (argumentOr noName noMark before).run.run s = (argument before).run.run s) ∧
        (literalOr noValue).run.run s = literal.run.run s := by
  refine ⟨⟨Scanner.movesOn_after text, Scanner.exists_last_call (Scanner.ofText text),
      fun _ => Scanner.tokensWithin_of_lt⟩,
    ⟨ends_arguments, progresses_stepThen.ends steps_eq_unrolled, progresses_block.ends body_eq_unrolled,
      fun depth => ⟨ends_items depth, ends_children depth⟩⟩, fun s hSuffix => ?_⟩
  have terminated : Terminated s.all :=
    (terminated_ofList ts).of_suffix hSuffix (List.cons_ne_nil _ _)
  have hLeft := readQuery_suffix terminated
  have hLast := Terminated.getLast?_eq hLeft (List.cons_ne_nil _ _)
  exact ⟨terminated, fun _ => queryWithin_run terminated, hLeft, hLast, fun noName noMark noValue =>
      ⟨segmentOr_run terminated noName, labelOr_run terminated noName noMark,
        argumentOr_run terminated noName noMark, literalOr_run terminated noValue⟩⟩

/-- A query that breaks off, with tokens behind the end of the input. -/
def brokenOff : Tokens :=
  [⟨.name "Me", .start⟩, ⟨.mark .leftBrace, .start⟩, ⟨.endOfInput, .start⟩,
    ⟨.mark .rightBrace, .start⟩]

theorem reading_ends_brokenOff :
    (Scanner.ofText "Me \x7b").tokensWithin 100 = tokens "Me \x7b" ∧
    (queryWithin 100).run.run (ofList brokenOff) = (ofList brokenOff).readQuery ∧
    (ofList brokenOff).readQuery.2.all <:+ (ofList brokenOff).all ∧
    (segmentOr (unexpected .endOfInput)).run.run (ofList brokenOff) =
      segment.run.run (ofList brokenOff) := by
  obtain ⟨⟨_, _, hText⟩, _, hTokens⟩ := reading_ends "Me \x7b" brokenOff
  obtain ⟨_, hBound, hLeft, _, hLooks⟩ := hTokens (ofList brokenOff) (List.suffix_refl _)
  have hNames := (hLooks (unexpected .endOfInput) (unexpected .endOfInput) (unexpected .endOfInput)).1
  exact ⟨hText 100 (by decide), hBound 100 (by decide), hLeft, hNames⟩

end GatedQuery
