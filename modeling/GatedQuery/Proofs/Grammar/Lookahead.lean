import GatedQuery.Proofs.Grammar.Progress

/-! Tokens that are looked at before they are taken. On its last place a stream gives the end of the
input, whatever stands there, and stays; as nothing but the end of the input stands there, the tokens
that are taken are always those that were looked at, and what a reader would do with others is never
done. -/

namespace GatedQuery

open TokenStream

namespace TokenStream

/-- The token that moving on takes. -/
def taken (s : TokenStream) : Token :=
  match s.following with
  | [] => .endOfInput
  | _ :: _ => s.current.token

variable {s : TokenStream} (terminated : Terminated s.all) (some : s.current.token ≠ .endOfInput)

include terminated some

/-- The token that moving on takes is the one that was looked at. -/
theorem taken_eq_current : s.taken = s.current.token := by
  obtain ⟨t, us⟩ := s
  cases us with
  | nil =>
      obtain ⟨p, hLast⟩ := terminated
      cases hLast
      exact absurd rfl some
  | cons u us => rfl

/-- The second token is the current one after the first has been taken. -/
theorem second_eq_current_advance : s.second = s.advance.current.token := by
  obtain ⟨t, us⟩ := s
  cases us with
  | nil =>
      obtain ⟨p, hLast⟩ := terminated
      cases hLast
      exact absurd rfl some
  | cons u us => rfl

end TokenStream

namespace Reading

variable {α β : Type} {s : TokenStream}

/-- Take a token and read it as one of a kind. `other` is done if it is of another kind. -/
def takeAs (kind : Token → Option α) (other : Reading α) : Reading α := do
  let t := (← get).taken
  advance
  match kind t with
  | some x => return x
  | none => other

theorem get_bind_run (f : TokenStream → Reading α) :
    (get >>= f).run.run s = (f s).run.run s :=
  rfl

theorem current_bind_run (f : Token → Reading α) :
    (current >>= f).run.run s = (f s.current.token).run.run s :=
  rfl

theorem here_bind_run (f : Position → Reading α) :
    (here >>= f).run.run s = (f s.current.position).run.run s :=
  rfl

section TakeAs

variable {kind : Token → Option α} {other : Reading α} {x : α} (terminated : Terminated s.all)
  (atEnd : kind .endOfInput = none) (hKind : kind s.current.token = some x)

include terminated atEnd hKind

/-- A token that was looked at is the one that is taken. -/
theorem takeAs_run : (takeAs kind other).run.run s = (.ok x, s.advance) := by
  have hSome : s.current.token ≠ .endOfInput := by
    intro hEnd
    rw [hEnd, atEnd] at hKind
    cases hKind
  change ((match kind s.taken with
    | some y => pure y
    | none => other : Reading α).run.run s.advance) = _
  rw [taken_eq_current terminated hSome, hKind]
  rfl

/-- Taking a token that is of the kind asked for goes on with what it holds. -/
theorem takeAs_bind_run (f : α → Reading β) :
    (takeAs kind other >>= f).run.run s = (f x).run.run s.advance := by
  rw [ExceptT.run_bind, StateT.run_bind, takeAs_run terminated atEnd hKind]
  rfl

end TakeAs

def name? : Token → Option String
  | .name n => some n
  | _ => none

/-- The literal that a token is, if it is not a word. -/
def value? : Token → Option Literal
  | .string s => some (.string s)
  | .integer n => some (.integer n)
  | .float x => some (.float x)
  | _ => none

/-- Whether a token is one of a kind, as what `takeAs` reads. -/
def accepted? (accepts : Token → Bool) (t : Token) : Option Unit :=
  if accepts t then some () else none

/-- `segment`, with a second look at its name. -/
def segmentOr (noName : Reading String) : Reading Step := do
  let position ← here
  match ← current with
  | .name _ =>
    let n ← takeAs name? noName
    if ← atMark .leftParen then
      advance
      return .call n (← list .rightParen .commaOrParen argument) position
    return .member n position
  | _ => unexpected .identifier

/-- `label?`, with a second look at the name and at the colon. -/
def labelOr (noName : Reading String) (noColon : Reading Unit) : Reading (Option String) := do
  match ← current with
  | .name _ =>
    if (← get).second.isMark .colon then
      let n ← takeAs name? noName
      takeAs (accepted? (Token.isMark .colon)) noColon
      return some n
    else return none
  | _ => return none

/-- `argument`, with a second look at its name and at the mark after it. -/
def argumentOr (noName : Reading String) (noSign : Reading Unit) (before : List Argument) :
    Reading Argument := do
  let position ← here
  let second := (← get).second
  match ← current with
  | .name _ =>
    if second.isMark .colon || second.isMark .equals then
      let n ← takeAs name? noName
      takeAs (accepted? fun t => t.isMark .colon || t.isMark .equals) noSign
      if before.any fun a => a.name? == some n then
        throw (.duplicateArgument n position)
      return .named n (← literal)
    else argument.positional before position
  | _ => argument.positional before position

/-- `literal`, with a second look at a value. -/
def literalOr (noValue : Reading Literal) : Reading Literal := do
  match ← current with
  | .string _ | .integer _ | .float _ => takeAs value? noValue
  | _ => literal

section Or

variable (terminated : Terminated s.all)
include terminated

/-- The second look at the name finds it again, whatever is done if it did not. -/
theorem segmentOr_run (noName : Reading String) :
    (segmentOr noName).run.run s = segment.run.run s := by
  obtain ⟨⟨t, p⟩, us⟩ := s
  cases t with
  | name n => exact takeAs_bind_run terminated (rfl : name? .endOfInput = none) rfl _
  | _ => rfl

/-- The second look at a value finds it again. -/
theorem literalOr_run (noValue : Reading Literal) :
    (literalOr noValue).run.run s = literal.run.run s := by
  obtain ⟨⟨t, p⟩, us⟩ := s
  cases t with
  | string _ | integer _ | float _ => exact takeAs_run terminated rfl rfl
  | _ => rfl

/-- A name and the token after it that was looked at are taken one after the other. -/
theorem takeAs_second_run {n : String} {accepts : Token → Bool} {noName : Reading String}
    {other : Reading Unit} (hName : s.current.token = .name n) (atEnd : accepts .endOfInput = false)
    (hSecond : accepts s.second = true) (f : String → Reading α) :
    (takeAs name? noName >>= fun n => takeAs (accepted? accepts) other >>= fun _ => f n).run.run s =
      (f n).run.run s.advance.advance := by
  have hSome : s.current.token ≠ .endOfInput := by
    rw [hName]
    exact Token.noConfusion
  rw [takeAs_bind_run terminated (rfl : name? .endOfInput = none) (by rw [hName]; rfl)]
  refine takeAs_bind_run (x := ()) ((ahead_advance terminated hSome).terminated terminated) ?_ ?_ _
  · simp [accepted?, atEnd]
  · rw [← second_eq_current_advance terminated hSome]
    simp [accepted?, hSecond]

theorem labelOr_run (noName : Reading String) (noColon : Reading Unit) :
    (labelOr noName noColon).run.run s = label?.run.run s := by
  obtain ⟨⟨t, p⟩, us⟩ := s
  cases t with
  | name n =>
      simp only [labelOr, label?, current_bind_run, get_bind_run]
      split
      next hColon => exact takeAs_second_run terminated rfl rfl hColon _
      next => rfl
  | _ => rfl

/-- Both looks at an argument agree, so that what is done otherwise never happens. -/
theorem argumentOr_run (noName : Reading String) (noSign : Reading Unit) (before : List Argument) :
    (argumentOr noName noSign before).run.run s = (argument before).run.run s := by
  obtain ⟨⟨t, p⟩, us⟩ := s
  cases t with
  | name n =>
      simp only [argumentOr, argument, here_bind_run, current_bind_run, get_bind_run]
      split
      next hSign => exact takeAs_second_run terminated rfl rfl hSign _
      next => rfl
  | _ => simp only [argumentOr, argument, here_bind_run, current_bind_run, get_bind_run]

end Or

end Reading

end GatedQuery
