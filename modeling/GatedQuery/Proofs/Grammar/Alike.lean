import GatedQuery.Proofs.Grammar.Reads
import GatedQuery.Proofs.Query.Unplaced

/-! Readers do not look at places. At two streams of the same tokens a reader gives the same result
but for places, or the same problem but for places, and it leaves streams of the same tokens. -/

namespace GatedQuery

def ScanError.unplaced : ScanError → ScanError
  | .unexpectedCharacter c _ => .unexpectedCharacter c .start
  | .unterminatedString _ => .unterminatedString .start
  | .invalidNumber s _ => .invalidNumber s .start

def QueryError.unplaced : QueryError → QueryError
  | .scan e => .scan e.unplaced
  | .unexpected expected found _ => .unexpected expected found .start
  | .duplicateKey key _ _ => .duplicateKey key .start .start
  | .positionalAfterNamed _ => .positionalAfterNamed .start
  | .duplicateArgument name _ => .duplicateArgument name .start
  | .zeroStep _ => .zeroStep .start

/-- The query of a text without places, or the problem without places. -/
def Query.outcome (s : String) : Except QueryError Query :=
  ((Query.ofText s).map Query.unplaced).mapError QueryError.unplaced

namespace TokenStream

structure SameTokens (s s' : TokenStream) : Prop where
  current : s.current.token = s'.current.token
  following : s.following.map PlacedToken.token = s'.following.map PlacedToken.token

variable {s s' : TokenStream}

theorem SameTokens.length (h : s.SameTokens s') : s.following.length = s'.following.length := by
  simpa using congrArg List.length h.following

theorem SameTokens.second (h : s.SameTokens s') : s.second = s'.second := by
  have hSecond (s : TokenStream) :
      s.second = (s.following.map PlacedToken.token).head?.getD s.current.token := by
    rw [TokenStream.second, List.head?_map]
    cases s.following.head? <;> rfl
  rw [hSecond, hSecond, h.current, h.following]

/-- Moving on in both streams keeps them alike. -/
theorem SameTokens.advance (h : s.SameTokens s') : s.advance.SameTokens s'.advance := by
  obtain ⟨t, ts⟩ := s
  obtain ⟨t', ts'⟩ := s'
  have hFollowing := h.following
  cases ts with
  | nil =>
      cases ts' with
      | nil => exact h
      | cons u' us' => cases hFollowing
  | cons u us =>
      cases ts' with
      | nil => cases hFollowing
      | cons u' us' =>
          obtain ⟨hCurrent, hFollowing⟩ := List.cons.inj hFollowing
          exact ⟨hCurrent, hFollowing⟩

/-- Lists of the same tokens make streams of the same tokens. -/
theorem SameTokens.ofTokens {ts ts' : Tokens}
    (h : ts.map PlacedToken.token = ts'.map PlacedToken.token) :
    (ofTokens ts).SameTokens (ofTokens ts') := by
  cases ts with
  | nil =>
      cases ts' with
      | nil => exact ⟨rfl, rfl⟩
      | cons u' us' => cases h
  | cons u us =>
      cases ts' with
      | nil => cases h
      | cons u' us' =>
          obtain ⟨hCurrent, hFollowing⟩ := List.cons.inj h
          exact ⟨hCurrent, hFollowing⟩

end TokenStream

namespace Reading

variable {α β γ δ : Type} {R : α → β → Prop} {S : γ → δ → Prop}

/-- Two runs with related results, or with the same problem but for places. They leave streams of the
same tokens. -/
inductive SameRun (R : α → β → Prop) :
    Except QueryError α × TokenStream → Except QueryError β × TokenStream → Prop where
  | ok {a : α} {b : β} {s s' : TokenStream} (related : R a b) (left : s.SameTokens s') :
      SameRun R (.ok a, s) (.ok b, s')
  | error {e e' : QueryError} {s s' : TokenStream} (same : e.unplaced = e'.unplaced)
      (left : s.SameTokens s') : SameRun R (.error e, s) (.error e', s')

/-- Readers with such runs at all streams of the same tokens. -/
def Alike (R : α → β → Prop) (m : Reading α) (m' : Reading β) : Prop :=
  ∀ s s', s.SameTokens s' → SameRun R (m.run.run s) (m'.run.run s')

namespace Alike

theorem pure {a : α} {b : β} (h : R a b) : Alike R (pure a) (pure b) :=
  fun _ _ hTokens => .ok h hTokens

theorem throw {e e' : QueryError} (h : e.unplaced = e'.unplaced) :
    Alike R (throw e) (throw e') :=
  fun _ _ hTokens => .error h hTokens

/-- Readers that are alike can be followed by readers that are alike for all related results. -/
theorem bind {m : Reading α} {m' : Reading β} {f : α → Reading γ} {g : β → Reading δ}
    (first : Alike R m m') (next : ∀ a b, R a b → Alike S (f a) (g b)) :
    Alike S (m >>= f) (m' >>= g) := by
  intro s s' hTokens
  rw [ExceptT.run_bind, StateT.run_bind, ExceptT.run_bind, StateT.run_bind]
  have hFirst := first s s' hTokens
  revert hFirst
  generalize m.run.run s = r
  generalize m'.run.run s' = r'
  intro hFirst
  cases hFirst with
  | ok related left => exact next _ _ related _ _ left
  | error same left => exact .error same left

theorem ite {c : Prop} [Decidable c] {m n : Reading α} {m' n' : Reading β}
    (yes : Alike R m m') (no : Alike R n n') :
    Alike R (if c then m else n) (if c then m' else n') := by
  split
  · exact yes
  · exact no

/-- The rest of a stream is the same up to places, so that a reader may look at all of it. -/
theorem get : Alike TokenStream.SameTokens get get :=
  fun _ _ hTokens => .ok hTokens hTokens

/-- Both readers see the same token, as places are all that the streams differ in. -/
theorem current : Alike Eq current current :=
  fun _ _ hTokens => .ok hTokens.current hTokens

/-- Places are what streams may differ in, so nothing is said of them. -/
theorem here : Alike (fun _ _ => True) here here :=
  fun _ _ hTokens => .ok trivial hTokens

theorem advance : Alike Eq advance advance :=
  fun _ _ hTokens => .ok rfl hTokens.advance

theorem atMark (m : Mark) : Alike Eq (atMark m) (atMark m) := by
  refine current.bind ?_
  rintro t _ rfl
  exact .pure rfl

/-- Both readers complain about the same token, each at its own place. -/
theorem unexpected (expected : Expectation) :
    Alike R (unexpected expected) (unexpected expected) := by
  refine current.bind ?_
  rintro t _ rfl
  exact here.bind fun p p' _ => .throw rfl

theorem take (m : Mark) (expected : Expectation) : Alike Eq (take m expected) (take m expected) := by
  refine (atMark m).bind ?_
  rintro b _ rfl
  exact .ite advance (unexpected expected)

/-- How many tokens are left. -/
theorem withCount {f : Nat → Reading α} {g : Nat → Reading β} (h : ∀ count, Alike R (f count) (g count)) :
    Alike R (MonadState.get >>= fun s => f (s.following.length + 1))
      (MonadState.get >>= fun s => g (s.following.length + 1)) := by
  refine get.bind fun s s' hTokens => ?_
  rw [hTokens.length]
  exact h _

section Separated

variable {close : Mark} {between : Expectation} {f : α → γ} {g : β → γ}
  {read : List α → Reading α} {read' : List β → Reading β}

/-- Items are alike when they have the same image. -/
theorem separated (items : ∀ before before', before.map f = before'.map g →
      Alike (fun x y => f x = g y) (read before) (read' before'))
    (fuel : Nat) {before : List α} {before' : List β} (hBefore : before.map f = before'.map g) :
    Alike (fun xs ys => xs.map f = ys.map g) (separated close between read fuel before)
      (separated close between read' fuel before') := by
  induction fuel generalizing before before' with
  | zero => exact unexpected between
  | succ fuel ih =>
      refine (atMark close).bind ?_
      rintro ended _ rfl
      refine .ite (advance.bind fun _ _ _ => .pure hBefore) ?_
      refine (items before before' hBefore).bind fun x y hItem => (atMark close).bind ?_
      rintro closed _ rfl
      have hAdded : (before ++ [x]).map f = (before' ++ [y]).map g := by simp [hBefore, hItem]
      have hMore := ih hAdded
      refine .ite hMore ((take .comma between).bind fun _ _ _ => hMore)

/-- The items may depend on the earlier ones, as long as these only matter up to what `f` and `g`
forget. -/
theorem list (items : ∀ before before', before.map f = before'.map g →
      Alike (fun x y => f x = g y) (read before) (read' before')) :
    Alike (fun xs ys => xs.map f = ys.map g) (list close between read)
      (list close between read') :=
  withCount fun count => separated items count rfl

end Separated

theorem literal : Alike Eq literal literal := by
  refine current.bind ?_
  rintro t _ rfl
  cases literal? t with
  | some v => exact advance.bind fun _ _ _ => .pure rfl
  | none => exact unexpected .literal

/-- Read a literal and go on with it. -/
theorem withLiteral {f : Literal → α} {g : Literal → β} (h : ∀ v, R (f v) (g v)) :
    Alike R (Reading.literal >>= fun v => Pure.pure (f v))
      (Reading.literal >>= fun v => Pure.pure (g v)) := by
  refine literal.bind ?_
  rintro v _ rfl
  exact .pure (h v)

theorem positional (before : List Argument) (p p' : Position) :
    Alike Eq (argument.positional before p) (argument.positional before p') :=
  .ite (.throw rfl) (withLiteral fun _ => rfl)

/-- Whether an argument is accepted does not depend on places. -/
theorem argument (before : List Argument) : Alike Eq (argument before) (argument before) := by
  refine here.bind fun p p' _ => get.bind fun s s' hTokens => current.bind ?_
  rintro t _ rfl
  rw [hTokens.second]
  cases t with
  | name n =>
      refine .ite (advance.bind fun _ _ _ => advance.bind fun _ _ _ => ?_) (positional before p p')
      exact .ite (.throw rfl) (withLiteral fun _ => rfl)
  | _ => exact positional before p p'

theorem arguments : Alike Eq (Reading.list .rightParen .commaOrParen Reading.argument)
    (Reading.list .rightParen .commaOrParen Reading.argument) := by
  have hItems (before before' : List Argument) (hBefore : before.map id = before'.map id) :
      Alike (fun x y => id x = id y) (Reading.argument before) (Reading.argument before') := by
    rw [List.map_id, List.map_id] at hBefore
    rw [hBefore]
    exact argument before'
  have hList : Alike (fun xs ys => xs.map id = ys.map id)
      (Reading.list .rightParen .commaOrParen Reading.argument)
      (Reading.list .rightParen .commaOrParen Reading.argument) := list hItems
  simpa only [List.map_id] using hList

def SameStep (x y : Step) : Prop := x.unplaced = y.unplaced

theorem segment : Alike SameStep segment segment := by
  refine here.bind fun p p' _ => current.bind ?_
  rintro t _ rfl
  cases t with
  | name n =>
      refine advance.bind fun _ _ _ => (atMark .leftParen).bind ?_
      rintro called _ rfl
      refine .ite (advance.bind fun _ _ _ => arguments.bind ?_) (.pure rfl)
      rintro args _ rfl
      exact .pure rfl
  | _ => exact unexpected .identifier

theorem integer? : Alike Eq integer? integer? := by
  refine current.bind ?_
  rintro t _ rfl
  cases t with
  | integer n => exact advance.bind fun _ _ _ => .pure rfl
  | _ => exact .pure rfl

/-- The place of a step is passed on and never looked at. -/
theorem slice (start : Option Int64) (p p' : Position) :
    Alike SameStep (slice start p) (slice start p') := by
  refine (take .colon .colon).bind fun _ _ _ => integer?.bind ?_
  rintro stop _ rfl
  refine (atMark .colon).bind ?_
  rintro strided _ rfl
  refine .ite (advance.bind fun _ _ _ => here.bind fun q q' _ => integer?.bind ?_) (.pure rfl)
  rintro step _ rfl
  exact .ite (.throw rfl) (.pure rfl)

theorem indexOrSlice (i : Int64) (p p' : Position) :
    Alike SameStep (indexOrSlice i p) (indexOrSlice i p') := by
  refine advance.bind fun _ _ _ => (atMark .colon).bind ?_
  rintro sliced _ rfl
  exact .ite (slice (some i) p p') (.pure rfl)

theorem dottedStep : Alike SameStep dottedStep dottedStep := by
  refine here.bind fun p p' _ => current.bind ?_
  rintro t _ rfl
  cases t with
  | name n => exact segment
  | integer i => exact indexOrSlice i p p'
  | mark m =>
      cases m with
      | colon => exact slice none p p'
      | _ => exact unexpected .step
  | _ => exact unexpected .step

theorem bracketStep : Alike SameStep bracketStep bracketStep := by
  have hClosed {m m' : Reading Step} (h : Alike SameStep m m') :
      Alike SameStep (m >>= fun x => Reading.take .rightBracket .rightBracket >>= fun _ => Pure.pure x)
        (m' >>= fun x => Reading.take .rightBracket .rightBracket >>= fun _ => Pure.pure x) :=
    h.bind fun x y hStep => (take .rightBracket .rightBracket).bind fun _ _ _ => .pure hStep
  refine here.bind fun p p' _ => current.bind ?_
  rintro t _ rfl
  cases t with
  | integer i => exact hClosed (indexOrSlice i p p')
  | mark m =>
      cases m with
      | colon => exact hClosed (slice none p p')
      | _ => exact hClosed (unexpected .indexOrSlice)
  | _ => exact hClosed (unexpected .indexOrSlice)

/-- Steps that are the same one by one, but for their places. -/
def SameSteps (xs ys : List Step) : Prop := xs.map Step.unplaced = ys.map Step.unplaced

/-- One more step of the same kind at the end of two chains. -/
theorem SameSteps.concat {xs ys : List Step} (h : SameSteps xs ys) {x y : Step} (hStep : SameStep x y) :
    SameSteps (xs ++ [x]) (ys ++ [y]) := by
  rw [SameSteps, List.map_append, List.map_append, h, List.map_singleton, List.map_singleton, hStep]

/-- The loop over a chain decides by tokens only. The induction is on the fuel, which both runs
spend alike. -/
theorem steps (fuel : Nat) {before before' : List Step} (hBefore : SameSteps before before') :
    Alike SameSteps (steps fuel before) (steps fuel before') := by
  induction fuel generalizing before before' with
  | zero => exact unexpected .step
  | succ fuel ih =>
      refine (atMark .dot).bind ?_
      rintro dotted _ rfl
      refine .ite ?_ ((atMark .leftBracket).bind ?_)
      · exact advance.bind fun _ _ _ => dottedStep.bind fun x y hStep => ih (hBefore.concat hStep)
      · rintro bracketed _ rfl
        refine get.bind fun s s' hTokens => ?_
        rw [hTokens.second]
        refine .ite ?_ (.pure hBefore)
        exact advance.bind fun _ _ _ => bracketStep.bind fun x y hStep => ih (hBefore.concat hStep)

theorem chain : Alike SameSteps chain chain := by
  have hNone : SameSteps [] [] := rfl
  exact segment.bind fun x y hStep => withCount fun count => steps count (hNone.concat hStep)

def SameHead (h h' : Head) : Prop := h.unplaced = h'.unplaced

def SameResource (r r' : Resource) : Prop := r.unplaced = r'.unplaced

theorem SameResource.key?_eq {r r' : Resource} (h : SameResource r r') : r.key? = r'.key? := by
  rw [← r.key?_unplaced, h, r'.key?_unplaced]

theorem label? : Alike Eq label? label? := by
  refine current.bind ?_
  rintro t _ rfl
  cases t with
  | name n =>
      refine get.bind fun s s' hTokens => ?_
      rw [hTokens.second]
      exact .ite (advance.bind fun _ _ _ => advance.bind fun _ _ _ => .pure rfl) (.pure rfl)
  | _ => exact .pure rfl

/-- Whether a key is taken is told by the children without their places. -/
theorem isSome_find?_key {before before' : List Resource} (key : String)
    (h : before.map Resource.unplaced = before'.map Resource.unplaced) :
    (before.find? fun s => s.key? == some key).isSome =
      (before'.find? fun s => s.key? == some key).isSome := by
  have hFind (rs : List Resource) : (rs.find? fun s => s.key? == some key).isSome =
      (rs.map Resource.unplaced).any fun s => s.key? == some key := by
    rw [List.isSome_find?, List.any_map]
    exact congrArg rs.any (funext fun s => by rw [Function.comp_apply, Resource.key?_unplaced])
  rw [hFind, hFind, h]

section

variable {body body' : Head → Reading Resource}
  (bodies : ∀ h h', SameHead h h' → Alike SameResource (body h) (body' h'))

include bodies

theorem named : Alike SameResource (named body) (named body') := by
  refine here.bind fun p p' _ => label?.bind ?_
  rintro label _ rfl
  refine chain.bind fun xs ys hSteps => bodies _ _ ?_
  rw [SameHead, Head.unplaced, Head.unplaced, hSteps]

/-- Two children that are alike are refused alike, as places do not change keys. -/
theorem child (before before' : List Resource)
    (hBefore : before.map Resource.unplaced = before'.map Resource.unplaced) :
    Alike SameResource (child body before) (child body' before') := by
  refine (named bodies).bind fun r r' hSame => ?_
  rw [hSame.key?_eq]
  cases r'.key? with
  | none => exact .pure hSame
  | some key =>
      have hFound := isSome_find?_key key hBefore
      dsimp only
      revert hFound
      generalize before.find? (fun s => s.key? == some key) = first
      generalize before'.find? (fun s => s.key? == some key) = first'
      intro hFound
      cases first with
      | none =>
          cases first' with
          | none => exact .pure hSame
          | some s' => cases hFound
      | some s =>
          cases first' with
          | none => cases hFound
          | some s' => exact .throw rfl

theorem item (before before' : List Resource) :
    Alike SameResource (item body before) (item body' before') := by
  refine here.bind fun p p' _ => current.bind ?_
  rintro t _ rfl
  cases t with
  | name n => exact named bodies
  | mark m =>
      cases m with
      | leftBrace => exact bodies _ _ rfl
      | leftBracket => exact bodies _ _ rfl
      | _ => exact unexpected .listItem
  | _ => exact unexpected .listItem

end

/-- Resources that are the same one by one, but for their places. -/
def SameResources (rs rs' : List Resource) : Prop :=
  rs.map Resource.unplaced = rs'.map Resource.unplaced

theorem SameResources.unplacedAll {rs rs' : List Resource} (h : SameResources rs rs') :
    Resource.unplacedAll rs = Resource.unplacedAll rs' := by
  rw [Resource.unplacedAll_eq_map, Resource.unplacedAll_eq_map, h]

/-- Lists are alike if their heads and items are. -/
theorem SameHead.list {h h' : Head} (hHead : SameHead h h') {rs rs' : List Resource}
    (hSame : SameResources rs rs') : SameResource (.list h rs) (.list h' rs') := by
  rw [SameResource, Resource.unplaced, Resource.unplaced, hHead, hSame.unplacedAll]

theorem SameHead.object {h h' : Head} (hHead : SameHead h h') {rs rs' : List Resource}
    (hSame : SameResources rs rs') : SameResource (.object h rs) (.object h' rs') := by
  rw [SameResource, Resource.unplaced, Resource.unplaced, hHead, hSame.unplacedAll]

/-- Bodies are read alike at every depth. -/
theorem body (depth : Nat) {h h' : Head} (hHead : SameHead h h') :
    Alike SameResource (body depth h) (body depth h') := by
  induction depth generalizing h h' with
  | zero => exact unexpected .listItem
  | succ depth ih =>
      have hBodies (h h' : Head) (hHead : SameHead h h') := ih hHead
      refine (atMark .leftBracket).bind ?_
      rintro bracketed _ rfl
      refine .ite (advance.bind fun _ _ _ => (atMark .rightBracket).bind ?_)
        ((atMark .leftBrace).bind ?_)
      · rintro empty _ rfl
        have hItems : Alike SameResource
            (Reading.list .rightBracket .commaOrBracket (Reading.item (Reading.body depth)) >>=
              fun rs => Pure.pure (.list h rs))
            (Reading.list .rightBracket .commaOrBracket (Reading.item (Reading.body depth)) >>=
              fun rs => Pure.pure (.list h' rs)) := by
          refine (list fun before before' _ => item hBodies before before').bind fun rs rs' hSame => ?_
          exact .pure (hHead.list hSame)
        exact .ite ((unexpected (R := Eq) .listItem).bind fun _ _ _ => hItems) hItems
      · rintro braced _ rfl
        refine .ite (advance.bind fun _ _ _ => ?_) (.pure (congrArg Resource.field hHead))
        refine (list fun before before' => child hBodies before before').bind fun rs rs' hSame => ?_
        exact .pure (hHead.object hSame)

def SameQuery (q q' : Query) : Prop := q.unplaced = q'.unplaced

/-- Reading a query takes the same decisions whatever the places of the tokens are. -/
theorem query : Alike SameQuery query query := by
  refine here.bind fun p p' _ => chain.bind fun xs ys hSteps => ?_
  refine (take .leftBrace .leftBrace).bind fun _ _ _ => get.bind fun s s' hTokens => ?_
  rw [hTokens.length]
  have hBodies (h h' : Head) (hHead : SameHead h h') := body (s'.following.length + 1) hHead
  refine (list fun before before' => child hBodies before before').bind fun rs rs' hSame => ?_
  have hQuery : SameQuery ⟨⟨none, xs, p⟩, rs⟩ ⟨⟨none, ys, p'⟩, rs'⟩ := by
    rw [SameQuery, Query.unplaced, Query.unplaced, Head.unplaced, Head.unplaced, hSteps,
      SameResources.unplacedAll hSame]
  refine current.bind ?_
  rintro t _ rfl
  cases t with
  | endOfInput => exact advance.bind fun _ _ _ => .pure hQuery
  | _ => exact (unexpected (R := Eq) .endOfInput).bind fun _ _ _ => .pure hQuery

end Alike

end Reading

end GatedQuery
