import GatedQuery.Proofs.Grammar.Completeness

/-! Where commas stand. A comma is followed by another item or by the mark that ends its list. In front
of that mark it can be put and left out at will, as long as an item stands before it, and the tree
stays the same. -/

namespace GatedQuery

open Reading TokenStream

namespace Token

/-- The marks that end a list. -/
inductive Closes : Token → Prop where
  | brace : Closes (.mark .rightBrace)
  | bracket : Closes (.mark .rightBracket)
  | paren : Closes (.mark .rightParen)

/-- The tokens that an item of a list can start with. -/
inductive StartsItem : Token → Prop where
  | name {s : String} : StartsItem (.name s)
  | string {s : String} : StartsItem (.string s)
  | integer {n : Int64} : StartsItem (.integer n)
  | float {x : Float} : StartsItem (.float x)
  | brace : StartsItem (.mark .leftBrace)
  | bracket : StartsItem (.mark .leftBracket)

/-- The tokens of an index or a slice. -/
inductive InSubscript : Token → Prop where
  | integer {n : Int64} : InSubscript (.integer n)
  | colon : InSubscript (.mark .colon)

/-- After a comma it is clear whether another item follows: no token both starts an item and closes
a list. -/
theorem StartsItem.not_closes {t : Token} (h : t.StartsItem) : ¬ t.Closes := by
  rintro ⟨⟩ <;> cases h

/-- Tokens that neither are commas nor end anything. -/
structure Inner (t : Token) : Prop where
  comma : t ≠ .mark .comma
  closes : ¬ t.Closes
  endOfInput : t ≠ .endOfInput

theorem inner_name (n : String) : Inner (.name n) :=
  ⟨Token.noConfusion, nofun, Token.noConfusion⟩

theorem inner_integer (n : Int64) : Inner (.integer n) :=
  ⟨Token.noConfusion, nofun, Token.noConfusion⟩

/-- The marks that commas can be added before or left out before are those that close something. -/
theorem inner_mark {m : Mark} (hComma : m ≠ .comma) (hClose : ¬ Closes (.mark m)) :
    Inner (.mark m) :=
  ⟨fun h => hComma (Token.mark.inj h), hClose, Token.noConfusion⟩

end Token

namespace Grammar

theorem isLiteral_startsItem {t : Token} {v : Literal} (h : IsLiteral t v) : t.StartsItem := by
  cases h <;> constructor

/-- A comma never depends on a literal, which neither is one nor ends a list. -/
theorem isLiteral_inner {t : Token} {v : Literal} (h : IsLiteral t v) : t.Inner := by
  cases h <;> exact ⟨Token.noConfusion, nofun, Token.noConfusion⟩

/-- Every comma is followed by the end of a list or by a token that an item can start with. -/
def CommasLead (ts : Tokens) : Prop :=
  ∀ before p after, ts = before ++ ⟨.mark .comma, p⟩ :: after →
    ∃ t rest, after = t :: rest ∧ (t.token.Closes ∨ t.token.StartsItem)

/-- A comma has to lead to an item or to the end of its list. Other tokens may stand anywhere. -/
theorem CommasLead.cons {t : PlacedToken} {ts : Tokens} (h : CommasLead ts)
    (hFirst : t.token = .mark .comma →
      ∃ u rest, ts = u :: rest ∧ (u.token.Closes ∨ u.token.StartsItem)) :
    CommasLead (t :: ts) := by
  intro before p after hAll
  cases before with
  | nil =>
      cases hAll
      exact hFirst rfl
  | cons u before =>
      cases hAll
      exact h before p after rfl

theorem CommasLead.other {t : PlacedToken} {ts : Tokens} (h : CommasLead ts)
    (hOther : t.token ≠ .mark .comma) : CommasLead (t :: ts) :=
  h.cons fun hComma => absurd hComma hOther

/-- Tokens of a list begin with an item or with the mark that closes the list. -/
theorem Separated.startsItem {α : Type} {item : Tokens → Tokens → α → Prop} {close : Mark}
    (hClose : Token.Closes (.mark close))
    (starts : ∀ x us vs, item us vs x → ∃ t rest, us = t :: rest ∧ t.token.StartsItem)
    {ts rest : Tokens} {xs : List α} (h : Separated item close ts rest xs) :
    ∃ t us, ts = t :: us ∧ (t.token.Closes ∨ t.token.StartsItem) := by
  have hHead {x : α} {us vs : Tokens} (head : item us vs x) :
      ∃ t rest, us = t :: rest ∧ (t.token.Closes ∨ t.token.StartsItem) := by
    obtain ⟨t, rest, hCons, hStart⟩ := starts x us vs head
    exact ⟨t, rest, hCons, .inr hStart⟩
  cases h with
  | nil => exact ⟨_, _, rfl, .inl hClose⟩
  | last head => exact hHead head
  | cons head _ => exact hHead head

/-- The commas of a list lead on if those of its items do. -/
theorem Separated.commasLead {α : Type} {item : Tokens → Tokens → α → Prop} {close : Mark}
    (hClose : Token.Closes (.mark close))
    (starts : ∀ x us vs, item us vs x → ∃ t rest, us = t :: rest ∧ t.token.StartsItem)
    {ts rest : Tokens} {xs : List α}
    (items : ∀ x ∈ xs, ∀ us vs, item us vs x → CommasLead vs → CommasLead us)
    (h : Separated item close ts rest xs) (hRest : CommasLead rest) : CommasLead ts := by
  have hMark : Token.mark close ≠ .mark .comma := by
    intro hComma
    rw [hComma] at hClose
    cases hClose
  induction h with
  | nil => exact hRest.other hMark
  | last head => exact items _ List.mem_cons_self _ _ head (hRest.other hMark)
  | cons head tail ih =>
      refine items _ List.mem_cons_self _ _ head (CommasLead.cons ?_ fun _ => ?_)
      · exact ih (fun y hy => items y (List.mem_cons_of_mem _ hy)) hRest
      · exact tail.startsItem hClose starts

theorem isArgument_startsItem {a : Argument} {ts rest : Tokens} (h : IsArgument ts rest a) :
    ∃ t us, ts = t :: us ∧ t.token.StartsItem := by
  cases h with
  | positional value => exact ⟨_, _, rfl, isLiteral_startsItem value⟩
  | named => exact ⟨_, _, rfl, .name⟩

/-- An argument has no comma of its own. -/
theorem IsArgument.commasLead {a : Argument} {ts rest : Tokens} (h : IsArgument ts rest a)
    (hRest : CommasLead rest) : CommasLead ts := by
  cases h with
  | positional value => exact hRest.other (isLiteral_inner value).comma
  | named marked value =>
      refine CommasLead.other (CommasLead.other (hRest.other (isLiteral_inner value).comma) ?_)
        Token.noConfusion
      rcases marked with hMark | hMark <;> simp [hMark]

/-- The commas of a call are those between its arguments. -/
theorem Segment.commasLead {s : Step} {ts rest : Tokens} (h : Segment ts rest s)
    (hRest : CommasLead rest) : CommasLead ts := by
  cases h with
  | member => exact hRest.other Token.noConfusion
  | call arguments =>
      have hArguments := arguments.commasLead .paren (fun _ _ _ => isArgument_startsItem)
        (fun _ _ _ _ ha => ha.commasLead) hRest
      exact (hArguments.other (by simp)).other Token.noConfusion

theorem Bound.commasLead {b : Option Int64} {ts rest : Tokens} (h : Bound ts rest b)
    (hRest : CommasLead rest) : CommasLead ts := by
  cases h with
  | none => exact hRest
  | some => exact hRest.other Token.noConfusion

theorem Stride.commasLead {b : Option Int64} {ts rest : Tokens} (h : Stride ts rest b)
    (hRest : CommasLead rest) : CommasLead ts := by
  cases h with
  | none => exact hRest
  | some bound => exact (bound.commasLead hRest).other (by simp)

/-- An index or a slice has no comma of its own. -/
theorem Subscript.commasLead {s : Step} {ts rest : Tokens} (h : Subscript ts rest s)
    (hRest : CommasLead rest) : CommasLead ts := by
  cases h with
  | index => exact hRest.other Token.noConfusion
  | slice first second third =>
      exact first.commasLead ((second.commasLead (third.commasLead hRest)).other (by simp))

theorem Tail.commasLead {ss : List Step} {ts rest : Tokens} (h : Tail ts rest ss)
    (hRest : CommasLead rest) : CommasLead ts := by
  induction h with
  | nil => exact hRest
  | named head _ ih => exact (head.commasLead (ih hRest)).other (by simp)
  | dotted head _ ih => exact (head.commasLead (ih hRest)).other (by simp)
  | bracket head _ ih => exact (head.commasLead ((ih hRest).other (by simp))).other (by simp)

/-- The commas of a chain are those of its calls. -/
theorem Chain.commasLead {ss : List Step} {ts rest : Tokens} (h : Chain ts rest ss)
    (hRest : CommasLead rest) : CommasLead ts := by
  cases h with
  | cons head tail => exact head.commasLead (tail.commasLead hRest)

theorem IsHead.commasLead {h : Head} {ts rest : Tokens} (hHead : IsHead ts rest h)
    (hRest : CommasLead rest) : CommasLead ts := by
  cases hHead with
  | plain steps => exact steps.commasLead hRest
  | labelled steps => exact ((steps.commasLead hRest).other (by simp)).other Token.noConfusion

/-- The commas of a resource are those of its head and those of its block. -/
theorem Named.commasLead {block : Tokens → Tokens → Head → Resource → Prop} {r : Resource}
    {ts rest : Tokens} (hNamed : Named block ts rest r)
    (blocks : ∀ us vs h, block us vs h r → CommasLead vs → CommasLead us)
    (hRest : CommasLead rest) : CommasLead ts := by
  cases hNamed with
  | field head => exact head.commasLead hRest
  | block head inner => exact head.commasLead (blocks _ _ _ inner hRest)

/-- The same of an item of a list, which may be a block without a head. -/
theorem Item.commasLead {block : Tokens → Tokens → Head → Resource → Prop} {r : Resource}
    {ts rest : Tokens} (hItem : Item block ts rest r)
    (blocks : ∀ us vs h, block us vs h r → CommasLead vs → CommasLead us)
    (hRest : CommasLead rest) : CommasLead ts := by
  cases hItem with
  | named resource => exact resource.commasLead blocks hRest
  | bare resource => exact blocks _ _ _ resource hRest

/-- A resource with a head begins with a name. -/
theorem named_startsItem {r : Resource} {ts rest : Tokens} (h : Named Block ts rest r) :
    ∃ t us, ts = t :: us ∧ t.token.StartsItem := by
  obtain ⟨n, p, us, rfl⟩ := named_starts h
  exact ⟨_, us, rfl, .name⟩

/-- An item of a list begins with a name or with the mark that opens its block. -/
theorem item_startsItem {r : Resource} {ts rest : Tokens} (h : Item Block ts rest r) :
    ∃ t us, ts = t :: us ∧ t.token.StartsItem := by
  cases h with
  | named resource => exact named_startsItem resource
  | bare resource =>
      cases resource with
      | list => exact ⟨_, _, rfl, .bracket⟩
      | object => exact ⟨_, _, rfl, .brace⟩

theorem children_commasLead {children : List Resource} {ts rest : Tokens}
    (blocks : ∀ r ∈ children, ∀ us vs h, Block us vs h r → CommasLead vs → CommasLead us)
    (h : Separated (Named Block) .rightBrace ts rest children) (hRest : CommasLead rest) :
    CommasLead ts :=
  h.commasLead .brace (fun _ _ _ => named_startsItem)
    (fun r hr _ _ hNamed => hNamed.commasLead (blocks r hr)) hRest

/-- The commas of a block lead on, at every depth. The induction is on the tree. -/
theorem Block.commasLead (r : Resource) :
    ∀ ts rest h, Block ts rest h r → CommasLead rest → CommasLead ts := by
  induction r using Resource.induct with
  | field =>
      intro ts rest h hBlock
      cases hBlock
  | list _ items ih =>
      intro ts rest h hBlock hRest
      cases hBlock with
      | list _ inner =>
          exact (inner.commasLead .bracket (fun _ _ _ => item_startsItem)
            (fun r hr _ _ hItem => hItem.commasLead (ih r hr)) hRest).other (by simp)
  | object _ children ih =>
      intro ts rest h hBlock hRest
      cases hBlock with
      | object inner => exact (children_commasLead ih inner hRest).other (by simp)

/-- Every comma of a query stands before an item or before the end of a list. -/
theorem IsQuery.commasLead {ts : Tokens} {q : Query} (h : IsQuery ts q) : CommasLead ts := by
  cases h with
  | mk steps inner =>
      have hEnd : CommasLead [] := fun _ _ _ hNil => by simp at hNil
      have hInner := children_commasLead (fun r _ => Block.commasLead r) inner
        (hEnd.other Token.noConfusion)
      exact steps.commasLead (hInner.other (by simp))

/-- Tokens after which a comma can stand: they end with an item, and neither with the start of a list
nor within the brackets of an index or a slice. -/
structure EndsItem (before : Tokens) : Prop where
  mark : ∀ front m p, before = front ++ [⟨.mark m, p⟩] →
    m ∉ [Mark.comma, Mark.leftParen, Mark.leftBrace, Mark.leftBracket]
  subscript : ∀ front p inner, before = front ++ ⟨.mark .leftBracket, p⟩ :: inner →
    ∃ t ∈ inner, ¬ t.token.InSubscript

/-- Tokens that differ in commas before the ends of lists, and perhaps in the place of the end of the
input. The tokens `before` stand in front of those on the left. -/
inductive Recomma : Tokens → Tokens → Tokens → Prop where
  | nil {before : Tokens} : Recomma before [] []
  | keep {before : Tokens} {t : PlacedToken} {ts us : Tokens} (rest : Recomma (before ++ [t]) ts us) :
      Recomma before (t :: ts) (t :: us)
  | add {before : Tokens} {p : Position} {t : PlacedToken} {ts us : Tokens} (item : EndsItem before)
      (closes : t.token.Closes) (rest : Recomma (before ++ [t]) ts us) :
      Recomma before (t :: ts) (⟨.mark .comma, p⟩ :: t :: us)
  | drop {before : Tokens} {p : Position} {t : PlacedToken} {ts us : Tokens}
      (closes : t.token.Closes) (rest : Recomma (before ++ [⟨.mark .comma, p⟩, t]) ts us) :
      Recomma before (⟨.mark .comma, p⟩ :: t :: ts) (t :: us)
  | finish {before : Tokens} {p q : Position} :
      Recomma before [⟨.endOfInput, p⟩] [⟨.endOfInput, q⟩]

namespace Recomma

theorem refl (before ts : Tokens) : Recomma before ts ts := by
  induction ts generalizing before with
  | nil => exact .nil
  | cons t ts ih => exact .keep (ih _)

/-- What is in front of both token lists only counts as what stands before the difference. -/
theorem append {before ts us : Tokens} (front : Tokens) (h : Recomma (before ++ front) ts us) :
    Recomma before (front ++ ts) (front ++ us) := by
  induction front generalizing before with
  | nil => simpa using h
  | cons t front ih => exact .keep (ih (by simpa using h))

/-- A token that neither is a comma nor ends anything is common to both lists. -/
theorem inner {before : Tokens} {t : PlacedToken} {ts us : Tokens} (h : Recomma before (t :: ts) us)
    (hInner : t.token.Inner) : ∃ vs, us = t :: vs ∧ Recomma (before ++ [t]) ts vs := by
  cases h with
  | keep rest => exact ⟨_, rfl, rest⟩
  | add _ closes => exact absurd closes hInner.closes
  | drop => exact absurd rfl hInner.comma
  | finish => exact absurd rfl hInner.endOfInput

/-- A comma stays, or it stood before the end of a list and is left out. -/
theorem comma {before : Tokens} {p : Position} {ts us : Tokens}
    (h : Recomma before (⟨.mark .comma, p⟩ :: ts) us) :
    (∃ vs, us = ⟨.mark .comma, p⟩ :: vs ∧ Recomma (before ++ [⟨.mark .comma, p⟩]) ts vs) ∨
      ∃ t ts' vs, t.token.Closes ∧ ts = t :: ts' ∧ us = t :: vs ∧
        Recomma (before ++ [⟨.mark .comma, p⟩, t]) ts' vs := by
  cases h with
  | keep rest => exact .inl ⟨_, rfl, rest⟩
  | add _ closes => cases closes
  | drop closes rest => exact .inr ⟨_, _, _, closes, rfl, rfl, rest⟩

/-- The end of a list stays as it is, or gets a comma before it. This needs an item in front of it. -/
theorem close {before : Tokens} {m : Mark} {p : Position} {ts us : Tokens}
    (h : Recomma before (⟨.mark m, p⟩ :: ts) us) (hClose : Token.Closes (.mark m)) :
    (∃ vs, us = ⟨.mark m, p⟩ :: vs ∧ Recomma (before ++ [⟨.mark m, p⟩]) ts vs) ∨
      EndsItem before ∧ ∃ q vs, us = ⟨.mark .comma, q⟩ :: ⟨.mark m, p⟩ :: vs ∧
        Recomma (before ++ [⟨.mark m, p⟩]) ts vs := by
  cases h with
  | keep rest => exact .inl ⟨_, rfl, rest⟩
  | add item _ rest => exact .inr ⟨item, _, _, rfl, rest⟩
  | drop => cases hClose

end Recomma

/-- No item ends with a comma or an opening mark, so that no comma can be added there. -/
theorem not_endsItem_mark {m : Mark}
    (hm : m ∈ [Mark.comma, Mark.leftParen, Mark.leftBrace, Mark.leftBracket]) (before : Tokens)
    (p : Position) : ¬ EndsItem (before ++ [⟨.mark m, p⟩]) :=
  fun h => h.mark before m p rfl hm

/-- Brackets that hold an index or a slice are no list, so that no comma can be added in them. -/
theorem not_endsItem_subscript (before : Tokens) (p : Position) {inner : Tokens}
    (hInner : ∀ t ∈ inner, t.token.InSubscript) :
    ¬ EndsItem (before ++ [⟨.mark .leftBracket, p⟩] ++ inner) := by
  intro h
  obtain ⟨t, ht, hNot⟩ := h.subscript before p inner (by simp)
  exact hNot (hInner t ht)

/-- Derivations that do not depend on commas before the ends of lists. -/
def Keeps {α : Type} (derives : Tokens → Tokens → α → Prop) : Prop :=
  ∀ ts rest x before us, derives ts rest x → Recomma before ts us →
    ∃ before' rest', Recomma before' rest rest' ∧ derives us rest' x

section Separated

variable {α : Type} {item : Tokens → Tokens → α → Prop} {close : Mark}

/-- A list with other commas at the ends of lists has the same items, if these are kept. -/
theorem Separated.keeps (hClose : Token.Closes (.mark close))
    (starts : ∀ x us vs, item us vs x → ∃ t rest, us = t :: rest ∧ t.token.StartsItem)
    {ts rest : Tokens} {xs : List α}
    (items : ∀ x ∈ xs, ∀ ts rest before us, item ts rest x → Recomma before ts us →
      ∃ before' rest', Recomma before' rest rest' ∧ item us rest' x)
    (h : Separated item close ts rest xs) {before us : Tokens} (hStart : ¬ EndsItem before)
    (hUs : Recomma before ts us) :
    ∃ before' rest', Recomma before' rest rest' ∧ Separated item close us rest' xs := by
  induction h generalizing before us with
  | nil =>
      rcases hUs.close hClose with ⟨vs, rfl, hRest⟩ | ⟨hItem, _⟩
      · exact ⟨_, vs, hRest, .nil⟩
      · exact absurd hItem hStart
  | last head =>
      obtain ⟨_, _, hRest, hHead⟩ := items _ List.mem_cons_self _ _ _ _ head hUs
      rcases hRest.close hClose with ⟨vs, rfl, hVs⟩ | ⟨_, q, vs, rfl, hVs⟩
      · exact ⟨_, vs, hVs, .last hHead⟩
      · exact ⟨_, vs, hVs, .cons hHead .nil⟩
  | cons head tail ih =>
      have hTail := fun y hy => items y (List.mem_cons_of_mem _ hy)
      obtain ⟨_, _, hRest, hHead⟩ := items _ List.mem_cons_self _ _ _ _ head hUs
      rcases hRest.comma with ⟨vs, rfl, hVs⟩ | ⟨t, ts, vs, hCloses, rfl, rfl, hVs⟩
      · obtain ⟨before', rest', hEnd, hMore⟩ := ih hTail (not_endsItem_mark (by decide) _ _) hVs
        exact ⟨before', rest', hEnd, .cons hHead hMore⟩
      · have hNot {x : _} {us' vs' : Tokens} (hItem : item us' vs' x) (hCons : us' = t :: ts) :
            False := by
          obtain ⟨_, _, hCons', hStarts⟩ := starts x us' vs' hItem
          rw [hCons] at hCons'
          cases hCons'
          exact hStarts.not_closes hCloses
        -- Only the end of the list starts with the mark that follows the comma.
        cases tail with
        | nil => exact ⟨_, vs, hVs, .last hHead⟩
        | last head' => exact (hNot head' rfl).elim
        | cons head' _ => exact (hNot head' rfl).elim

end Separated

theorem isArgument_keeps : Keeps IsArgument := by
  intro ts rest a before us h hUs
  cases h with
  | positional value =>
      obtain ⟨vs, rfl, hVs⟩ := hUs.inner (isLiteral_inner value)
      exact ⟨_, vs, hVs, .positional value⟩
  | named marked value =>
      obtain ⟨_, rfl, hSign⟩ := hUs.inner (Token.inner_name _)
      obtain ⟨_, rfl, hValue⟩ := hSign.inner (by
        rcases marked with hMark | hMark <;> rw [hMark] <;> exact Token.inner_mark (by decide) nofun)
      obtain ⟨vs, rfl, hVs⟩ := hValue.inner (isLiteral_inner value)
      exact ⟨_, vs, hVs, .named marked value⟩

/-- The arguments of a call may be followed by a comma. -/
theorem segment_keeps : Keeps Segment := by
  intro ts rest s before us h hUs
  cases h with
  | member =>
      obtain ⟨vs, rfl, hVs⟩ := hUs.inner (Token.inner_name _)
      exact ⟨_, vs, hVs, .member⟩
  | call arguments =>
      obtain ⟨_, rfl, hOpen⟩ := hUs.inner (Token.inner_name _)
      obtain ⟨_, rfl, hInner⟩ := hOpen.inner (Token.inner_mark (by decide) nofun)
      obtain ⟨_, vs, hVs, hArguments⟩ := arguments.keeps .paren (fun _ _ _ => isArgument_startsItem)
        (fun a _ ts rest before us => isArgument_keeps ts rest a before us)
        (not_endsItem_mark (by decide) _ _) hInner
      exact ⟨_, vs, hVs, .call hArguments⟩

/-- Derivations that take only tokens of an index or a slice. -/
def KeepsSubscript {α : Type} (derives : Tokens → Tokens → α → Prop) : Prop :=
  ∀ ts rest x before us, derives ts rest x → Recomma before ts us →
    ∃ inner rest', (∀ t ∈ inner, t.token.InSubscript) ∧ Recomma (before ++ inner) rest rest' ∧
      derives us rest' x

/-- Within a slice nothing changes, as a comma would follow a bracket, a colon or a number there. -/
theorem bound_keeps : KeepsSubscript Bound := by
  intro ts rest b before us h hUs
  cases h with
  | none => exact ⟨[], us, by simp, by simpa using hUs, .none⟩
  | some =>
      obtain ⟨vs, rfl, hVs⟩ := hUs.inner (Token.inner_integer _)
      exact ⟨_, vs, List.forall_mem_singleton.mpr .integer, hVs, .some⟩

theorem colon_keeps {before : Tokens} {p : Position} {ts us : Tokens}
    (h : Recomma before (⟨.mark .colon, p⟩ :: ts) us) :
    ∃ vs, us = ⟨.mark .colon, p⟩ :: vs ∧ Recomma (before ++ [⟨.mark .colon, p⟩]) ts vs :=
  h.inner (Token.inner_mark (by decide) nofun)

theorem stride_keeps : KeepsSubscript Stride := by
  intro ts rest b before us h hUs
  cases h with
  | none => exact ⟨[], us, by simp, by simpa using hUs, .none⟩
  | some bound =>
      obtain ⟨vs, rfl, hVs⟩ := colon_keeps hUs
      obtain ⟨inner, ws, hInner, hWs, hBound⟩ := bound_keeps _ _ _ _ _ bound hVs
      exact ⟨_ :: inner, ws, List.forall_mem_cons.mpr ⟨.colon, hInner⟩, by simpa using hWs,
        .some hBound⟩

/-- The bounds of a slice after its first colon. -/
theorem bounds_keep {ts us rest : Tokens} {stop step : Option Int64} {before vs : Tokens}
    (second : Bound ts us stop) (third : Stride us rest step) (hVs : Recomma before ts vs) :
    ∃ inner ws rest', (∀ t ∈ inner, t.token.InSubscript) ∧ Recomma (before ++ inner) rest rest' ∧
      Bound vs ws stop ∧ Stride ws rest' step := by
  obtain ⟨inner, ws, hInner, hWs, hSecond⟩ := bound_keeps _ _ _ _ _ second hVs
  obtain ⟨inner', rest', hInner', hRest, hThird⟩ := stride_keeps _ _ _ _ _ third hWs
  exact ⟨inner ++ inner', ws, rest', List.forall_mem_append.mpr ⟨hInner, hInner'⟩,
    by simpa using hRest, hSecond, hThird⟩

/-- An index or a slice is the same before and after. -/
theorem subscript_keeps : KeepsSubscript Subscript := by
  intro ts rest s before us h hUs
  cases h with
  | index =>
      obtain ⟨vs, rfl, hVs⟩ := hUs.inner (Token.inner_integer _)
      exact ⟨_, vs, List.forall_mem_singleton.mpr .integer, hVs, .index⟩
  | slice first second third =>
      cases first with
      | none =>
          obtain ⟨vs, rfl, hVs⟩ := colon_keeps hUs
          obtain ⟨inner, _, rest', hInner, hRest, hSecond, hThird⟩ := bounds_keep second third hVs
          exact ⟨_ :: inner, rest', List.forall_mem_cons.mpr ⟨.colon, hInner⟩, by simpa using hRest,
            .slice .none hSecond hThird⟩
      | some =>
          obtain ⟨_, rfl, hColon⟩ := hUs.inner (Token.inner_integer _)
          obtain ⟨vs, rfl, hVs⟩ := colon_keeps hColon
          obtain ⟨inner, _, rest', hInner, hRest, hSecond, hThird⟩ := bounds_keep second third hVs
          exact ⟨_ :: _ :: inner, rest',
            List.forall_mem_cons.mpr ⟨.integer, List.forall_mem_cons.mpr ⟨.colon, hInner⟩⟩,
            by simpa using hRest, .slice .some hSecond hThird⟩

/-- The brackets of a step are closed as before. The induction is on the steps. -/
theorem tail_keeps : Keeps Tail := by
  intro ts rest ss before us h hUs
  induction h generalizing before us with
  | nil => exact ⟨before, us, hUs, .nil⟩
  | named head _ ih =>
      obtain ⟨_, rfl, hNext⟩ := hUs.inner (Token.inner_mark (by decide) nofun)
      obtain ⟨_, _, hVs, hHead⟩ := segment_keeps _ _ _ _ _ head hNext
      obtain ⟨before', rest', hRest, hTail⟩ := ih _ _ hVs
      exact ⟨before', rest', hRest, .named hHead hTail⟩
  | dotted head _ ih =>
      obtain ⟨_, rfl, hNext⟩ := hUs.inner (Token.inner_mark (by decide) nofun)
      obtain ⟨_, _, _, hVs, hHead⟩ := subscript_keeps _ _ _ _ _ head hNext
      obtain ⟨before', rest', hRest, hTail⟩ := ih _ _ hVs
      exact ⟨before', rest', hRest, .dotted hHead hTail⟩
  | bracket head _ ih =>
      obtain ⟨_, rfl, hNext⟩ := hUs.inner (Token.inner_mark (by decide) nofun)
      obtain ⟨inner, _, hInner, hVs, hHead⟩ := subscript_keeps _ _ _ _ _ head hNext
      rcases hVs.close .bracket with ⟨vs, rfl, hMore⟩ | ⟨hItem, _⟩
      · obtain ⟨before', rest', hRest, hTail⟩ := ih _ _ hMore
        exact ⟨before', rest', hRest, .bracket hHead hTail⟩
      · exact absurd hItem (not_endsItem_subscript _ _ hInner)

theorem chain_keeps : Keeps Chain := by
  intro ts rest ss before us h hUs
  cases h with
  | cons head tail =>
      obtain ⟨_, _, hVs, hHead⟩ := segment_keeps _ _ _ _ _ head hUs
      obtain ⟨before', rest', hRest, hTail⟩ := tail_keeps _ _ _ _ _ tail hVs
      exact ⟨before', rest', hRest, .cons hHead hTail⟩

/-- A chain keeps its first token. -/
theorem Chain.first {t : PlacedToken} {ts rest : Tokens} {ss : List Step}
    (h : Chain (t :: ts) rest ss) {before us : Tokens} (hUs : Recomma before (t :: ts) us) :
    ∃ vs, us = t :: vs := by
  cases h with
  | cons head _ =>
      cases head <;>
        · obtain ⟨vs, rfl, _⟩ := hUs.inner (Token.inner_name _)
          exact ⟨vs, rfl⟩

/-- An alias and its colon are kept, and the chain after them is. -/
theorem isHead_keeps : Keeps IsHead := by
  intro ts rest h before us hHead hUs
  cases hHead with
  | plain steps =>
      obtain ⟨vs, rfl⟩ := steps.first hUs
      obtain ⟨before', rest', hRest, hSteps⟩ := chain_keeps _ _ _ _ _ steps hUs
      exact ⟨before', rest', hRest, .plain hSteps⟩
  | labelled steps =>
      obtain ⟨_, rfl, hColon⟩ := hUs.inner (Token.inner_name _)
      obtain ⟨_, rfl, hNext⟩ := colon_keeps hColon
      obtain ⟨before', rest', hRest, hSteps⟩ := chain_keeps _ _ _ _ _ steps hNext
      exact ⟨before', rest', hRest, .labelled hSteps⟩

/-- A tree whose blocks do not depend on commas before the ends of lists. -/
def KeepsBlocks (r : Resource) : Prop :=
  ∀ ts rest h before us, Block ts rest h r → Recomma before ts us →
    ∃ before' rest', Recomma before' rest rest' ∧ Block us rest' h r

/-- No comma is added before a head. -/
theorem IsHead.first {h : Head} {t : PlacedToken} {ts rest : Tokens} (hHead : IsHead (t :: ts) rest h)
    {before us : Tokens} (hUs : Recomma before (t :: ts) us) : ∃ vs, us = t :: vs := by
  cases hHead with
  | plain steps => exact steps.first hUs
  | labelled =>
      obtain ⟨vs, rfl, _⟩ := hUs.inner (Token.inner_name _)
      exact ⟨vs, rfl⟩

/-- A resource is kept if its blocks are. -/
theorem KeepsBlocks.named {r : Resource} (keeps : KeepsBlocks r) {ts rest before us : Tokens}
    (h : Named Block ts rest r) (hUs : Recomma before ts us) :
    ∃ before' rest', Recomma before' rest rest' ∧ Named Block us rest' r := by
  cases h with
  | field head =>
      obtain ⟨_, rfl⟩ := head.first hUs
      obtain ⟨before', rest', hRest, hHead⟩ := isHead_keeps _ _ _ _ _ head hUs
      exact ⟨before', rest', hRest, .field hHead⟩
  | block head inner =>
      obtain ⟨_, rfl⟩ := head.first hUs
      obtain ⟨_, _, hVs, hHead⟩ := isHead_keeps _ _ _ _ _ head hUs
      obtain ⟨before', rest', hRest, hInner⟩ := keeps _ _ _ _ _ inner hVs
      exact ⟨before', rest', hRest, .block hHead hInner⟩

/-- An item of a list is kept if its blocks are. -/
theorem KeepsBlocks.item {r : Resource} (keeps : KeepsBlocks r) {ts rest before us : Tokens}
    (h : Item Block ts rest r) (hUs : Recomma before ts us) :
    ∃ before' rest', Recomma before' rest rest' ∧ Item Block us rest' r := by
  cases h with
  | named resource =>
      obtain ⟨before', rest', hRest, hNamed⟩ := keeps.named resource hUs
      exact ⟨before', rest', hRest, .named hNamed⟩
  | @bare t ts _ _ resource =>
      obtain ⟨before', rest', hRest, hBlock⟩ := keeps _ _ _ _ _ resource hUs
      have hOpen : t.token.Inner := by
        cases resource <;> exact Token.inner_mark (by decide) nofun
      obtain ⟨_, rfl, _⟩ := hUs.inner hOpen
      exact ⟨before', rest', hRest, .bare hBlock⟩

theorem children_keep {children : List Resource} (keeps : ∀ r ∈ children, KeepsBlocks r)
    {ts rest before us : Tokens} (h : Separated (Named Block) .rightBrace ts rest children)
    (hStart : ¬ EndsItem before) (hUs : Recomma before ts us) :
    ∃ before' rest', Recomma before' rest rest' ∧
      Separated (Named Block) .rightBrace us rest' children :=
  h.keeps .brace (fun _ _ _ => named_startsItem)
    (fun r hr _ _ _ _ hNamed hVs => (keeps r hr).named hNamed hVs) hStart hUs

/-- Every block is derived as before from tokens with other commas at the ends of lists. The
induction is on the tree. -/
theorem keepsBlocks (r : Resource) : KeepsBlocks r := by
  induction r using Resource.induct with
  | field =>
      intro ts rest h before us hBlock
      cases hBlock
  | list _ items ih =>
      intro ts rest h before us hBlock hUs
      cases hBlock with
      | list some inner =>
          obtain ⟨_, rfl, hNext⟩ := hUs.inner (Token.inner_mark (by decide) nofun)
          obtain ⟨before', rest', hRest, hInner⟩ := inner.keeps .bracket
            (fun _ _ _ => item_startsItem)
            (fun r hr _ _ _ _ hItem hVs => (ih r hr).item hItem hVs)
            (not_endsItem_mark (by decide) _ _) hNext
          exact ⟨before', rest', hRest, .list some hInner⟩
  | object _ children ih =>
      intro ts rest h before us hBlock hUs
      cases hBlock with
      | object inner =>
          obtain ⟨_, rfl, hNext⟩ := hUs.inner (Token.inner_mark (by decide) nofun)
          obtain ⟨before', rest', hRest, hInner⟩ :=
            children_keep ih inner (not_endsItem_mark (by decide) _ _) hNext
          exact ⟨before', rest', hRest, .object hInner⟩

/-- Commas before the ends of lists do not change the query. -/
theorem isQuery_recomma {ts us : Tokens} {q : Query} (h : IsQuery ts q) (hUs : Recomma [] ts us) :
    IsQuery us q := by
  cases h with
  | mk steps inner =>
      obtain ⟨_, rfl⟩ := steps.first hUs
      obtain ⟨_, _, hVs, hSteps⟩ := chain_keeps _ _ _ _ _ steps hUs
      obtain ⟨_, rfl, hNext⟩ := hVs.inner (Token.inner_mark (by decide) nofun)
      obtain ⟨_, _, hRest, hInner⟩ := children_keep (fun r _ => keepsBlocks r) inner
        (not_endsItem_mark (by decide) _ _) hNext
      cases hRest with
      | keep rest =>
          cases rest
          exact .mk hSteps hInner
      | add _ closes => cases closes
      | finish => exact .mk hSteps hInner

end Grammar

end GatedQuery
