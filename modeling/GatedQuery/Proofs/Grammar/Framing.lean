import GatedQuery.Proofs.Grammar.Completeness

/-! What follows a phrase does not matter to it. A derivation takes some tokens from the front, and
from them it gives the same tree in front of any others. So phrases can be put together, and a
phrase that has been read can be gone on with in another way. -/

namespace GatedQuery

open Reading

namespace Grammar

variable {α : Type} {ts rest taken taken' : Tokens}

/-- A derivation that takes these tokens, whatever follows them. -/
def Takes (derives : Tokens → Tokens → α → Prop) (taken : Tokens) (x : α) : Prop :=
  ∀ rest, derives (taken ++ rest) rest x

/-- Derivations that take tokens from the front, and could do so in front of any others. -/
def Framed (derives : Tokens → Tokens → α → Prop) : Prop :=
  ∀ ts rest x, derives ts rest x → ∃ taken, ts = taken ++ rest ∧ Takes derives taken x

/-- What stands after a dot. -/
def Dotted (ts rest : Tokens) (s : Step) : Prop :=
  Segment ts rest s ∨ Subscript ts rest s

def Bracketed (ts rest : Tokens) (s : Step) : Prop :=
  ∃ q, Subscript ts (⟨.mark .rightBracket, q⟩ :: rest) s

namespace Takes

section Separated

variable {item : Tokens → Tokens → α → Prop} {close : Mark} {x : α} {xs : List α}

/-- A list of one item takes what the item takes and its closing mark. -/
theorem last (h : Takes item taken x) (p : Position) :
    Takes (Separated item close) (taken ++ [⟨.mark close, p⟩]) [x] := by
  intro rest
  rw [List.append_assoc]
  exact .last (h _)

/-- One more item in front of a list takes its own tokens and a comma. -/
theorem cons (h : Takes item taken x) (p : Position)
    (hMore : Takes (Separated item close) taken' xs) :
    Takes (Separated item close) (taken ++ ⟨.mark .comma, p⟩ :: taken') (x :: xs) := by
  intro rest
  rw [List.append_assoc]
  exact .cons (h _) (hMore rest)

end Separated

theorem bracketed {s : Step} (h : Takes Subscript taken s) (q : Position) :
    Takes Bracketed (taken ++ [⟨.mark .rightBracket, q⟩]) s := by
  intro rest
  rw [List.append_assoc]
  exact ⟨q, h _⟩

/-- A step behind a dot, in front of other steps. -/
theorem tail_dot {s : Step} {ss : List Step} (h : Takes Dotted taken s) (p : Position)
    (hTail : Takes Tail taken' ss) : Takes Tail (⟨.mark .dot, p⟩ :: taken ++ taken') (s :: ss) := by
  intro rest
  rw [List.append_assoc]
  rcases h (taken' ++ rest) with hSegment | hSubscript
  · exact .named hSegment (hTail rest)
  · exact .dotted hSubscript (hTail rest)

theorem tail_bracket {s : Step} {ss : List Step} (h : Takes Bracketed taken s) (p : Position)
    (hTail : Takes Tail taken' ss) :
    Takes Tail (⟨.mark .leftBracket, p⟩ :: taken ++ taken') (s :: ss) := by
  intro rest
  rw [List.append_assoc]
  obtain ⟨q, hHead⟩ := h (taken' ++ rest)
  exact .bracket hHead (hTail rest)

/-- A chain takes what its first name takes and what its other steps take. -/
theorem chain {s : Step} {ss : List Step} (h : Takes Segment taken s)
    (hTail : Takes Tail taken' ss) : Takes Chain (taken ++ taken') (s :: ss) := by
  intro rest
  rw [List.append_assoc]
  exact .cons (h _) (hTail rest)

end Takes

/-- What an argument takes does not depend on what follows. -/
theorem isArgument_framed : Framed IsArgument := by
  intro ts rest a h
  cases h with
  | @positional t _ _ value => exact ⟨[t], rfl, fun _ => .positional value⟩
  | @named n p sign t _ _ marked value =>
      exact ⟨[⟨.name n, p⟩, sign, t], rfl, fun _ => .named marked value⟩

/-- A list splits into what it takes and what is left, if its items do. -/
theorem Separated.framed {item : Tokens → Tokens → α → Prop} {close : Mark} {xs : List α}
    (h : Separated item close ts rest xs)
    (items : ∀ x ∈ xs, ∀ us vs, item us vs x → ∃ taken, us = taken ++ vs ∧ Takes item taken x) :
    ∃ taken, ts = taken ++ rest ∧ Takes (Separated item close) taken xs := by
  induction h with
  | @nil p rest => exact ⟨[⟨.mark close, p⟩], rfl, fun _ => .nil⟩
  | @last _ _ p _ head =>
      obtain ⟨taken, rfl, hTaken⟩ := items _ List.mem_cons_self _ _ head
      exact ⟨taken ++ [⟨.mark close, p⟩], List.append_cons .., hTaken.last p⟩
  | @cons _ _ _ p _ _ head _ ih =>
      obtain ⟨taken, rfl, hTaken⟩ := items _ List.mem_cons_self _ _ head
      obtain ⟨taken', rfl, hMore⟩ := ih fun x hx => items x (List.mem_cons_of_mem _ hx)
      exact ⟨taken ++ ⟨.mark .comma, p⟩ :: taken', by simp, hTaken.cons p hMore⟩

/-- A call ends with its parenthesis; a name alone is one token. Neither depends on what follows. -/
theorem segment_framed : Framed Segment := by
  intro ts rest s h
  cases h with
  | @member n p _ => exact ⟨[⟨.name n, p⟩], rfl, fun _ => .member⟩
  | @call n p q _ _ _ arguments =>
      obtain ⟨taken, rfl, hTaken⟩ := arguments.framed fun a _ us vs => isArgument_framed us vs a
      exact ⟨⟨.name n, p⟩ :: ⟨.mark .leftParen, q⟩ :: taken, rfl, fun _ => .call (hTaken _)⟩

/-- A bound that is left out takes nothing. -/
theorem bound_framed : Framed Bound := by
  intro ts rest b h
  cases h with
  | none => exact ⟨[], rfl, fun _ => .none⟩
  | @some n p _ => exact ⟨[⟨.integer n, p⟩], rfl, fun _ => .some⟩

theorem stride_framed : Framed Stride := by
  intro ts rest b h
  cases h with
  | none => exact ⟨[], rfl, fun _ => .none⟩
  | @some p _ _ _ bound =>
      obtain ⟨taken, rfl, hTaken⟩ := bound_framed _ _ _ bound
      exact ⟨⟨.mark .colon, p⟩ :: taken, rfl, fun _ => .some (hTaken _)⟩

/-- An index or a slice splits into what it takes and what is left. -/
theorem subscript_framed : Framed Subscript := by
  intro ts rest s h
  cases h with
  | @index i p _ => exact ⟨[⟨.integer i, p⟩], rfl, fun _ => .index⟩
  | @slice t _ _ _ _ p _ _ _ first second third =>
      obtain ⟨front, hFront, hFirst⟩ := bound_framed _ _ _ first
      obtain ⟨middle, rfl, hSecond⟩ := bound_framed _ _ _ second
      obtain ⟨last, rfl, hThird⟩ := stride_framed _ _ _ third
      -- the place of a slice is that of its first token, which is a bound or the colon
      have hCons : ∃ inner, front ++ ⟨.mark .colon, p⟩ :: (middle ++ last) = t :: inner := by
        cases front with
        | nil =>
            cases hFront
            exact ⟨_, rfl⟩
        | cons u front =>
            cases hFront
            exact ⟨_, rfl⟩
      obtain ⟨inner, hInner⟩ := hCons
      have hTaken (rest : Tokens) : t :: inner ++ rest =
          front ++ ⟨.mark .colon, p⟩ :: (middle ++ (last ++ rest)) := by
        rw [← hInner]
        simp
      refine ⟨t :: inner, hFront.trans (hTaken _).symm, fun rest => ?_⟩
      have hStart : Bound (t :: inner ++ rest) (⟨.mark .colon, p⟩ :: (middle ++ (last ++ rest))) _ :=
        (hTaken rest).symm ▸ hFirst _
      exact .slice hStart (hSecond _) (hThird rest)

theorem dotted_framed : Framed Dotted := by
  rintro ts rest s (h | h)
  · obtain ⟨taken, hTs, hTaken⟩ := segment_framed _ _ _ h
    exact ⟨taken, hTs, fun rest => .inl (hTaken rest)⟩
  · obtain ⟨taken, hTs, hTaken⟩ := subscript_framed _ _ _ h
    exact ⟨taken, hTs, fun rest => .inr (hTaken rest)⟩

theorem bracketed_framed : Framed Bracketed := by
  rintro ts rest s ⟨q, h⟩
  obtain ⟨taken, rfl, hTaken⟩ := subscript_framed _ _ _ h
  exact ⟨taken ++ [⟨.mark .rightBracket, q⟩], List.append_cons .., hTaken.bracketed q⟩

theorem tail_framed : Framed Tail := by
  intro ts rest ss h
  induction h with
  | nil => exact ⟨[], rfl, fun _ => .nil⟩
  | @named p _ _ _ _ _ head _ ih =>
      obtain ⟨taken, rfl, hTaken⟩ := dotted_framed _ _ _ (.inl head)
      obtain ⟨taken', rfl, hTail⟩ := ih
      exact ⟨⟨.mark .dot, p⟩ :: taken ++ taken', by simp, hTaken.tail_dot p hTail⟩
  | @dotted p _ _ _ _ _ head _ ih =>
      obtain ⟨taken, rfl, hTaken⟩ := dotted_framed _ _ _ (.inr head)
      obtain ⟨taken', rfl, hTail⟩ := ih
      exact ⟨⟨.mark .dot, p⟩ :: taken ++ taken', by simp, hTaken.tail_dot p hTail⟩
  | @bracket p q ts us _ _ _ head _ ih =>
      obtain ⟨taken, rfl, hTaken⟩ := bracketed_framed ts us _ ⟨q, head⟩
      obtain ⟨taken', rfl, hTail⟩ := ih
      exact ⟨⟨.mark .leftBracket, p⟩ :: taken ++ taken', by simp, hTaken.tail_bracket p hTail⟩

/-- A chain splits into what it takes and what is left. -/
theorem chain_framed : Framed Chain := by
  intro ts rest ss h
  cases h with
  | cons head tail =>
      obtain ⟨taken, rfl, hTaken⟩ := segment_framed _ _ _ head
      obtain ⟨taken', rfl, hTail⟩ := tail_framed _ _ _ tail
      exact ⟨_, (List.append_assoc ..).symm, hTaken.chain hTail⟩

/-- What takes a token at least takes a first one. -/
theorem Takes.exists_cons {derives : Tokens → Tokens → α → Prop} {x : α} (h : Takes derives taken x)
    (takes : ∀ us vs, derives us vs x → vs.length < us.length) : ∃ t us, taken = t :: us := by
  have hLength := takes _ _ (h [])
  simp only [List.append_nil] at hLength
  exact List.exists_cons_of_ne_nil (ne_nil_of_length_lt hLength)

/-- A head splits into what it takes and what is left. -/
theorem isHead_framed : Framed IsHead := by
  intro ts rest h hHead
  cases hHead with
  | @plain t _ _ _ steps =>
      obtain ⟨taken, hTs, hTaken⟩ := chain_framed _ _ _ steps
      obtain ⟨_, us, rfl⟩ := hTaken.exists_cons fun _ _ => Chain.length
      cases hTs
      exact ⟨t :: us, rfl, fun _ => .plain (hTaken _)⟩
  | @labelled n p q _ _ _ steps =>
      obtain ⟨taken, rfl, hTaken⟩ := chain_framed _ _ _ steps
      exact ⟨⟨.name n, p⟩ :: ⟨.mark .colon, q⟩ :: taken, rfl, fun _ => .labelled (hTaken _)⟩

/-- A block under a head. -/
def BlockOf (h : Head) (ts rest : Tokens) (r : Resource) : Prop :=
  Block ts rest h r

def Body (ts rest : Tokens) (f : Head → Resource) : Prop :=
  ∀ h, Block ts rest h (f h)

namespace Takes

variable {h : Head} {r : Resource}

theorem field (hHead : Takes IsHead taken h) : Takes (Named Block) taken (.field h) := by
  obtain ⟨t, us, rfl⟩ := hHead.exists_cons fun _ _ => IsHead.length
  exact fun rest => .field (hHead rest)

/-- A resource with a block takes what its head and its block take. -/
theorem block (hHead : Takes IsHead taken h) (inner : Takes (BlockOf h) taken' r) :
    Takes (Named Block) (taken ++ taken') r := by
  obtain ⟨t, us, rfl⟩ := hHead.exists_cons fun _ _ => IsHead.length
  intro rest
  rw [List.append_assoc]
  exact .block (hHead _) (inner rest)

end Takes

/-- What follows a resource does not matter to its blocks. -/
def FramedBlocks (r : Resource) : Prop :=
  ∀ ts rest h, Block ts rest h r → ∃ taken, ts = taken ++ rest ∧ Takes (BlockOf h) taken r

/-- A resource splits into what it takes and what is left if its blocks do. -/
theorem FramedBlocks.named {r : Resource} (blocks : FramedBlocks r) (ts rest : Tokens)
    (h : Named Block ts rest r) : ∃ taken, ts = taken ++ rest ∧ Takes (Named Block) taken r := by
  cases h with
  | field head =>
      obtain ⟨taken, hTs, hTaken⟩ := isHead_framed _ _ _ head
      exact ⟨taken, hTs, hTaken.field⟩
  | block head inner =>
      obtain ⟨taken, hTs, hTaken⟩ := isHead_framed _ _ _ head
      obtain ⟨taken', rfl, hInner⟩ := blocks _ _ _ inner
      exact ⟨taken ++ taken', hTs.trans (List.append_assoc ..).symm, hTaken.block hInner⟩

theorem FramedBlocks.item {r : Resource} (blocks : FramedBlocks r) (ts rest : Tokens)
    (h : Item Block ts rest r) : ∃ taken, ts = taken ++ rest ∧ Takes (Item Block) taken r := by
  cases h with
  | named resource =>
      obtain ⟨taken, hTs, hTaken⟩ := blocks.named _ _ resource
      exact ⟨taken, hTs, fun _ => .named (hTaken _)⟩
  | @bare t _ _ _ resource =>
      obtain ⟨taken, hTs, hTaken⟩ := blocks _ _ _ resource
      obtain ⟨_, us, rfl⟩ := hTaken.exists_cons fun _ _ => Block.length
      cases hTs
      exact ⟨t :: us, rfl, fun _ => .bare (hTaken _)⟩

/-- Every block splits into what it takes and what is left. The induction is on the tree, whose
parts are blocks of their own. -/
theorem framedBlocks (r : Resource) : FramedBlocks r := by
  induction r using Resource.induct with
  | field =>
      intro ts rest h hBlock
      cases hBlock
  | list _ items ih =>
      intro ts rest h hBlock
      cases hBlock with
      | @list _ p _ _ _ some inner =>
          obtain ⟨taken, rfl, hTaken⟩ := inner.framed fun r hr => (ih r hr).item
          exact ⟨⟨.mark .leftBracket, p⟩ :: taken, rfl, fun _ => .list some (hTaken _)⟩
  | object _ children ih =>
      intro ts rest h hBlock
      cases hBlock with
      | @object _ p _ _ _ inner =>
          obtain ⟨taken, rfl, hTaken⟩ := inner.framed fun r hr => (ih r hr).named
          exact ⟨⟨.mark .leftBrace, p⟩ :: taken, rfl, fun _ => .object (hTaken _)⟩

theorem named_framed : Framed (Named Block) :=
  fun ts rest r => (framedBlocks r).named ts rest

theorem item_framed : Framed (Item Block) :=
  fun ts rest r => (framedBlocks r).item ts rest

end Grammar

end GatedQuery
