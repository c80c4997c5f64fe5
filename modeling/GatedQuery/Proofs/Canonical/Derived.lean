import GatedQuery.Proofs.Canonical.WellFormed
import GatedQuery.Proofs.Grammar.Soundness

/-! What is read from a text can be written. A scanner gives only names of the language and finite
floats, and a tree that is derived from such tokens has no others. -/

namespace GatedQuery

/-- Tokens that a scanner can give. -/
def Scanned (ts : Tokens) : Prop :=
  ∀ t ∈ ts, t.token.Scannable

/-- What is left of scanned tokens is scanned. -/
theorem Scanned.tail {t : PlacedToken} {ts : Tokens} (h : Scanned (t :: ts)) : Scanned ts :=
  (List.forall_mem_cons.mp h).2

theorem Scanned.identifier {n : String} {p : Position} {ts : Tokens}
    (h : Scanned (⟨.name n, p⟩ :: ts)) : Token.IsIdentifier n :=
  h _ List.mem_cons_self

/-- A literal that was scanned can be written: no float that a scanner gives is infinite. -/
theorem literal_wellFormed {t : Token} {v : Literal} (h : Grammar.IsLiteral t v)
    (scannable : t.Scannable) : v.WellFormed := by
  cases h with
  | float => exact scannable
  | _ => trivial

namespace Grammar

/-- The items of a list can be written if each of them can. -/
theorem Separated.wellFormed {α : Type} {item : Tokens → Tokens → α → Prop} {close : Mark}
    {P : α → Prop} {ts rest : Tokens} {xs : List α} (h : Separated item close ts rest xs)
    (items : ∀ x ∈ xs, ∀ us vs, item us vs x → Scanned us → Scanned vs ∧ P x)
    (scanned : Scanned ts) : Scanned rest ∧ ∀ x ∈ xs, P x := by
  induction h with
  | nil => exact ⟨scanned.tail, fun x hx => absurd hx List.not_mem_nil⟩
  | last head =>
      obtain ⟨hRest, hItem⟩ := items _ List.mem_cons_self _ _ head scanned
      exact ⟨hRest.tail, List.forall_mem_singleton.mpr hItem⟩
  | cons head _ ih =>
      obtain ⟨hRest, hItem⟩ := items _ List.mem_cons_self _ _ head scanned
      obtain ⟨hEnd, hItems⟩ := ih (fun x hx => items x (List.mem_cons_of_mem _ hx)) hRest.tail
      exact ⟨hEnd, List.forall_mem_cons.mpr ⟨hItem, hItems⟩⟩

variable {ts rest : Tokens}

/-- An argument that was scanned can be written, as its name is an identifier. -/
theorem IsArgument.wellFormed {a : Argument} (h : IsArgument ts rest a) (scanned : Scanned ts) :
    Scanned rest ∧ a.WellFormed := by
  cases h with
  | @positional t _ v value =>
      exact ⟨scanned.tail, fun n hn => (nomatch hn),
        literal_wellFormed value (scanned t List.mem_cons_self)⟩
  | @named n p sign t _ v marked value =>
      refine ⟨scanned.tail.tail.tail, ?_,
        literal_wellFormed value (scanned.tail.tail t List.mem_cons_self)⟩
      rintro _ ⟨⟩
      exact scanned.identifier

/-- A name or a call that was scanned can be written. -/
theorem Segment.wellFormed {s : Step} (h : Segment ts rest s) (admissible : s.Admissible)
    (scanned : Scanned ts) : Scanned rest ∧ s.WellFormed := by
  cases h with
  | member =>
      refine ⟨scanned.tail, ?_, fun a ha => absurd ha List.not_mem_nil, admissible⟩
      rintro _ ⟨⟩
      exact scanned.identifier
  | call arguments =>
      obtain ⟨hRest, hArguments⟩ :=
        arguments.wellFormed (fun _ _ _ _ ha => ha.wellFormed) scanned.tail.tail
      refine ⟨hRest, ?_, hArguments, admissible⟩
      rintro _ ⟨⟩
      exact scanned.identifier

theorem Bound.scanned {b : Option Int64} (h : Bound ts rest b) (scanned : Scanned ts) :
    Scanned rest := by
  cases h with
  | none => exact scanned
  | some => exact scanned.tail

theorem Stride.scanned {b : Option Int64} (h : Stride ts rest b) (scanned : Scanned ts) :
    Scanned rest := by
  cases h with
  | none => exact scanned
  | some bound => exact bound.scanned scanned.tail

/-- An index or a slice can always be written. -/
theorem Subscript.wellFormed {s : Step} (h : Subscript ts rest s) (admissible : s.Admissible)
    (scanned : Scanned ts) : Scanned rest ∧ s.WellFormed := by
  cases h with
  | index =>
      exact ⟨scanned.tail, fun n hn => (nomatch hn), fun a ha => absurd ha List.not_mem_nil,
        admissible⟩
  | slice first second third =>
      exact ⟨third.scanned (second.scanned (first.scanned scanned).tail), fun n hn => (nomatch hn),
        fun a ha => absurd ha List.not_mem_nil, admissible⟩

theorem Tail.wellFormed {ss : List Step} (h : Tail ts rest ss)
    (admissible : ∀ s ∈ ss, s.Admissible) (scanned : Scanned ts) :
    Scanned rest ∧ ∀ s ∈ ss, s.WellFormed := by
  induction h with
  | nil => exact ⟨scanned, fun s hs => absurd hs List.not_mem_nil⟩
  | named head _ ih =>
      obtain ⟨hFirst, hMore⟩ := List.forall_mem_cons.mp admissible
      obtain ⟨hUs, hStep⟩ := head.wellFormed hFirst scanned.tail
      obtain ⟨hRest, hSteps⟩ := ih hMore hUs
      exact ⟨hRest, List.forall_mem_cons.mpr ⟨hStep, hSteps⟩⟩
  | dotted head _ ih =>
      obtain ⟨hFirst, hMore⟩ := List.forall_mem_cons.mp admissible
      obtain ⟨hUs, hStep⟩ := head.wellFormed hFirst scanned.tail
      obtain ⟨hRest, hSteps⟩ := ih hMore hUs
      exact ⟨hRest, List.forall_mem_cons.mpr ⟨hStep, hSteps⟩⟩
  | bracket head _ ih =>
      obtain ⟨hFirst, hMore⟩ := List.forall_mem_cons.mp admissible
      obtain ⟨hUs, hStep⟩ := head.wellFormed hFirst scanned.tail
      obtain ⟨hRest, hSteps⟩ := ih hMore hUs.tail
      exact ⟨hRest, List.forall_mem_cons.mpr ⟨hStep, hSteps⟩⟩

/-- A chain begins with a step that has a name. -/
theorem Segment.named {s : Step} (h : Segment ts rest s) : s.name?.isSome = true := by
  cases h <;> rfl

/-- A chain that was scanned starts with a name, and all its steps can be written. -/
theorem Chain.wellFormed {ss : List Step} (h : Chain ts rest ss)
    (admissible : ∀ s ∈ ss, s.Admissible) (scanned : Scanned ts) :
    Scanned rest ∧ Step.StartsNamed ss ∧ ∀ s ∈ ss, s.WellFormed := by
  cases h with
  | cons head tail =>
      obtain ⟨hFirst, hMore⟩ := List.forall_mem_cons.mp admissible
      obtain ⟨hUs, hStep⟩ := head.wellFormed hFirst scanned
      obtain ⟨hRest, hSteps⟩ := tail.wellFormed hMore hUs
      exact ⟨hRest, ⟨_, _, rfl, head.named⟩, List.forall_mem_cons.mpr ⟨hStep, hSteps⟩⟩

/-- A head that was scanned can be written. -/
theorem IsHead.wellFormed {h : Head} (hHead : IsHead ts rest h)
    (admissible : ∀ s ∈ h.chain, s.Admissible) (scanned : Scanned ts) :
    Scanned rest ∧ h.WellFormed := by
  cases hHead with
  | plain steps =>
      obtain ⟨hRest, hNamed, hSteps⟩ := steps.wellFormed admissible scanned
      exact ⟨hRest, fun n hn => (nomatch hn), hNamed, hSteps⟩
  | labelled steps =>
      obtain ⟨hRest, hNamed, hSteps⟩ := steps.wellFormed admissible scanned.tail.tail
      refine ⟨hRest, ?_, hNamed, hSteps⟩
      rintro _ ⟨⟩
      exact scanned.identifier

def BlockWellFormed (r : Resource) : Prop :=
  ∀ {inList ts rest h}, Block ts rest h r → r.Admissible → Scanned ts →
    h.WellFormed ∨ inList = true ∧ h.Empty → Scanned rest ∧ r.WellFormed inList

/-- A resource that was scanned can be written if its block can. -/
theorem Named.wellFormed {inList : Bool} {r : Resource} (h : Named Block ts rest r)
    (blocks : BlockWellFormed r) (admissible : r.Admissible) (scanned : Scanned ts) :
    Scanned rest ∧ r.WellFormed inList := by
  cases h with
  | field head =>
      obtain ⟨hRest, hHead⟩ := head.wellFormed admissible.steps scanned
      exact ⟨hRest, .field hHead⟩
  | block head inner =>
      obtain ⟨hUs, hHead⟩ := head.wellFormed (inner.head ▸ admissible.steps) scanned
      exact blocks inner admissible hUs (.inl hHead)

/-- An item of a list may lack a head, which can be written in lists only. -/
theorem Item.wellFormed {r : Resource} (h : Item Block ts rest r) (blocks : BlockWellFormed r)
    (admissible : r.Admissible) (scanned : Scanned ts) : Scanned rest ∧ r.WellFormed true := by
  cases h with
  | named resource => exact resource.wellFormed blocks admissible scanned
  | bare resource => exact blocks resource admissible scanned (.inr ⟨rfl, rfl, rfl⟩)

/-- Every block that was scanned can be written. The induction is on the tree. -/
theorem block_wellFormed (r : Resource) : BlockWellFormed r := by
  induction r using Resource.induct with
  | field h =>
      intro inList ts rest h hBlock
      cases hBlock
  | list _ body ih =>
      intro inList ts rest h hBlock admissible scanned head
      cases hBlock with
      | list some inner =>
          cases admissible with
          | list _ parts =>
              obtain ⟨hRest, hParts⟩ := inner.wellFormed
                (fun r hr _ _ hItem => hItem.wellFormed (ih r hr) (parts r hr)) scanned.tail
              exact ⟨hRest, .list head some hParts⟩
  | object _ children ih =>
      intro inList ts rest h hBlock admissible scanned head
      cases hBlock with
      | object inner =>
          cases admissible with
          | object _ keys parts =>
              obtain ⟨hRest, hParts⟩ := inner.wellFormed
                (fun r hr _ _ hChild => hChild.wellFormed (ih r hr) (parts r hr)) scanned.tail
              exact ⟨hRest, .object head keys hParts⟩

/-- Queries that were read from a text are among those that can be written. -/
theorem IsQuery.wellFormed {q : Query} (h : IsQuery ts q) (admissible : q.Admissible)
    (scanned : Scanned ts) : q.WellFormed := by
  cases h with
  | mk steps inner =>
      obtain ⟨hUs, hNamed, hSteps⟩ := steps.wellFormed admissible.steps scanned
      obtain ⟨_, hParts⟩ := inner.wellFormed (fun r hr _ _ hChild =>
        hChild.wellFormed (block_wellFormed r) (admissible.parts r hr)) hUs.tail
      exact ⟨rfl, ⟨fun n hn => (nomatch hn), hNamed, hSteps⟩, admissible.keys, hParts⟩

end Grammar

end GatedQuery
