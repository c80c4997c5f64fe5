import GatedQuery.Decimal.Layout
import GatedQuery.Proofs.Grammar.Conditions
import GatedQuery.Proofs.Scanning.Basic

/-! Trees that can be written as a text. What a tree must not repeat is required of it as of trees
that are read; besides, its names have to be names of the language, and its floats finite. Places do
not matter for the text. -/

namespace GatedQuery

/-- Literals that can be written: those other than floats without digits. -/
def Literal.WellFormed : Literal → Prop
  | .float x => x.isFinite = true
  | _ => True

/-- The text of a float has a fraction or an exponent, and it reads back as the same float. -/
def Literal.ReadsBack : Literal → Prop
  | .float x => ∃ n, Numeral.ofText? (queryFloat.write x) = some n ∧ n.isFractional = true ∧
      n.toFloat = x
  | _ => True

def Argument.value : Argument → Literal
  | .positional v => v
  | .named _ v => v

structure Argument.WellFormed (a : Argument) : Prop where
  name : ∀ n, a.name? = some n → Token.IsIdentifier n
  value : a.value.WellFormed

structure Step.WellFormed (s : Step) : Prop where
  name : ∀ n, s.name? = some n → Token.IsIdentifier n
  arguments : ∀ a ∈ s.arguments, a.WellFormed
  admissible : s.Admissible

/-- A chain that starts with a name. -/
def Step.StartsNamed (chain : List Step) : Prop :=
  ∃ s ss, chain = s :: ss ∧ s.name?.isSome = true

/-- A head that can be written, with a chain that starts with a name. -/
structure Head.WellFormed (h : Head) : Prop where
  label : ∀ n, h.label = some n → Token.IsIdentifier n
  named : Step.StartsNamed h.chain
  steps : ∀ s ∈ h.chain, s.WellFormed

/-- A head without alias and chain. -/
def Head.Empty (h : Head) : Prop :=
  h.label = none ∧ h.chain = []

/-- Resources that can be written and read again, in the body of a list or elsewhere. Only a list or
an object that is an item of a list may be without a name. -/
inductive Resource.WellFormed : Bool → Resource → Prop where
  | field {inList : Bool} {h : Head} (head : h.WellFormed) : WellFormed inList (.field h)
  | list {inList : Bool} {h : Head} {body : List Resource}
      (head : h.WellFormed ∨ inList = true ∧ h.Empty) (some : body ≠ [])
      (parts : ∀ r ∈ body, WellFormed true r) : WellFormed inList (.list h body)
  | object {inList : Bool} {h : Head} {children : List Resource}
      (head : h.WellFormed ∨ inList = true ∧ h.Empty) (keys : DistinctKeys children)
      (parts : ∀ r ∈ children, WellFormed false r) : WellFormed inList (.object h children)

structure Query.WellFormed (q : Query) : Prop where
  label : q.head.label = none
  head : q.head.WellFormed
  keys : Resource.DistinctKeys q.children
  parts : ∀ r ∈ q.children, r.WellFormed false

theorem Query.WellFormed.root {q : Query} (h : q.WellFormed) : q.root.WellFormed false :=
  .object (.inl h.head) h.keys h.parts

/-- Outside of a list, a resource starts with a name. -/
theorem Resource.WellFormed.startsNamed {r : Resource} (h : r.WellFormed false) :
    Step.StartsNamed r.head.chain := by
  cases h with
  | field head => exact head.named
  | list head => exact (head.resolve_right fun h => Bool.noConfusion h.1).named
  | object head => exact (head.resolve_right fun h => Bool.noConfusion h.1).named

def Step.literals (s : Step) : List Literal :=
  s.arguments.map Argument.value

def Head.literals (h : Head) : List Literal :=
  h.chain.flatMap Step.literals

mutual

def Resource.literals : Resource → List Literal
  | .field h => h.literals
  | .list h body => h.literals ++ literalsAll body
  | .object h children => h.literals ++ literalsAll children

def Resource.literalsAll : List Resource → List Literal
  | [] => []
  | r :: rs => r.literals ++ literalsAll rs

end

def Query.literals (q : Query) : List Literal :=
  q.root.literals

theorem Resource.literalsAll_eq_flatMap (rs : List Resource) :
    literalsAll rs = rs.flatMap literals := by
  induction rs with
  | nil => rfl
  | cons r rs ih => rw [literalsAll, ih, List.flatMap_cons]

end GatedQuery
