import GatedQuery.Proofs.Canonical.WellFormed
import GatedQuery.Proofs.Decimal.Layout

/-! The literals of a tree that can be written can be written, and each of them reads back. -/

namespace GatedQuery

/-- Exponents are written without a plus sign. -/
theorem plusSigned_queryFloat : queryFloat.PlusSigned :=
  .inl rfl

/-- A finite float is written as a numeral that becomes the float again. -/
theorem Literal.WellFormed.readsBack {v : Literal} (h : v.WellFormed) : v.ReadsBack := by
  cases v with
  | float x => exact FloatFormat.readsBack_write plusSigned_queryFloat h
  | _ => trivial

theorem Head.WellFormed.literals {h : Head} (wellFormed : h.WellFormed) :
    ∀ v ∈ h.literals, v.WellFormed := by
  intro v hv
  obtain ⟨s, hs, hLiteral⟩ := List.mem_flatMap.mp hv
  obtain ⟨a, ha, rfl⟩ := List.mem_map.mp hLiteral
  exact ((wellFormed.steps s hs).arguments a ha).value

theorem Head.literals_of_anyHead {inList : Bool} {h : Head}
    (head : h.WellFormed ∨ inList = true ∧ h.Empty) : ∀ v ∈ h.literals, v.WellFormed := by
  rcases head with wellFormed | ⟨_, _, hChain⟩
  · exact wellFormed.literals
  · rw [Head.literals, hChain]
    exact fun v hv => absurd hv List.not_mem_nil

/-- Every literal of a resource that can be written can be written. -/
theorem Resource.WellFormed.literals {inList : Bool} {r : Resource} (h : r.WellFormed inList) :
    ∀ v ∈ r.literals, v.WellFormed := by
  have hParts {h : Head} {parts : List Resource} (head : ∀ v ∈ h.literals, v.WellFormed)
      (ih : ∀ r ∈ parts, ∀ v ∈ r.literals, v.WellFormed) :
      ∀ v ∈ h.literals ++ literalsAll parts, v.WellFormed := by
    intro v hv
    rcases List.mem_append.mp hv with hHead | hBelow
    · exact head v hHead
    · rw [literalsAll_eq_flatMap] at hBelow
      obtain ⟨r, hr, hv⟩ := List.mem_flatMap.mp hBelow
      exact ih r hr v hv
  induction h with
  | field head => exact head.literals
  | list head _ _ ih => exact hParts (Head.literals_of_anyHead head) ih
  | object head _ _ ih => exact hParts (Head.literals_of_anyHead head) ih

/-- Every float of a query that can be written is read back: the shortest decimal of a double rounds
to it. -/
theorem Query.WellFormed.readsBack {q : Query} (h : q.WellFormed) :
    ∀ v ∈ q.literals, v.ReadsBack :=
  fun v hv => (h.root.literals v hv).readsBack

end GatedQuery
