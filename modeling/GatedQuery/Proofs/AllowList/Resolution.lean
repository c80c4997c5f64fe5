import GatedQuery.Document.Record
import GatedQuery.Proofs.AllowList.Validation

/-! How the members of a built allow-list are resolved. Every answer is the one that the walk of the
hierarchy finds, and what is declared on types that are not reached by the walk has no effect. -/

namespace GatedQuery

variable {O : Type} [Inspectable O]

/-- The same steps about a type declare the same. -/
theorem Declared.agreeAt_of_stepsAbout {steps steps' : List (Declaration O)} {t : String}
    (h : stepsAbout steps t = stepsAbout steps' t) :
    (Declared.ofSteps steps).AgreeAt (Declared.ofSteps steps') t := by
  refine ⟨by rw [mem_types, mem_types, h], ?_, ?_, ?_, ?_⟩
  all_goals simp [ofSteps, wholes, h]

namespace AllowList

/-- A built allow-list answers what the walk of the hierarchy finds, and the same as one that is
built from other steps, if these agree on the type and its ancestors. -/
theorem ofSteps_resolves {steps : List (Declaration O)} {a : AllowList O}
    (hOk : ofSteps steps = .ok a) (t m : String) :
    (Declared.ofSteps steps).Resolves t m (a.accessor? t m) ∧
      ∀ steps' a', ofSteps steps' = .ok a' →
        (∀ u, u = t ∨ IsAncestor (Declared.ofSteps steps).supertypes t u →
          Declared.stepsAbout steps u = Declared.stepsAbout steps' u) →
        a'.accessor? t m = a.accessor? t m := by
  obtain ⟨_, _, hResolves⟩ := ofStepsVisiting_ok .found hOk
  refine ⟨hResolves t m, fun steps' a' hOk' hSame => ?_⟩
  obtain ⟨⟨hSteps', _⟩, _, hResolves'⟩ := ofStepsVisiting_ok .found hOk'
  have agree : (Declared.ofSteps steps).AgreeFrom (Declared.ofSteps steps') t := by
    intro n u hClimbs
    refine Declared.agreeAt_of_stepsAbout (hSame u ?_)
    rcases Nat.eq_zero_or_pos n with rfl | hn
    · cases hClimbs
      exact .inl rfl
    · exact .inr ⟨n, hn, hClimbs⟩
  exact (hResolves' t m).unique (agree.resolves (hResolves t m)) hSteps'.members

/-- A book is printed and can be borrowed. Both are items, and both have pages. -/
def bookSteps : List (Declaration DocumentObject) :=
  [.member "Item" "title" .native,
    .type ⟨"Item", [], [("id", .native)], true, true⟩,
    .type ⟨"Printed", ["Item"], [("pages", .native), ("title", .native)], true, true⟩,
    .type ⟨"Borrowed", ["Item"], [("pages", .native)], false, true⟩,
    .type ⟨"Book", ["Printed", "Borrowed"], [], true, true⟩]

/-- Another item, which is above no other type. -/
def filmStep : Declaration DocumentObject :=
  .type ⟨"Film", ["Item"], [("title", .native), ("pages", .native)], true, true⟩

theorem ofSteps_resolves_pages :
    ∃ a a', ofSteps bookSteps = .ok a ∧ ofSteps (bookSteps ++ [filmStep]) = .ok a' ∧
      (Declared.ofSteps bookSteps).Resolves "Book" "pages" (some .native) ∧
      a'.accessor? "Book" "pages" = some .native := by
  obtain ⟨a, ha, hPages⟩ : ∃ a, ofSteps bookSteps = .ok a ∧
      a.accessor? "Book" "pages" = some .native := ⟨_, rfl, rfl⟩
  obtain ⟨a', ha'⟩ : ∃ a', ofSteps (bookSteps ++ [filmStep]) = .ok a' := ⟨_, rfl⟩
  obtain ⟨hResolves, hLocal⟩ := ofSteps_resolves ha "Book" "pages"
  rw [hPages] at hResolves hLocal
  refine ⟨a, a', ha, ha', hResolves, hLocal _ a' ha' fun u hu => ?_⟩
  have hDeclared : u ∈ (Declared.ofSteps bookSteps).types := by
    rcases hu with rfl | hAbove
    · decide
    · exact ((ofStepsVisiting_ok_iff .found bookSteps).mp ⟨a, ha⟩).2.closed.mem_of_isAncestor hAbove
  have hOther : filmStep.type? ≠ some u := by
    rintro ⟨⟩
    revert hDeclared
    decide
  rw [Declared.stepsAbout_append, Declared.stepsAbout_singleton_of_ne hOther, List.append_nil]

end AllowList

end GatedQuery
