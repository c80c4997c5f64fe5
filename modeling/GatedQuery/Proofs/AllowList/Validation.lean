import GatedQuery.Document.Record
import GatedQuery.Proofs.AllowList.Building
import GatedQuery.Proofs.AllowList.Drafting

/-! Which steps make an allow-list. Building succeeds exactly if no step is in conflict with another
and what they declare together is valid, and it fails with the first problem otherwise. -/

namespace GatedQuery

variable {O : Type} [Inspectable O]

/-- The problem that is reported: the first step in conflict with those before it, or else the first
problem of what the steps declare together. -/
inductive Problem (steps : List (Declaration O)) : DeclarationError → Prop where
  | step {before after : List (Declaration O)} {s : Declaration O} {e : DeclarationError}
      (split : steps = before ++ s :: after) (earlier : Consistent before)
      (fault : Fault before s e) : Problem steps e
  | declared {e : DeclarationError} (consistent : Consistent steps)
      (refused : (Declared.ofSteps steps).Refused e) : Problem steps e

/-- Where there is a problem, some condition on the declarations fails. -/
theorem Problem.not_valid {steps : List (Declaration O)} {e : DeclarationError}
    (h : Problem steps e) : ¬ (Consistent steps ∧ (Declared.ofSteps steps).Valid) := by
  rintro ⟨hSteps, hValid⟩
  cases h with
  | step split _ fault =>
      subst split
      exact hSteps.not_fault fault
  | declared _ refused => exact refused.not_valid hValid

namespace AllowList

/-- An allow-list that is built comes from valid steps, and answers as they say, in whatever order
inherited members are visited. -/
theorem ofStepsVisiting_ok (order : VisitingOrder O) {steps : List (Declaration O)}
    {a : AllowList O} (h : ofStepsVisiting order steps = .ok a) :
    (Consistent steps ∧ (Declared.ofSteps steps).Valid) ∧
      a.entries = steps.filterMap Declaration.entry? ∧
      ∀ t m, (Declared.ofSteps steps).Resolves t m (a.accessor? t m) := by
  unfold ofStepsVisiting at h
  rcases Draft.ofSteps_cases steps with
    ⟨hSteps, draft, hDraft, hHolds⟩ | ⟨before, s, after, e, _, _, _, hError⟩
  · rw [hDraft] at h
    obtain ⟨hValid, hEntries, hResolves⟩ := Declared.ofDraftVisiting_ok
      (Declared.ofSteps_sound steps) hSteps.members order hHolds.types h
    exact ⟨⟨hSteps, hValid⟩, hEntries.trans hHolds.entries, hResolves⟩
  · rw [hError] at h
    cases h

/-- A refusal names the first problem there is. -/
theorem ofStepsVisiting_error (order : VisitingOrder O) {steps : List (Declaration O)}
    {e : DeclarationError} (h : ofStepsVisiting order steps = .error e) : Problem steps e := by
  unfold ofStepsVisiting at h
  rcases Draft.ofSteps_cases steps with
    ⟨hSteps, draft, hDraft, hHolds⟩ | ⟨before, s, after, e', hSplit, hBefore, hFault, hError⟩
  · rw [hDraft] at h
    exact .declared hSteps (Declared.ofDraftVisiting_error (Declared.ofSteps_sound steps)
      hSteps.members order hHolds.types h)
  · rw [hError] at h
    cases h
    exact .step hSplit hBefore hFault

/-- Steps make an allow-list exactly if they are in no conflict and valid together, whatever the
order of visiting is. -/
theorem ofStepsVisiting_ok_iff (order : VisitingOrder O) (steps : List (Declaration O)) :
    (∃ a, ofStepsVisiting order steps = .ok a) ↔
      Consistent steps ∧ (Declared.ofSteps steps).Valid := by
  cases hRun : ofStepsVisiting order steps with
  | ok a => exact ⟨fun _ => (ofStepsVisiting_ok order hRun).1, fun _ => ⟨a, rfl⟩⟩
  | error e =>
      exact ⟨nofun, fun hValid => absurd hValid (ofStepsVisiting_error order hRun).not_valid⟩

/-- Building validates exactly, whatever the order of visiting: it succeeds if and only if no steps
are in conflict and what they declare is valid, and what it reports otherwise is the first problem. -/
theorem ofSteps_validates (order : VisitingOrder O) (steps : List (Declaration O)) :
    ((∃ a, ofStepsVisiting order steps = .ok a) ↔
        Consistent steps ∧ (Declared.ofSteps steps).Valid) ∧
      ∀ e, ofStepsVisiting order steps = .error e → Problem steps e :=
  ⟨ofStepsVisiting_ok_iff order steps, fun _ => ofStepsVisiting_error order⟩

/-- A type that only leads into a cycle does not inherit from itself. -/
example : ofSteps (O := DocumentObject)
    [.type ⟨"Door", ["Gate"], [], true, true⟩, .type ⟨"Gate", ["Wall"], [], true, true⟩,
      .type ⟨"Wall", ["Gate"], [], true, true⟩] = .error (.inheritanceCycle "Gate") :=
  rfl

end AllowList

end GatedQuery
