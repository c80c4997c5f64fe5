import GatedQuery.Proofs.Canonical.Execution
import GatedQuery.Proofs.Grammar.Refusals
import GatedQuery.Proofs.Scanning.Places
import GatedQuery.Proofs.Solve.Failures

/-! Every place that is reported is true of the text. Places are made once, for tokens, and from there
they are handed on to steps and resources, to what is wrong with a query and to the failures of a
run. -/

namespace GatedQuery

open Position

variable {s : String}

/-- A place of the tokens of a text is a true place of the text. -/
theorem trueOf_of_mem_places {ts : Tokens} (h : tokens s = .ok ts) {p : Position}
    (hp : p ∈ ts.places) : p.TrueOf s.toList := by
  obtain ⟨t, ht, rfl⟩ := List.mem_map.mp hp
  exact trueOf_of_tokens h ht

/-- Of two places of tokens in order, the first has the smaller offset. -/
theorem offset_lt_of_sublist {ts : Tokens} (h : tokens s = .ok ts) {p q : Position}
    (hBoth : [p, q].Sublist ts.places) : p.offset < q.offset := by
  have hIncreasing : ts.places.Pairwise fun p q => p.offset < q.offset :=
    List.pairwise_map.mpr (tokens_increasing h)
  exact List.rel_of_pairwise_cons (hIncreasing.sublist hBoth) List.mem_cons_self

/-- The places of a query that is read. -/
theorem trueOf_of_ofText {q : Query} (h : Query.ofText s = .ok q) :
    ∀ p ∈ q.places, p.TrueOf s.toList := by
  obtain ⟨ts, hTokens, hDerived, _⟩ := exists_tokens_of_ofText h
  intro p hp
  exact trueOf_of_mem_places hTokens (mem_places_of_isQuery hDerived hp)

/-- The places of what is wrong with a query are true of its text. A repeated key comes after the one
that it repeats. -/
structure QueryError.TrueOf (text : List Char) (e : QueryError) : Prop where
  position : e.position.TrueOf text
  first : ∀ key p first, e = .duplicateKey key p first →
    first.TrueOf text ∧ first.offset < p.offset

/-- A query is refused at true places of its text. -/
theorem trueOf_of_queryError {e : QueryError} (h : Query.ofText s = .error e) :
    e.TrueOf s.toList := by
  cases hTokens : tokens s with
  | error e' =>
      rw [Query.ofText, hTokens] at h
      cases h
      exact ⟨trueOf_of_scanError hTokens, by simp⟩
  | ok ts =>
      obtain ⟨_, hEnded⟩ := tokens_ok hTokens
      rw [ofText_of_tokens hTokens] at h
      obtain ⟨hPlace, hFirst⟩ := within_of_readQuery hEnded h
      refine ⟨trueOf_of_mem_places hTokens hPlace, fun key p first he => ?_⟩
      have hBoth := hFirst key p first he
      exact ⟨trueOf_of_mem_places hTokens (hBoth.subset List.mem_cons_self),
        offset_lt_of_sublist hTokens hBoth⟩

/-- A query fails at a true place of its text, as every step stands at one of the tokens. -/
theorem trueOf_of_resolutionError {O : Type} [Backend O] {a : AllowList O} {q : Query}
    (hQuery : Query.ofText s = .ok q) {e : ResolutionError} (h : (solve a q).outcome = .error e) :
    e.position.TrueOf s.toList :=
  trueOf_of_ofText hQuery _ (solve_failure h).mem_places

/-- Every place that is reported is true of the text: its offset, line and column count the characters
before it, and there a token begins, or text that is no token, or the input ends. This holds of the
tokens of a text, which are further and further on; of all steps and resources of the query that it
is; of whatever is wrong with it, where a repeated key comes after the one that it repeats; and of
every failure of an execution, which always has a place. -/
theorem reported_places_true (s : String) :
    (∀ ts, tokens s = .ok ts → (∀ t ∈ ts, t.position.TrueOf s.toList) ∧
      ts.Pairwise fun t u => t.position.offset < u.position.offset) ∧
    (∀ q, Query.ofText s = .ok q → ∀ p ∈ q.places, p.TrueOf s.toList) ∧
    (∀ e, Query.ofText s = .error e → e.TrueOf s.toList) ∧
    ∀ (O : Type) [Backend O] (a : AllowList O) (e : ExecutionError),
      (execute a s).outcome = .error e → (∃ p, e.position? = some p ∧ p.TrueOf s.toList) ∧
        ∀ x, e = .query x → x.TrueOf s.toList := by
  refine ⟨fun ts h => ⟨fun t => trueOf_of_tokens h, tokens_increasing h⟩,
    fun q => trueOf_of_ofText, fun e => trueOf_of_queryError, ?_⟩
  intro O _ a e h
  cases hQuery : Query.ofText s with
  | error x =>
      rw [execute, hQuery] at h
      cases h
      have hTrue := trueOf_of_queryError hQuery
      refine ⟨⟨x.position, rfl, hTrue.position⟩, ?_⟩
      rintro _ ⟨⟩
      exact hTrue
  | ok q =>
      rw [execute_of_ofText hQuery] at h
      cases hOutcome : (solve a q).outcome with
      | ok v =>
          rw [hOutcome] at h
          cases h
      | error x =>
          rw [hOutcome] at h
          cases h
          exact ⟨⟨x.position, rfl, trueOf_of_resolutionError hQuery hOutcome⟩, by simp⟩

/-- A text that asks for the pin on its second line and again on its third. -/
def repeatedPin : String :=
  "Me \x7b\n pin,\n pin \x7d"

theorem reported_places_true_repeatedPin :
    ∃ key p first, Query.ofText repeatedPin = .error (.duplicateKey key p first) ∧
      p = ⟨12, 3, 2⟩ ∧ first = ⟨6, 2, 2⟩ ∧ p.TrueOf repeatedPin.toList ∧
      first.TrueOf repeatedPin.toList ∧ first.offset < p.offset := by
  have hRead : (match Query.ofText repeatedPin with
      | .error (.duplicateKey _ p first) => decide (p = ⟨12, 3, 2⟩ ∧ first = ⟨6, 2, 2⟩)
      | _ => false) = true := by decide +kernel
  split at hRead
  next key p first hError =>
    obtain ⟨hPlace, hFirst⟩ := of_decide_eq_true hRead
    obtain ⟨_, _, hTrue, _⟩ := reported_places_true repeatedPin
    have hProblem := hTrue _ hError
    exact ⟨key, p, first, hError, hPlace, hFirst, hProblem.position, hProblem.first key p first rfl⟩
  next => cases hRead

end GatedQuery
