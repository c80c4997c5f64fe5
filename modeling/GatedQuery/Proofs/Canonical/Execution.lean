import GatedQuery.Document.Record
import GatedQuery.Proofs.Canonical.Derived
import GatedQuery.Proofs.Canonical.RoundTrip
import GatedQuery.Proofs.Solve.Places

/-! Executing a text and executing the canonical text of the query that it is. -/

namespace GatedQuery

variable {O : Type} [Backend O]

/-- The failure without the place at which the query could not be resolved. -/
def ExecutionError.unplaced : ExecutionError → ExecutionError
  | .resolution e => .resolution e.unplaced
  | e => e

/-- A text that is a query splits into tokens from which the query derives. -/
theorem exists_tokens_of_ofText {s : String} {q : Query} (h : Query.ofText s = .ok q) :
    ∃ ts, tokens s = .ok ts ∧ Grammar.IsQuery ts q ∧ q.Admissible := by
  cases hTokens : tokens s with
  | error e =>
      rw [Query.ofText, hTokens] at h
      cases h
  | ok ts =>
      obtain ⟨_, hEnded⟩ := tokens_ok hTokens
      rw [ofText_of_tokens hTokens] at h
      obtain ⟨hDerived, hAdmissible⟩ := Reading.isQuery_of_reads hEnded (Prod.ext h rfl)
      exact ⟨ts, rfl, hDerived, hAdmissible⟩

/-- Whatever is read can be written. -/
theorem wellFormed_of_ofText {s : String} {q : Query} (h : Query.ofText s = .ok q) :
    q.WellFormed := by
  obtain ⟨ts, hTokens, hDerived, hAdmissible⟩ := exists_tokens_of_ofText h
  exact hDerived.wellFormed hAdmissible (tokens_ok hTokens).1

/-- An execution resolves the query that the text is read as. -/
theorem execute_of_ofText {s : String} {q : Query} (h : Query.ofText s = .ok q) (a : AllowList O) :
    execute a s = ⟨(solve a q).accesses, (solve a q).outcome.mapError .resolution⟩ := by
  rw [execute, h]

/-- Queries that differ in places only make the same accesses, and their failures differ in places
only. -/
theorem solve_congr (a : AllowList O) {q q' : Query} (h : q'.unplaced = q.unplaced) :
    (solve a q').unplaced = (solve a q).unplaced := by
  rw [solve_unplaced, solve_unplaced, h]

/-- It does not matter whether the places of a failure are dropped before or after it is told as one
of an execution. -/
theorem unplaced_resolution {α : Type} (outcome : Except ResolutionError α) :
    (outcome.mapError ExecutionError.resolution).mapError ExecutionError.unplaced =
      (outcome.mapError ResolutionError.unplaced).mapError .resolution := by
  cases outcome <;> rfl

/-- Executing the canonical text of a query does what executing its own text does. Both make the
same accesses in the same order, and they end with the same value or with failures that differ in
their places only. -/
theorem execute_canonical {s : String} {q : Query} (h : Query.ofText s = .ok q)
    (hText : ∀ v ∈ q.literals, v.ReadsBack) (a : AllowList O) :
    (execute a q.canonical).accesses = (execute a s).accesses ∧
      (execute a q.canonical).outcome.mapError ExecutionError.unplaced =
        (execute a s).outcome.mapError ExecutionError.unplaced := by
  have hWellFormed := wellFormed_of_ofText h
  obtain ⟨q', hCanonical, hUnplaced⟩ :=
    ofText_of_scans hWellFormed (scans_canonical hWellFormed hText)
  have hSolve := solve_congr a hUnplaced
  rw [execute_of_ofText h, execute_of_ofText hCanonical]
  constructor
  · have hAccesses := congrArg Run.accesses hSolve
    exact hAccesses
  · have hOutcome := congrArg Run.outcome hSolve
    rw [unplaced_resolution, unplaced_resolution]
    exact congrArg (Except.mapError ExecutionError.resolution) hOutcome

/-- A text of a query about the first task of a board, in a layout of its own. -/
def firstTask : String :=
  "Board(limit = 2.5,)\n\x7b first : tasks . 0 \x7b id , \x7d \x7d"

/-- Whether a literal is the limit of `firstTask`. -/
def isLimit : Literal → Bool
  | .float x => decide (x = 2.5)
  | _ => false

theorem readsBack_of_isLimit {v : Literal} (h : isLimit v = true) : v.ReadsBack := by
  cases v with
  | float x =>
      obtain rfl := of_decide_eq_true h
      exact readsBack_twoAndAHalf
  | _ => trivial

theorem firstTask_read :
    ∃ q, Query.ofText firstTask = .ok q ∧ ∀ v ∈ q.literals, v.ReadsBack := by
  have hRead : (match Query.ofText firstTask with
      | .ok q => q.literals.all isLimit
      | .error _ => false) = true := by decide +kernel
  cases hQuery : Query.ofText firstTask with
  | error e =>
      rw [hQuery] at hRead
      cases hRead
  | ok q =>
      rw [hQuery] at hRead
      exact ⟨q, rfl, fun v hv => readsBack_of_isLimit (List.all_eq_true.mp hRead v hv)⟩

/-- An allow-list that lets queries see the tasks of a board with one task. -/
def oneBoard : AllowList DocumentObject where
  entries := [⟨"Board", fun _ => .ok (.map [("tasks", .list [.map [("id", .integer 7)]])])⟩]
  types := [("map", [("tasks", .native), ("id", .native)])]

theorem execute_canonical_firstTask :
    ∃ q, Query.ofText firstTask = .ok q ∧ (∀ v ∈ q.literals, v.ReadsBack) ∧
      (execute oneBoard q.canonical).accesses = (execute oneBoard firstTask).accesses ∧
      (execute oneBoard q.canonical).outcome.mapError ExecutionError.unplaced =
        (execute oneBoard firstTask).outcome.mapError ExecutionError.unplaced := by
  obtain ⟨q, hQuery, hText⟩ := firstTask_read
  exact ⟨q, hQuery, hText, execute_canonical hQuery hText oneBoard⟩

end GatedQuery
