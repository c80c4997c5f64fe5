import GatedQuery.Proofs.Canonical.Execution
import GatedQuery.Proofs.Grammar.Places
import GatedQuery.Proofs.Scanning.Places
import GatedQuery.Proofs.Secrecy.Solving
import GatedQuery.Proofs.Solve.Failures
import Mathlib.Data.List.Nodup

/-! What the public text of a failure reveals. It can be worked out from the text of the query, the kind
of the failure and its place, so it tells nothing else about the backend and the allow-list. -/

namespace GatedQuery

/-- Kinds of failures that whoever sent a query can tell apart. -/
inductive FailureKind where
  | unavailable
  | index
  | unresolvable
  | failed
deriving DecidableEq, Repr

/-- Whether something is denied, is missing or is no entry point does not matter for the kind. -/
def ResolutionError.kind : ResolutionError → FailureKind
  | unknownEntryPoint .. | notAllowed .. | memberNotFound .. => .unavailable
  | indexNotFound .. => .index
  | notSubscriptable .. | notIterable .. => .unresolvable
  | callFailed .. => .failed

def Step.index? : Step → Option Int64
  | .index i _ => some i
  | _ => none

namespace Query

def step? (q : Query) (p : Position) : Option Step :=
  q.steps.find? fun s => s.position == p

def nameAt (q : Query) (p : Position) : String :=
  ((q.step? p).bind Step.name?).getD ""

def indexAt (q : Query) (p : Position) : Int64 :=
  ((q.step? p).bind Step.index?).getD 0

/-- The public text of a failure of a kind at a place. -/
def publicText (q : Query) (kind : FailureKind) (p : Position) : String :=
  match kind with
  | .unavailable => "'" ++ q.nameAt p ++ "' is not available at " ++ p.text
  | .index => "index " ++ Text.decimal (q.indexAt p) ++ " is not available at " ++ p.text
  | .unresolvable => "value cannot be resolved at " ++ p.text
  | .failed => "'" ++ q.nameAt p ++ "' failed at " ++ p.text

end Query

/-- No two tokens of a text stand at one place. -/
theorem nodup_places {s : String} {ts : Tokens} (h : tokens s = .ok ts) : ts.places.Nodup := by
  rw [Tokens.places, List.Nodup, List.pairwise_map]
  refine (tokens_increasing h).imp ?_
  intro t u hBefore hSame
  rw [hSame] at hBefore
  exact Nat.lt_irrefl _ hBefore

/-- No two steps of a query that is read are at one place. -/
theorem nodup_stepPlaces {s : String} {q : Query} (h : Query.ofText s = .ok q) :
    (q.steps.map Step.position).Nodup := by
  obtain ⟨ts, hTokens, hDerived, _⟩ := exists_tokens_of_ofText h
  exact (stepPlaces_sublist hDerived).nodup (nodup_places hTokens)

namespace Query

variable {q : Query}

/-- A step is found by its place, as no other step stands there. -/
theorem step?_of_mem (distinct : (q.steps.map Step.position).Nodup) {s : Step} (h : s ∈ q.steps) :
    q.step? s.position = some s := by
  cases hFound : q.step? s.position with
  | none =>
      have hNone := List.find?_eq_none.mp hFound s h
      simp at hNone
  | some t =>
      have hPlace := List.find?_some hFound
      have hMem := List.mem_of_find?_eq_some hFound
      rw [List.inj_on_of_nodup_map distinct hMem h (eq_of_beq hPlace)]

/-- The name at the place of a step is the name of the step. -/
theorem nameAt_of_mem (distinct : (q.steps.map Step.position).Nodup) {s : Step} (h : s ∈ q.steps)
    {n : String} (name : s.name? = some n) : q.nameAt s.position = n := by
  rw [nameAt, step?_of_mem distinct h, Option.bind_some, name, Option.getD_some]

theorem indexAt_of_mem (distinct : (q.steps.map Step.position).Nodup) {i : Int64} {p : Position}
    (h : .index i p ∈ q.steps) : q.indexAt p = i := by
  have hStep := step?_of_mem distinct h
  rw [Step.position] at hStep
  rw [indexAt, hStep, Option.bind_some, Step.index?, Option.getD_some]

/-- The first step of a query names its entry point. -/
theorem WellFormed.entryPoint_name (h : q.WellFormed) {first : Step} {chain : List Step}
    (start : q.head.chain = first :: chain) : first.name? = some q.entryPoint := by
  obtain ⟨s, ss, hChain, hNamed⟩ := h.head.named
  obtain ⟨n, hName⟩ := Option.isSome_iff_exists.mp hNamed
  rw [start] at hChain
  obtain ⟨rfl, _⟩ := List.cons.inj hChain
  rw [entryPoint, start, List.head?_cons, Option.bind_some, hName, Option.getD_some]

end Query

variable {q : Query} {e : ResolutionError}

/-- A failure of a named step has a public message that its kind, its place and the query give. -/
theorem NamedFailure.publicMessage_eq {n : String} {p : Position} (h : NamedFailure n p e)
    (name : q.nameAt p = n) : e.publicMessage = q.publicText e.kind e.position := by
  subst name
  cases h <;> rfl

/-- The public text of a failure, for a query in which no two steps are at one place. -/
theorem Query.Failure.publicMessage_eq (h : q.Failure e) (wellFormed : q.WellFormed)
    (distinct : (q.steps.map Step.position).Nodup) :
    e.publicMessage = q.publicText e.kind e.position := by
  cases h with
  | entry start failure =>
      have hName := wellFormed.entryPoint_name start
      exact failure.publicMessage_eq
        (Query.nameAt_of_mem distinct (Query.first_mem_steps start) hName)
  | step mem failure =>
      cases failure with
      | named name failure =>
          exact failure.publicMessage_eq (Query.nameAt_of_mem distinct mem name)
      | index type index =>
          subst index
          show "index " ++ _ ++ _ ++ _ = "index " ++ _ ++ _ ++ _
          rw [ResolutionError.position, Query.indexAt_of_mem distinct mem]
      | subscript => rfl
  | list => rfl

/-- A failure to resolve, if that is how an execution ended. -/
def Execution.resolution? {O : Type} (x : Execution O) : Option ResolutionError :=
  match x.outcome with
  | .error (.resolution e) => some e
  | _ => none

theorem Execution.outcome_of_resolution? {O : Type} {x : Execution O}
    (h : x.resolution? = some e) : x.outcome = .error (.resolution e) := by
  unfold resolution? at h
  split at h
  next hOutcome =>
    cases h
    exact hOutcome
  next => cases h

/-- An execution that fails while resolving fails as its query can fail. -/
theorem failure_of_execute {O : Type} [Backend O] {a : AllowList O} {s : String}
    (hQuery : Query.ofText s = .ok q) (h : (execute a s).outcome = .error (.resolution e)) :
    q.Failure e := by
  rw [execute_of_ofText hQuery] at h
  cases hOutcome : (solve a q).outcome with
  | ok x =>
      rw [hOutcome] at h
      cases h
  | error e' =>
      rw [hOutcome] at h
      cases h
      exact solve_failure hOutcome

/-- The public text of a failure tells nothing but the query. It is a function of the query, of the kind
of the failure and of its place, whatever the backend and the allow-list are. So two runs that fail in
the same way at the same place give the same text, be it that what is named there is denied in one run
and missing in the other, and whatever the types, values and causes were. -/
theorem publicMessage_tells_query_alone {s : String} {q : Query} (h : Query.ofText s = .ok q) :
    (∀ (O : Type) [Backend O] (a : AllowList O) (e : ResolutionError),
      (execute a s).outcome = .error (.resolution e) →
        (ExecutionError.resolution e).publicMessage = q.publicText e.kind e.position) ∧
    ∀ (O P : Type) [Backend O] [Backend P] (a : AllowList O) (b : AllowList P)
      (e e' : ResolutionError), (execute a s).outcome = .error (.resolution e) →
        (execute b s).outcome = .error (.resolution e') → e.kind = e'.kind →
        e.position = e'.position →
          (ExecutionError.resolution e).publicMessage =
            (ExecutionError.resolution e').publicMessage := by
  have hText (O : Type) [Backend O] (a : AllowList O) (e : ResolutionError)
      (hFails : (execute a s).outcome = .error (.resolution e)) :
      (ExecutionError.resolution e).publicMessage = q.publicText e.kind e.position :=
    (failure_of_execute h hFails).publicMessage_eq (wellFormed_of_ofText h) (nodup_stepPlaces h)
  refine ⟨hText, ?_⟩
  intro O P _ _ a b e e' hFails hFails' hKind hPlace
  rw [hText O a e hFails, hText P b e' hFails', hKind, hPlace]

def pinOnly : AllowList Unit :=
  ⟨[⟨"Me", fun _ => .ok (.object ())⟩], [("Account", [("pin", .native)])]⟩

/-- A backend of an account that has no members at all. -/
abbrev emptyAccount : Backend Unit where
  typeName _ := "Account"

/-- A pin that is denied and a pin that is not there read the same. -/
theorem publicMessage_tells_query_alone_pin :
    ∃ q e e', Query.ofText "Me \x7b pin \x7d" = .ok q ∧
      (@execute Unit (Secrecy.account "1234") Secrecy.ownerOnly "Me \x7b pin \x7d").outcome =
        .error (.resolution e) ∧
      (@execute Unit emptyAccount pinOnly "Me \x7b pin \x7d").outcome = .error (.resolution e') ∧
      e ≠ e' ∧ e.kind = e'.kind ∧ e.position = e'.position ∧
      (ExecutionError.resolution e).publicMessage =
        (ExecutionError.resolution e').publicMessage := by
  have hDenied : (@execute Unit (Secrecy.account "1234") Secrecy.ownerOnly
      "Me \x7b pin \x7d").resolution? = some (.notAllowed "pin" "Account" ⟨5, 1, 6⟩) := by
    decide +kernel
  have hMissing : (@execute Unit emptyAccount pinOnly "Me \x7b pin \x7d").resolution? =
      some (.memberNotFound "pin" "Account" ⟨5, 1, 6⟩) := by
    decide +kernel
  have hRead : (Query.ofText "Me \x7b pin \x7d").isOk = true := by decide +kernel
  obtain ⟨q, hQuery⟩ : ∃ q, Query.ofText "Me \x7b pin \x7d" = .ok q := by
    cases hQuery : Query.ofText "Me \x7b pin \x7d" with
    | ok q => exact ⟨q, rfl⟩
    | error e =>
        rw [hQuery] at hRead
        cases hRead
  have hFails := Execution.outcome_of_resolution? hDenied
  have hFails' := Execution.outcome_of_resolution? hMissing
  obtain ⟨_, hSame⟩ := publicMessage_tells_query_alone hQuery
  exact ⟨q, _, _, hQuery, hFails, hFails', nofun, rfl, rfl,
    @hSame Unit Unit (Secrecy.account "1234") emptyAccount Secrecy.ownerOnly pinOnly _ _ hFails
      hFails' rfl rfl⟩

end GatedQuery
