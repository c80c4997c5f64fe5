import GatedQuery.Proofs.Outcome
import GatedQuery.Solve.Resolve

/-! Runs and their parts. A run that succeeds is made of parts that succeed, and a run that fails makes
the accesses of its parts up to the first failure. -/

namespace GatedQuery

variable {O α β γ : Type}

namespace Run

variable {r : Run O α} {f : α → Run O β}

/-- After a result, the accesses of the second part follow those of the first. -/
theorem bind_of_ok {x : α} (h : r.outcome = .ok x) (f : α → Run O β) :
    r >>= f = ⟨r.accesses ++ (f x).accesses, (f x).outcome⟩ := by
  obtain ⟨accesses, outcome⟩ := r
  obtain rfl : outcome = .ok x := h
  rfl

/-- After a failure, nothing else is accessed. -/
theorem bind_of_error {e : ResolutionError} (h : r.outcome = .error e) (f : α → Run O β) :
    r >>= f = ⟨r.accesses, .error e⟩ := by
  obtain ⟨accesses, outcome⟩ := r
  obtain rfl : outcome = .error e := h
  rfl

theorem andThen_done (r : Run O α) : r.andThen done = r := by
  obtain ⟨accesses, outcome⟩ := r
  cases outcome with
  | ok x => exact congrArg (Run.mk · (.ok x)) (List.append_nil accesses)
  | error e => rfl

/-- Accesses are noted in order, however the parts are grouped. -/
theorem andThen_assoc (r : Run O α) (f : α → Run O β) (g : β → Run O γ) :
    (r >>= f) >>= g = r >>= fun x => f x >>= g := by
  cases hFirst : r.outcome with
  | error e => rw [bind_of_error hFirst, bind_of_error hFirst, bind_of_error rfl]
  | ok x =>
      rw [bind_of_ok hFirst, bind_of_ok hFirst]
      cases hSecond : (f x).outcome with
      | error e => rw [bind_of_error hSecond, bind_of_error rfl]
      | ok y =>
          rw [bind_of_ok hSecond, bind_of_ok (x := y) rfl]
          exact congrArg (Run.mk · (g y).outcome) (List.append_assoc ..)

instance : LawfulMonad (Run O) :=
  LawfulMonad.mk' (Run O) andThen_done (fun _ _ => rfl) andThen_assoc

theorem bind_ok_iff {y : β} :
    (r >>= f).outcome = .ok y ↔ ∃ x, r.outcome = .ok x ∧ (f x).outcome = .ok y := by
  cases hFirst : r.outcome with
  | ok x =>
      rw [bind_of_ok hFirst]
      refine ⟨fun h => ⟨x, rfl, h⟩, ?_⟩
      rintro ⟨y, hSame, h⟩
      cases hSame
      exact h
  | error e =>
      rw [bind_of_error hFirst]
      exact ⟨nofun, nofun⟩

/-- A sequence of runs that succeeds can be taken apart. -/
theorem exists_of_bind_ok {y : β} (h : (r >>= f).outcome = .ok y) :
    ∃ x, r.outcome = .ok x ∧ (f x).outcome = .ok y :=
  bind_ok_iff.mp h

/-- A run for each of some items that succeeds does so at every item. -/
theorem each_ok {xs : List α} {ys : List β} (h : (each f xs).outcome = .ok ys) :
    List.Forall₂ (fun x y => (f x).outcome = .ok y) xs ys := by
  induction xs generalizing ys with
  | nil =>
      cases h
      exact .nil
  | cons x xs ih =>
      obtain ⟨y, hFirst, h⟩ := exists_of_bind_ok h
      obtain ⟨ys, hMore, h⟩ := exists_of_bind_ok h
      cases h
      exact .cons hFirst (ih hMore)

end Run

open Run

variable {a : AllowList O}

/-- A query is entered by its own entry point, with the arguments that it writes. -/
theorem enter_ok {q : Query} {position : Position} {v : Value O}
    (h : (enter a q position).outcome = .ok v) :
    ∃ e, a.entryPoint? q.entryPoint = some e ∧ e.enter (.ofQuery q.entryArguments) = .ok v := by
  unfold enter at h
  split at h
  next => cases h
  next e hFound => exact ⟨e, hFound, Outcome.mapError_ok h⟩

variable [Backend O] {v : Value O}

/-- Resources are resolved one after another against the same value. -/
theorem resolveAll_eq_each (a : AllowList O) (rs : List Resource) (v : Value O) :
    resolveAll a rs v = each (fun r => resolve a r v) rs := by
  induction rs with
  | nil =>
      rw [resolveAll]
      rfl
  | cons r rs ih =>
      rw [resolveAll, ih]
      rfl

/-- Children are resolved one after another, each under its key. -/
theorem resolveChildren_eq_each (a : AllowList O) (rs : List Resource) (v : Value O) :
    resolveChildren a rs v =
      each (fun r => resolve a r v >>= fun x => pure (r.key?.getD "", x)) rs := by
  induction rs with
  | nil =>
      rw [resolveChildren]
      rfl
  | cons r rs ih =>
      simp only [resolveChildren, ih, each, bind_assoc, pure_bind]

theorem resolveAll_ok {rs : List Resource} {xs : List (Value O)}
    (h : (resolveAll a rs v).outcome = .ok xs) :
    List.Forall₂ (fun r x => (resolve a r v).outcome = .ok x) rs xs := by
  rw [resolveAll_eq_each] at h
  exact each_ok h

/-- Each entry of the result is a child's, under its key. -/
theorem resolveChildren_ok {rs : List Resource} {entries : List (String × Value O)}
    (h : (resolveChildren a rs v).outcome = .ok entries) :
    List.Forall₂ (fun r e => e.1 = r.key?.getD "" ∧ (resolve a r v).outcome = .ok e.2) rs
      entries := by
  rw [resolveChildren_eq_each] at h
  refine (each_ok h).imp fun r entry hEntry => ?_
  obtain ⟨x, hFirst, hEntry⟩ := exists_of_bind_ok hEntry
  cases hEntry
  exact ⟨rfl, hFirst⟩

theorem resolveBody_singleton (r : Resource) (v : Value O) :
    resolveBody a [r] v = resolve a r v := by
  rw [resolveBody]

/-- A body of several resources gives a list of their results, and one of a single resource its
result. -/
theorem resolveBody_of_several {body : List Resource} (several : body.length ≠ 1) (v : Value O) :
    resolveBody a body v = (do
      let results ← resolveAll a body v
      return .list results) := by
  match body with
  | [] => rw [resolveBody, resolveAll, pure_bind]
  | [_] => exact absurd rfl several
  | r :: s :: rs =>
      rw [resolveBody]
      simp only [resolveAll, bind_assoc, pure_bind]

/-- One resource gives its own result. Any other number of them gives the list of theirs. -/
theorem resolveBody_ok {body : List Resource} {x : Value O}
    (h : (resolveBody a body v).outcome = .ok x) :
    (∃ r, body = [r] ∧ (resolve a r v).outcome = .ok x) ∨
      (body.length ≠ 1 ∧ ∃ xs, x = .list xs ∧
        List.Forall₂ (fun r y => (resolve a r v).outcome = .ok y) body xs) := by
  by_cases several : body.length ≠ 1
  · rw [resolveBody_of_several several] at h
    obtain ⟨xs, hResults, h⟩ := exists_of_bind_ok h
    cases h
    exact .inr ⟨several, xs, rfl, resolveAll_ok hResults⟩
  · obtain ⟨r, rfl⟩ := List.length_eq_one_iff.mp (not_not.mp several)
    rw [resolveBody_singleton] at h
    exact .inl ⟨r, rfl, h⟩

/-- A list resource goes through exactly what the value lists. -/
theorem iterate_ok_iff {position : Position} {items : List (Value O)} :
    (iterate position v).outcome = .ok items ↔ v.elements = some items := by
  rw [iterate]
  cases v.elements with
  | none => exact ⟨nofun, nofun⟩
  | some found =>
      change Except.ok found = Except.ok items ↔ _
      rw [Except.ok.injEq, Option.some.injEq]

/-- A list that is resolved has a result for every element of the value that its chain leads to. -/
theorem resolve_list_ok {h : Head} {body : List Resource} {x : Value O}
    (hx : (resolve a (.list h body) v).outcome = .ok x) :
    ∃ w items results, (follow a h.chain v).outcome = .ok w ∧ w.elements = some items ∧
      x = .list results ∧
      List.Forall₂ (fun item y => (resolveBody a body item).outcome = .ok y) items results := by
  rw [resolve] at hx
  obtain ⟨w, hFollow, hx⟩ := exists_of_bind_ok hx
  obtain ⟨items, hItems, hx⟩ := exists_of_bind_ok hx
  obtain ⟨results, hResults, hx⟩ := exists_of_bind_ok hx
  cases hx
  exact ⟨w, items, results, hFollow, iterate_ok_iff.mp hItems, rfl, each_ok hResults⟩

end GatedQuery
