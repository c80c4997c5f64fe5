import GatedQuery.Proofs.Solve.Answers

/-! Rows and columns. A list with several resources in its body gives a row of results for every
element, and a list with a single one gives a column. The rows are the transpose of the columns, and
all of them are there or none is. -/

namespace GatedQuery

open Run

variable {α β γ : Type}

/-- The rows and the columns of one table. Every column has an entry for each row, and the row at a
place is made up of the entries of the columns at that place, in order. -/
structure IsTranspose (columns rows : List (List α)) : Prop where
  height : ∀ column ∈ columns, column.length = rows.length
  entries : ∀ (j : Nat) (row : List α), rows[j]? = some row →
    List.Forall₂ (fun column x => column[j]? = some x) columns row

section Tables

variable {R : β → α → γ → Prop} {xs : List α} {bs : List β}

theorem forall₂_getElem? {S : α → β → Prop} {ys : List β} (h : List.Forall₂ S xs ys) {j : Nat} {y : β}
    (hy : ys[j]? = some y) : ∃ x, xs[j]? = some x ∧ S x y := by
  induction h generalizing j with
  | nil => cases hy
  | @cons x _ _ _ head _ ih =>
      cases j with
      | zero =>
          cases hy
          exact ⟨x, rfl, head⟩
      | succ j => exact ih hy

/-- Two lists that belong to the same third one, item by item. -/
theorem forall₂_of_common {P : β → α → Prop} {Q : β → γ → Prop} {S : α → γ → Prop} {zs : List γ}
    (hFirst : List.Forall₂ P bs xs) (hSecond : List.Forall₂ Q bs zs)
    (h : ∀ b x z, P b x → Q b z → S x z) : List.Forall₂ S xs zs := by
  induction hFirst generalizing zs with
  | nil =>
      cases hSecond
      exact .nil
  | cons hx _ ih =>
      cases hSecond with
      | cons hz hMore => exact .cons (h _ _ _ hx hz) (ih hMore)

/-- A table that is filled in row by row is the transpose of the one that is filled in column by
column, if there is only one way to fill in each place. -/
theorem isTranspose_of_forall₂ (unique : ∀ b x y z, R b x y → R b x z → y = z)
    {rows columns : List (List γ)}
    (hRows : List.Forall₂ (fun x row => List.Forall₂ (fun b y => R b x y) bs row) xs rows)
    (hColumns : List.Forall₂ (fun b column => List.Forall₂ (fun x y => R b x y) xs column) bs columns) :
    IsTranspose columns rows := by
  refine ⟨?_, fun j row hRow => ?_⟩
  · intro column hColumn
    obtain ⟨j, hj⟩ := List.mem_iff_getElem?.mp hColumn
    obtain ⟨b, _, hEntries⟩ := forall₂_getElem? hColumns hj
    exact hEntries.length_eq.symm.trans hRows.length_eq
  · obtain ⟨x, hx, hEntries⟩ := forall₂_getElem? hRows hRow
    refine forall₂_of_common hColumns hEntries fun b column y hColumn hy => ?_
    obtain ⟨z, hz, hEntry⟩ := forall₂_getElem? (List.Forall₂.flip hColumn) hx
    rw [hz, unique b x z y hEntry hy]

end Tables

variable {O : Type}

def Run.Succeeds (r : Run O α) : Prop :=
  ∃ x, r.outcome = .ok x

namespace Run

theorem succeeds_pure (x : α) : (pure x : Run O α).Succeeds :=
  ⟨x, rfl⟩

/-- A sequence of runs succeeds if both parts do. -/
theorem succeeds_bind_iff {r : Run O α} {f : α → Run O β} :
    (r >>= f).Succeeds ↔ ∃ x, r.outcome = .ok x ∧ (f x).Succeeds := by
  simp only [Succeeds, bind_ok_iff]
  rw [exists_comm]
  simp only [exists_and_left]

/-- Going on with nothing but the result. -/
theorem succeeds_map_iff {r : Run O α} {g : α → β} :
    (r >>= fun x => pure (g x)).Succeeds ↔ r.Succeeds := by
  rw [succeeds_bind_iff]
  exact exists_congr fun x => and_iff_left (succeeds_pure (g x))

/-- A run for each of some items succeeds exactly if it does so at every item. -/
theorem each_succeeds_iff {f : α → Run O β} {xs : List α} :
    (each f xs).Succeeds ↔ ∀ x ∈ xs, (f x).Succeeds := by
  induction xs with
  | nil => exact ⟨fun _ => nofun, fun _ => succeeds_pure []⟩
  | cons x xs ih =>
      rw [each, succeeds_bind_iff, List.forall_mem_cons, ← ih]
      simp only [succeeds_map_iff]
      exact exists_and_right

end Run

variable [Backend O] {a : AllowList O} {h : Head} {body : List Resource} {v w : Value O}
  {items : List (Value O)}

/-- Resources are all resolved if each of them is. -/
theorem resolveAll_succeeds_iff {rs : List Resource} :
    (resolveAll a rs v).Succeeds ↔ ∀ r ∈ rs, (resolve a r v).Succeeds := by
  rw [resolveAll_eq_each, each_succeeds_iff]

/-- Whether there is one resource or any other number of them, each has to succeed. -/
theorem resolveBody_succeeds_iff :
    (resolveBody a body v).Succeeds ↔ ∀ r ∈ body, (resolve a r v).Succeeds := by
  by_cases several : body.length ≠ 1
  · rw [resolveBody_of_several several, succeeds_map_iff, resolveAll_succeeds_iff]
  · obtain ⟨r, rfl⟩ := List.length_eq_one_iff.mp (not_not.mp several)
    rw [resolveBody_singleton, List.forall_mem_singleton]

/-- A list succeeds exactly if the end of its chain can be iterated and each of its resources succeeds
at each of the elements. -/
theorem resolve_list_succeeds_iff :
    (resolve a (.list h body) v).Succeeds ↔ ∃ w items, Reaches a h.chain v w ∧
      w.elements = some items ∧ ∀ item ∈ items, ∀ r ∈ body, (resolve a r item).Succeeds := by
  rw [resolve, succeeds_bind_iff]
  refine exists_congr fun w => ?_
  rw [succeeds_bind_iff, exists_and_left]
  refine and_congr_right fun _ => exists_congr fun items => ?_
  rw [iterate_ok_iff, succeeds_map_iff, each_succeeds_iff]
  simp only [resolveBody_succeeds_iff]

/-- Several resources succeed together exactly if each of them does alone. -/
theorem resolve_list_succeeds_iff_forall (some : body ≠ []) :
    (resolve a (.list h body) v).Succeeds ↔ ∀ r ∈ body, (resolve a (.list h [r]) v).Succeeds := by
  simp only [resolve_list_succeeds_iff, List.forall_mem_singleton]
  constructor
  · rintro ⟨w, items, reaches, elements, hEach⟩ r hr
    exact ⟨w, items, reaches, elements, fun item hItem => hEach item hItem r hr⟩
  · intro hAlone
    obtain ⟨first, hFirst⟩ := List.exists_mem_of_ne_nil body some
    obtain ⟨w, items, reaches, elements, _⟩ := hAlone first hFirst
    refine ⟨w, items, reaches, elements, fun item hItem r hr => ?_⟩
    -- The chain leads every one of them to the same elements.
    obtain ⟨w', items', reaches', elements', hEach⟩ := hAlone r hr
    cases reaches.symm.trans reaches'
    cases elements.symm.trans elements'
    exact hEach item hItem

/-- A list resource has one result for each item of what its chain leads to. -/
theorem exists_results {x : Value O} (hx : (resolve a (.list h body) v).outcome = .ok x)
    (reaches : Reaches a h.chain v w) (elements : w.elements = some items) :
    ∃ results, x = .list results ∧
      List.Forall₂ (fun item y => (resolveBody a body item).outcome = .ok y) items results := by
  obtain ⟨w', items', results, reaches', elements', rfl, hEach⟩ := resolve_list_ok hx
  cases reaches.symm.trans reaches'
  cases elements.symm.trans elements'
  exact ⟨results, rfl, hEach⟩

/-- The columns that lists with a single resource each give. -/
theorem exists_columns {xs : List (Value O)} (reaches : Reaches a h.chain v w)
    (elements : w.elements = some items)
    (hxs : List.Forall₂ (fun r y => (resolve a (.list h [r]) v).outcome = .ok y) body xs) :
    ∃ columns : List (List (Value O)), xs = columns.map .list ∧
      List.Forall₂ (fun r column =>
        List.Forall₂ (fun item y => (resolve a r item).outcome = .ok y) items column) body columns := by
  induction hxs with
  | nil => exact ⟨[], rfl, .nil⟩
  | cons head _ ih =>
      obtain ⟨columns, rfl, hColumns⟩ := ih
      obtain ⟨column, rfl, hColumn⟩ := exists_results head reaches elements
      simp only [resolveBody_singleton] at hColumn
      exact ⟨column :: columns, rfl, .cons hColumn hColumns⟩

/-- A list with several resources in its body is the transpose of the lists that have one of them each.
It succeeds exactly if all of these do. Then the end of the chain has some number of elements, whatever
kind of value it is, each of the lists has that many entries, and the entry of the whole list at a place
is the list of the entries of the others at that place, in the order of the body. -/
theorem list_transposes (a : AllowList O) (h : Head) {body : List Resource}
    (several : 2 ≤ body.length) (v : Value O) :
    ((resolve a (.list h body) v).Succeeds ↔ ∀ r ∈ body, (resolve a (.list h [r]) v).Succeeds) ∧
      ∀ x xs, (resolve a (.list h body) v).outcome = .ok x →
        List.Forall₂ (fun r y => (resolve a (.list h [r]) v).outcome = .ok y) body xs →
        ∃ w items, Reaches a h.chain v w ∧ w.Iterates items ∧
          ∃ rows columns, x = .list (rows.map .list) ∧ xs = columns.map .list ∧
            rows.length = items.length ∧ IsTranspose columns rows := by
  have hSome : body ≠ [] := List.ne_nil_of_length_pos (Nat.zero_lt_of_lt several)
  refine ⟨resolve_list_succeeds_iff_forall hSome, fun x xs hx hxs => ?_⟩
  obtain ⟨w, items, reaches, elements, _⟩ := resolve_list_succeeds_iff.mp ⟨x, hx⟩
  obtain ⟨results, rfl, hResults⟩ := exists_results hx reaches elements
  obtain ⟨rows, rfl, hRows⟩ := exists_rows (Nat.ne_of_gt several) hResults
  obtain ⟨columns, rfl, hColumns⟩ := exists_columns reaches elements hxs
  refine ⟨w, items, reaches, iterates_of_elements elements, rows, columns, rfl, rfl,
    hRows.length_eq.symm, isTranspose_of_forall₂ ?_ hRows hColumns⟩
  intro r item y z hy hz
  exact Except.ok.inj (hy.symm.trans hz)

def boardTasksHead : Head :=
  ⟨none, [.member "tasks" .start], .start⟩

/-- The number of a task, once alone and once in an object. -/
def taskNumbers : List Resource :=
  [.field ⟨none, [.member "id" .start], .start⟩,
    .object ⟨none, [], .start⟩ [.field ⟨none, [.member "id" .start], .start⟩]]

def twoTasks : Value DocumentObject :=
  .map [("tasks", .list [.map [("id", .integer 7)], .map [("id", .integer 8)]])]

theorem list_transposes_twoTasks :
    2 ≤ taskNumbers.length ∧
      ∃ rows columns : List (List (Value DocumentObject)),
        (resolve oneBoard (.list boardTasksHead taskNumbers) twoTasks).outcome =
          .ok (.list (rows.map .list)) ∧
        List.Forall₂ (fun r y => (resolve oneBoard (.list boardTasksHead [r]) twoTasks).outcome = .ok y)
          taskNumbers (columns.map .list) ∧
        rows.length = 2 ∧ IsTranspose columns rows := by
  have hSeveral : 2 ≤ taskNumbers.length := Nat.le_refl 2
  have hRows : (resolve oneBoard (.list boardTasksHead taskNumbers) twoTasks).outcome =
      .ok (.list [.list [.integer 7, .map [("id", .integer 7)]],
        .list [.integer 8, .map [("id", .integer 8)]]]) := rfl
  have hColumns : List.Forall₂
      (fun r y => (resolve oneBoard (.list boardTasksHead [r]) twoTasks).outcome = .ok y) taskNumbers
      [.list [.integer 7, .integer 8],
        .list [.map [("id", .integer 7)], .map [("id", .integer 8)]]] :=
    .cons rfl (.cons rfl .nil)
  obtain ⟨_, hTable⟩ := list_transposes oneBoard boardTasksHead hSeveral twoTasks
  obtain ⟨_, _, _, _, rows, columns, hx, hxs, _, hTranspose⟩ := hTable _ _ hRows hColumns
  have hLength : rows.length = 2 :=
    (List.length_map Value.list).symm.trans (congrArg List.length (Value.list.inj hx).symm)
  rw [hx] at hRows
  rw [hxs] at hColumns
  exact ⟨hSeveral, rows, columns, hRows, hColumns, hLength, hTranspose⟩

end GatedQuery
