import GatedQuery.Proofs.Canonical.Execution
import GatedQuery.Proofs.Query.Nodes
import GatedQuery.Proofs.Solve.Runs

/-! The shape of an answer. An object gives a map with one entry for each of its children, a list gives
a list with one entry for each element, and a field gives plain data. No object of a backend stands
in an answer. -/

namespace GatedQuery

open Run

variable {O : Type}

/-- An object stands in a value, at any depth. -/
inductive Value.Holds (o : O) : Value O → Prop where
  | here : Holds o (.object o)
  | item {items : List (Value O)} {v : Value O} (mem : v ∈ items) (inner : Holds o v) :
      Holds o (.list items)
  | entry {entries : List (String × Value O)} {e : String × Value O} (mem : e ∈ entries)
      (inner : Holds o e.2) : Holds o (.map entries)

/-- What holds of the second components of paired lists, if the first list is long enough. -/
theorem forall_mem_of_zip {α β : Type} {Q : β → Prop} {xs : List α} {ys : List β}
    (length : ys.length = xs.length) (h : ∀ p ∈ xs.zip ys, Q p.2) : ∀ y ∈ ys, Q y := by
  intro y hy
  rw [← List.map_snd_zip (Nat.le_of_eq length)] at hy
  obtain ⟨p, hp, rfl⟩ := List.mem_map.mp hy
  exact h p hp

/-- An answer has an entry for each child. -/
theorem length_of_keys {children : List Resource} {entries : List (String × Value O)}
    (keys : entries.map Prod.fst = Resource.keys children) : entries.length = children.length := by
  rw [← List.length_map Prod.fst, keys, Resource.keys, List.length_map]

/-- A map whose entries hold no object. -/
theorem not_holds_map {o : O} {entries : List (String × Value O)}
    (h : ∀ e ∈ entries, ¬ e.2.Holds o) : ¬ (Value.map entries).Holds o := by
  rintro (_ | _ | ⟨mem, inner⟩)
  exact h _ mem inner

theorem not_holds_list {o : O} {items : List (Value O)} (h : ∀ v ∈ items, ¬ v.Holds o) :
    ¬ (Value.list items).Holds o := by
  rintro (_ | ⟨mem, inner⟩)
  exact h _ mem inner

/-- The keys of an answer are those of the children, in order. -/
theorem keys_of_forall₂ {Q : Resource → Value O → Prop} {children : List Resource}
    {entries : List (String × Value O)}
    (h : List.Forall₂ (fun r e => e.1 = r.key?.getD "" ∧ Q r e.2) children entries) :
    entries.map Prod.fst = Resource.keys children := by
  induction h with
  | nil => rfl
  | cons head _ ih => rw [List.map_cons, head.1, ih, Resource.keys, Resource.keys, List.map_cons]

variable [Backend O]

/-- The elements of a value in their natural order: a map has its values, and a string has its
characters. -/
inductive Value.Iterates : Value O → List (Value O) → Prop where
  | null : Iterates .null []
  | list (items : List (Value O)) : Iterates (.list items) items
  | map (entries : List (String × Value O)) : Iterates (.map entries) (entries.map Prod.snd)
  | string (s : String) : Iterates (.string s) (s.toList.map fun c => .string c.toString)
  | object {o : O} {items : List (Value O)} (some : Backend.elements o = some items) :
      Iterates (.object o) items

/-- A chain leads from one value to another. -/
def Reaches (a : AllowList O) (chain : List Step) (v w : Value O) : Prop :=
  (follow a chain v).outcome = .ok w

/-- The answers to a resource at a value. The keys of the map of an object are those of its children,
and they have a property that can be asked for. -/
inductive Answers (a : AllowList O) (P : List String → Prop) :
    Resource → Value O → Value O → Prop where
  | field {h : Head} {v w : Value O} (reaches : Reaches a h.chain v w) :
      Answers a P (.field h) v w.plain
  | object {h : Head} {children : List Resource} {v w : Value O}
      {entries : List (String × Value O)} (reaches : Reaches a h.chain v w)
      (keys : entries.map Prod.fst = Resource.keys children) (distinct : P (entries.map Prod.fst))
      (parts : ∀ p ∈ children.zip entries, Answers a P p.1 w p.2.2) :
      Answers a P (.object h children) v (.map entries)
  /-- A list with a single resource in its body. -/
  | list {h : Head} {r : Resource} {v w : Value O} {items results : List (Value O)}
      (reaches : Reaches a h.chain v w) (iterates : w.Iterates items)
      (length : results.length = items.length)
      (parts : ∀ p ∈ items.zip results, Answers a P r p.1 p.2) :
      Answers a P (.list h [r]) v (.list results)
  /-- A list with any other number of resources in its body. Every element has a row of results. -/
  | rows {h : Head} {body : List Resource} {v w : Value O} {items : List (Value O)}
      {rows : List (List (Value O))} (several : body.length ≠ 1) (reaches : Reaches a h.chain v w)
      (iterates : w.Iterates items) (length : rows.length = items.length)
      (width : ∀ row ∈ rows, row.length = body.length)
      (parts : ∀ p ∈ items.zip rows, ∀ c ∈ body.zip p.2, Answers a P c.1 p.1 c.2) :
      Answers a P (.list h body) v (.list (rows.map .list))

/-- The value that the children of a query are resolved against. -/
inductive Roots (a : AllowList O) (q : Query) : Value O → Prop where
  | none (start : q.head.chain = []) : Roots a q .null
  | entered {first : Step} {chain : List Step} {e : EntryPoint O} {v w : Value O}
      (start : q.head.chain = first :: chain) (found : a.entryPoint? q.entryPoint = some e)
      (enters : e.enter (.ofQuery q.entryArguments) = .ok v) (reaches : Reaches a chain v w) :
      Roots a q w

/-- The answers to a query. -/
inductive Query.Answers (a : AllowList O) (P : List String → Prop) (q : Query) :
    Value O → Prop where
  | mk {root : Value O} {entries : List (String × Value O)} (roots : Roots a q root)
      (keys : entries.map Prod.fst = Resource.keys q.children) (distinct : P (entries.map Prod.fst))
      (parts : ∀ p ∈ q.children.zip entries, GatedQuery.Answers a P p.1 root p.2.2) :
      Query.Answers a P q (.map entries)

mutual

/-- Plain data holds no object at any depth. -/
theorem Value.not_holds_plain (o : O) : ∀ v : Value O, ¬ Holds o v.plain
  | .list items => by
      rintro (_ | ⟨mem, inner⟩)
      exact not_holds_plainItems o items _ mem inner
  | .map entries => by
      rintro (_ | _ | ⟨mem, inner⟩)
      exact not_holds_plainEntries o entries _ mem inner
  | .null | .boolean _ | .integer _ | .float _ | .string _ | .object _ => nofun

theorem Value.not_holds_plainItems (o : O) :
    ∀ items : List (Value O), ∀ v ∈ plainItems items, ¬ Holds o v
  | [] => nofun
  | v :: vs => List.forall_mem_cons.mpr ⟨not_holds_plain o v, not_holds_plainItems o vs⟩

theorem Value.not_holds_plainEntries (o : O) :
    ∀ entries : List (String × Value O), ∀ e ∈ plainEntries entries, ¬ Holds o e.2
  | [] => nofun
  | (_, v) :: es => List.forall_mem_cons.mpr ⟨not_holds_plain o v, not_holds_plainEntries o es⟩

end

variable {a : AllowList O} {P : List String → Prop}

/-- An answer holds no object, as fields are made plain and everything else is built of them. -/
theorem Answers.not_holds {r : Resource} {v x : Value O} (h : Answers a P r v x) (o : O) :
    ¬ x.Holds o := by
  induction h with
  | field => exact Value.not_holds_plain o _
  | object _ keys _ _ ih =>
      exact not_holds_map
        (forall_mem_of_zip (Q := fun e => ¬ e.2.Holds o) (length_of_keys keys) ih)
  | list _ _ length _ ih => exact not_holds_list (forall_mem_of_zip length ih)
  | rows _ _ _ length width _ ih =>
      refine not_holds_list (List.forall_mem_map.mpr fun row hRow => not_holds_list ?_)
      rw [← List.map_snd_zip (Nat.le_of_eq length)] at hRow
      obtain ⟨p, hp, rfl⟩ := List.mem_map.mp hRow
      refine forall_mem_of_zip (width p.2 ?_) (ih p hp)
      exact (List.of_mem_zip hp).2

theorem Query.Answers.not_holds {q : Query} {x : Value O} (h : q.Answers a P x) (o : O) :
    ¬ x.Holds o := by
  cases h with
  | mk _ keys _ parts =>
      exact not_holds_map (forall_mem_of_zip (Q := fun e => ¬ e.2.Holds o) (length_of_keys keys)
        fun p hp => (parts p hp).not_holds o)

/-- What the value lists are the items that a list resource goes through. -/
theorem iterates_of_elements {v : Value O} {items : List (Value O)}
    (h : v.elements = some items) : v.Iterates items := by
  cases v with
  | null =>
      cases h
      exact .null
  | list xs =>
      cases h
      exact .list _
  | map entries =>
      cases h
      exact .map entries
  | string s =>
      cases h
      exact .string s
  | object o => exact .object h
  | _ => cases h

/-- Rows of results, when the body of a list has any number of resources but one. -/
theorem exists_rows {body : List Resource} (several : body.length ≠ 1) {items : List (Value O)}
    {results : List (Value O)}
    (h : List.Forall₂ (fun item x => (resolveBody a body item).outcome = .ok x) items results) :
    ∃ rows : List (List (Value O)), results = rows.map .list ∧
      List.Forall₂ (fun item row =>
        List.Forall₂ (fun r y => (resolve a r item).outcome = .ok y) body row) items rows := by
  induction h with
  | nil => exact ⟨[], rfl, .nil⟩
  | cons head _ ih =>
      obtain ⟨rows, rfl, hRows⟩ := ih
      rcases resolveBody_ok head with ⟨r, rfl, _⟩ | ⟨_, row, rfl, hRow⟩
      · exact absurd rfl several
      · exact ⟨row :: rows, rfl, .cons hRow hRows⟩

/-- A resource that is resolved has an answer of its shape, and the keys of its objects have every
property that the keys of their children have. -/
theorem resolve_answers {r : Resource}
    (hP : ∀ h children, .object h children ∈ r.nodes → P (Resource.keys children)) {v x : Value O}
    (h : (resolve a r v).outcome = .ok x) : Answers a P r v x := by
  induction r using Resource.induct generalizing v x with
  | field head =>
      rw [resolve] at h
      obtain ⟨w, hReaches, h⟩ := exists_of_bind_ok h
      cases h
      exact .field hReaches
  | object head children ih =>
      rw [resolve] at h
      obtain ⟨w, hReaches, h⟩ := exists_of_bind_ok h
      obtain ⟨entries, hEntries, h⟩ := exists_of_bind_ok h
      cases h
      have hParts := resolveChildren_ok hEntries
      have hKeys := keys_of_forall₂ (Q := fun r x => (resolve a r w).outcome = .ok x) hParts
      refine .object hReaches hKeys (hKeys ▸ hP head children (Resource.mem_nodes_self _)) ?_
      intro p hp
      have hChild := (List.forall₂_iff_zip.mp hParts).2 hp
      have hr : p.1 ∈ children := (List.of_mem_zip hp).1
      exact ih p.1 hr (fun h cs hn => hP h cs (Resource.mem_nodes_object hr hn)) hChild.2
  | list head body ih =>
      obtain ⟨w, items, results, hReaches, hElements, rfl, hEach⟩ := resolve_list_ok h
      have hIterates := iterates_of_elements hElements
      have hAnswer {r : Resource} (hr : r ∈ body) {item y : Value O}
          (hy : (resolve a r item).outcome = .ok y) : Answers a P r item y :=
        ih r hr (fun h cs hn => hP h cs (Resource.mem_nodes_list hr hn)) hy
      by_cases several : body.length ≠ 1
      · obtain ⟨rows, rfl, hRows⟩ := exists_rows several hEach
        refine .rows several hReaches hIterates hRows.length_eq.symm ?_ ?_
        · exact forall_mem_of_zip (Q := fun row => row.length = body.length)
            hRows.length_eq.symm fun p hp =>
              ((List.forall₂_iff_zip.mp hRows).2 hp).length_eq.symm
        · intro p hp c hc
          have hRow := (List.forall₂_iff_zip.mp hRows).2 hp
          exact hAnswer (List.of_mem_zip hc).1 ((List.forall₂_iff_zip.mp hRow).2 hc)
      · obtain ⟨r, rfl⟩ := List.length_eq_one_iff.mp (not_not.mp several)
        refine .list hReaches hIterates hEach.length_eq.symm ?_
        intro p hp
        rcases resolveBody_ok ((List.forall₂_iff_zip.mp hEach).2 hp) with ⟨_, hBody, hx⟩ |
          ⟨hOther, _⟩
        · cases hBody
          exact hAnswer List.mem_cons_self hx
        · exact absurd rfl hOther

/-- What is left of a query once its root is known. -/
theorem query_answers {q : Query}
    (hP : ∀ h children, .object h children ∈ q.nodes → P (Resource.keys children))
    {root x : Value O} (roots : Roots a q root)
    (h : (resolveChildren a q.children root >>= fun entries =>
      pure (.map entries) : Run O (Value O)).outcome = .ok x) : q.Answers a P x := by
  obtain ⟨entries, hEntries, h⟩ := exists_of_bind_ok h
  cases h
  have hParts := resolveChildren_ok hEntries
  have hKeys := keys_of_forall₂ (Q := fun r x => (resolve a r root).outcome = .ok x) hParts
  refine .mk roots hKeys (hKeys ▸ hP q.head q.children (Resource.mem_nodes_self _)) ?_
  intro p hp
  have hChild := (List.forall₂_iff_zip.mp hParts).2 hp
  exact resolve_answers
    (fun h cs hn => hP h cs (Resource.mem_nodes_object (List.of_mem_zip hp).1 hn)) hChild.2

/-- What a query is answered with has the shape of the query, for any property that the keys of its
objects have. -/
theorem solve_answers {q : Query}
    (hP : ∀ h children, .object h children ∈ q.nodes → P (Resource.keys children)) {x : Value O}
    (h : (solve a q).outcome = .ok x) : q.Answers a P x := by
  unfold solve at h
  cases hChain : q.head.chain with
  | nil =>
      rw [hChain] at h
      exact query_answers hP (.none hChain) h
  | cons first chain =>
      rw [hChain] at h
      dsimp only at h
      obtain ⟨v, hEnter, h⟩ := exists_of_bind_ok h
      obtain ⟨root, hReaches, h⟩ := exists_of_bind_ok h
      obtain ⟨e, hFound, hEnters⟩ := enter_ok hEnter
      exact query_answers hP (.entered hChain hFound hEnters hReaches) h

/-- The children of a query that was read have distinct keys. -/
theorem nodup_keys_of_ofText {s : String} {q : Query} (h : Query.ofText s = .ok q) (head : Head)
    (children : List Resource) (hn : .object head children ∈ q.nodes) :
    (Resource.keys children).Nodup := by
  obtain ⟨_, hNode⟩ := (wellFormed_of_ofText h).root.nodes _ hn
  exact hNode.nodup_keys

/-- Every result has exactly the shape that is asked for and holds no object of a backend. This is so
of every resource and of every query, however they came about. If a query is read from a text, then
also no map that one of its objects gives has a key twice. -/
theorem results_have_shape (a : AllowList O) :
    (∀ r v x, (resolve a r v).outcome = .ok x →
      Answers a (fun _ => True) r v x ∧ ∀ o, ¬ x.Holds o) ∧
    (∀ q x, (solve a q).outcome = .ok x →
      q.Answers a (fun _ => True) x ∧ ∀ o, ¬ x.Holds o) ∧
    (∀ s q, Query.ofText s = .ok q →
      (∀ x, (solve a q).outcome = .ok x → q.Answers a List.Nodup x) ∧
      ∀ r ∈ q.nodes, ∀ v x, (resolve a r v).outcome = .ok x → Answers a List.Nodup r v x) := by
  refine ⟨?_, ?_, ?_⟩
  · intro r v x h
    have hAnswers : Answers a (fun _ => True) r v x := resolve_answers (fun _ _ _ => trivial) h
    exact ⟨hAnswers, hAnswers.not_holds⟩
  · intro q x h
    have hAnswers : q.Answers a (fun _ => True) x := solve_answers (fun _ _ _ => trivial) h
    exact ⟨hAnswers, hAnswers.not_holds⟩
  · intro s q hQuery
    have hKeys := nodup_keys_of_ofText hQuery
    refine ⟨fun x h => solve_answers hKeys h, fun r hr v x h => ?_⟩
    exact resolve_answers
      (fun h cs hn => hKeys h cs (Resource.mem_nodes_trans hr _ hn)) h

theorem results_have_shape_firstTask :
    ∃ q x, Query.ofText firstTask = .ok q ∧ (solve oneBoard q).outcome = .ok x ∧
      q.Answers oneBoard List.Nodup x ∧ ∀ o, ¬ x.Holds o := by
  have hSolved : (match Query.ofText firstTask with
      | .ok q => (solve oneBoard q).outcome.isOk
      | .error _ => false) = true := by decide +kernel
  cases hQuery : Query.ofText firstTask with
  | error e =>
      rw [hQuery] at hSolved
      cases hSolved
  | ok q =>
      rw [hQuery] at hSolved
      dsimp only at hSolved
      cases hOutcome : (solve oneBoard q).outcome with
      | error e =>
          rw [hOutcome] at hSolved
          cases hSolved
      | ok x =>
          obtain ⟨_, hPlain, hParsed⟩ := results_have_shape oneBoard
          exact ⟨q, x, rfl, hOutcome, (hParsed firstTask q hQuery).1 x hOutcome,
            (hPlain q x hOutcome).2⟩

end GatedQuery
