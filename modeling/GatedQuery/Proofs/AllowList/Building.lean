import GatedQuery.Proofs.AllowList.Flattening

/-! Building an allow-list from what is declared, whatever the order in which inherited members are
visited. Either all conditions hold and every member is resolved by the walk of the hierarchy, or
the first problem is reported. -/

namespace GatedQuery

open Outcome

variable {O : Type}

namespace Hierarchy

variable {h : Hierarchy O} {t m : String}

theorem inheritedEntry_ok {entry : Option (String × Accessor O)}
    (hOk : h.inheritedEntry t m = .ok entry) :
    ∃ x?, h.inherited? t m = .ok x? ∧ entry = x?.map (m, ·) := by
  obtain ⟨x?, hx, hResult⟩ := exists_of_bind_ok hOk
  cases hResult
  exact ⟨x?, hx, rfl⟩

/-- The entry of a member fails as the member does. -/
theorem inheritedEntry_error_iff {e : DeclarationError} :
    h.inheritedEntry t m = .error e ↔ h.inherited? t m = .error e :=
  bind_pure_error_iff

variable {order : VisitingOrder O} {d : TypeDeclaration O}

theorem tableEntry_ok {entry : String × MemberTable O} (hOk : h.tableEntry order d = .ok entry) :
    entry.1 = d.name ∧ h.memberTableVisiting (order.names h d) d = .ok entry.2 := by
  obtain ⟨table, hTable, hResult⟩ := exists_of_bind_ok hOk
  cases hResult
  exact ⟨rfl, hTable⟩

theorem tableEntry_error_iff {e : DeclarationError} :
    h.tableEntry order d = .error e ↔ h.memberTableVisiting (order.names h d) d = .error e :=
  bind_pure_error_iff

end Hierarchy

namespace Declared

variable {D : Declared O} {t : String}

structure Valid (D : Declared O) : Prop where
  closed : D.Closed
  acyclic : D.Acyclic
  clear : ∀ t m, ¬ D.Ambiguous t m

/-- The first problem of declarations that are not valid: an undeclared supertype, else a type that
inherits from itself, else an ambiguous member of the first type that has one. -/
inductive Refused (D : Declared O) : DeclarationError → Prop where
  | supertype {t s : String}
      (first : IsFirst (fun t => ∃ s ∈ D.supertypes t, s ∉ D.types) D.types t)
      (unknown : IsFirst (· ∉ D.types) (D.supertypes t) s) : Refused D (.unknownSupertype t s)
  | cycle {t : String} (closed : D.Closed)
      (first : IsFirst (fun t => IsAncestor D.supertypes t t) D.types t) :
      Refused D (.inheritanceCycle t)
  | ambiguous {t m : String} {owners : List String} (closed : D.Closed) (acyclic : D.Acyclic)
      (first : IsFirst (fun t => ∃ m, D.Ambiguous t m) D.types t) (member : D.Ambiguous t m)
      (tied : D.TiedOwners t m owners) : Refused D (.ambiguousMember t m owners)

/-- A problem of the declarations as a whole contradicts their validity. -/
theorem Refused.not_valid {e : DeclarationError} (h : D.Refused e) : ¬ D.Valid := by
  rintro ⟨hClosed, hAcyclic, hClear⟩
  cases h with
  | @supertype t s _ unknown => exact unknown.1 (hClosed t s unknown.mem)
  | @cycle t _ first => exact hAcyclic t first.1
  | @ambiguous t m _ _ _ _ member => exact hClear t m member

/-- A type that does not inherit has its own members only. -/
theorem memberTableVisiting_alone (hAlone : D.inherits t = false) (names : List String) :
    D.hierarchy.memberTableVisiting names (D.declaration t) = .ok (D.members t) := by
  simp [Hierarchy.memberTableVisiting, declaration, hAlone, pure, Except.pure]

theorem memberTableVisiting_inherits (hInherits : D.inherits t = true) (names : List String) :
    D.hierarchy.memberTableVisiting names (D.declaration t) = (do
      return D.members t ++ (← names.mapM (D.hierarchy.inheritedEntry t)).filterMap id) := by
  simp only [Hierarchy.memberTableVisiting, declaration, hInherits]
  rfl

section Tables

variable (sound : D.Sound) (closed : D.Closed) (acyclic : D.Acyclic)
variable (distinct : ∀ u, (D.members u).names.Nodup)
include sound closed

/-- The members that are looked for are those that some type hands down and the type does not
declare itself. -/
theorem mem_inheritedNames {m : String} :
    m ∈ D.hierarchy.inheritedNames (D.declaration t) ↔
      (∃ s, D.HandsDown t m s) ∧ m ∉ (D.members t).names := by
  rw [Hierarchy.inheritedNames, List.mem_filter, List.mem_eraseDups, List.mem_flatMap]
  refine and_congr ⟨?_, ?_⟩ MemberTable.isNone_lookup
  · rintro ⟨⟨s, n⟩, hAncestor, hm⟩
    have hAbove := ((mem_ancestors sound closed).mp hAncestor).isAncestor
    rw [find?_hierarchy_of_mem (closed.mem_of_isAncestor hAbove)] at hm
    dsimp only at hm
    split at hm
    next hSwitch => exact ⟨s, hAbove, hSwitch, hm⟩
    next => exact absurd hm List.not_mem_nil
  · rintro ⟨s, hAbove, hSwitch, hm⟩
    obtain ⟨n, hDistance⟩ := hAbove.exists_distance
    refine ⟨(s, n), (mem_ancestors sound closed).mpr hDistance, ?_⟩
    rw [find?_hierarchy_of_mem (closed.mem_of_isAncestor hAbove)]
    change m ∈ if D.propagates s then (D.members s).names else []
    rw [if_pos hSwitch]
    exact hm

include distinct

/-- What is refused is an ambiguous member. -/
theorem memberTableVisiting_error {names : List String}
    (visits : names.Perm (D.hierarchy.inheritedNames (D.declaration t))) {e : DeclarationError}
    (h : D.hierarchy.memberTableVisiting names (D.declaration t) = .error e) :
    ∃ m owners, D.Ambiguous t m ∧ D.TiedOwners t m owners ∧ e = .ambiguousMember t m owners := by
  cases hInherits : D.inherits t with
  | false => cases h.symm.trans (memberTableVisiting_alone hInherits names)
  | true =>
      rw [memberTableVisiting_inherits hInherits] at h
      obtain ⟨m, hFirst, hError⟩ := mapM_error (bind_pure_error_iff.mp h)
      obtain ⟨hTied, owners, hOwners, rfl⟩ := inherited?_error sound closed distinct
        (Hierarchy.inheritedEntry_error_iff.mp hError)
      have hUndeclared := ((mem_inheritedNames sound closed).mp (visits.mem_iff.mp hFirst.mem)).2
      exact ⟨m, owners, ⟨hInherits, hUndeclared, hTied⟩, hOwners, rfl⟩

include acyclic

/-- The inherited part of a table holds what a type inherits. -/
theorem lookup_inherited {names : List String}
    (visits : names.Perm (D.hierarchy.inheritedNames (D.declaration t)))
    {inherited : List (Option (String × Accessor O))}
    (h : names.mapM (D.hierarchy.inheritedEntry t) = .ok inherited) {m : String}
    (hOther : m ∉ (D.members t).names) :
    ¬ D.Tied t m ∧ D.Inherits t m ((inherited.filterMap id).lookup m) := by
  rcases lookup_filterMap_of_forall₂ ((mapM_ok h).imp fun _ _ => Hierarchy.inheritedEntry_ok) m with
    ⟨_, hOk⟩ | ⟨hUnvisited, hNone⟩
  · exact inherited?_ok sound closed distinct acyclic hOk
  · have hNothing (s : String) : ¬ D.HandsDown t m s := fun hs =>
      hUnvisited (visits.mem_iff.mpr ((mem_inheritedNames sound closed).mpr ⟨⟨s, hs⟩, hOther⟩))
    rw [hNone]
    refine ⟨fun hTied => ?_, fun _ => rfl, ?_⟩
    · obtain ⟨s, _, _, hs, _⟩ := hTied.several
      exact hNothing s hs.handsDown
    · rintro ⟨s, hs⟩
      exact absurd hs (hNothing s)

/-- A table holds what the walk of the hierarchy finds. -/
theorem memberTableVisiting_ok (ht : t ∈ D.types) {names : List String}
    (visits : names.Perm (D.hierarchy.inheritedNames (D.declaration t))) {table : MemberTable O}
    (h : D.hierarchy.memberTableVisiting names (D.declaration t) = .ok table) (m : String) :
    ¬ D.Ambiguous t m ∧ D.Resolves t m (table.lookup m) := by
  have hOwn {x : Accessor O} (hx : (m, x) ∈ D.members t) : (D.members t).lookup m = some x :=
    (MemberTable.lookup_eq_some_iff (distinct t)).mpr hx
  have hNone (hOther : m ∉ (D.members t).names) : (D.members t).lookup m = none :=
    Option.isNone_iff_eq_none.mp (MemberTable.isNone_lookup.mpr hOther)
  cases hInherits : D.inherits t with
  | false =>
      cases h.symm.trans (memberTableVisiting_alone hInherits names)
      refine ⟨fun hm => ?_, fun hUnknown => absurd ht hUnknown, fun x _ => hOwn,
        fun hOther _ => hNone hOther, fun _ hTrue => ?_⟩
      · cases hInherits.symm.trans hm.inherits
      · cases hInherits.symm.trans hTrue
  | true =>
      rw [memberTableVisiting_inherits hInherits] at h
      obtain ⟨inherited, hInherited, hResult⟩ := exists_of_bind_ok h
      cases hResult
      have hEntry := lookup_inherited sound closed acyclic distinct visits hInherited (m := m)
      rw [List.lookup_append]
      refine ⟨fun hm => (hEntry hm.undeclared).1 hm.tied, fun hUnknown => absurd ht hUnknown,
        fun x _ hx => ?_, fun _ hAlone => ?_, fun hOther _ => ?_⟩
      · rw [hOwn hx, Option.some_or]
      · cases hInherits.symm.trans hAlone
      · rw [hNone hOther, Option.none_or]
        exact (hEntry hOther).2

end Tables

/-- Supertypes are checked type by type in the order of declaration, and the first undeclared one is
reported. -/
theorem checkSupertypes_eq (D : Declared O) :
    D.hierarchy.checkSupertypes = D.types.forM fun t =>
      (D.supertypes t).forM (require (· ∈ D.types) (DeclarationError.unknownSupertype t)) := by
  have hCheck (t s : String) : (if (D.hierarchy.find? s).isSome then Except.ok ()
      else .error (.unknownSupertype t s)) =
      require (· ∈ D.types) (DeclarationError.unknownSupertype t) s :=
    if_congr isSome_find?_hierarchy rfl rfl
  unfold Hierarchy.checkSupertypes
  simp only [hCheck]
  rw [hierarchy, List.forM_eq_forM, List.forM_map]
  rfl

theorem checkSupertypes_ok (sound : D.Sound) {u : Unit} (h : D.hierarchy.checkSupertypes = .ok u) :
    D.Closed := by
  rw [checkSupertypes_eq] at h
  intro t s hs
  exact forM_require_ok (forM_ok h t (sound.mem_of_mem_supertypes hs)) s hs

theorem checkSupertypes_error {e : DeclarationError} (h : D.hierarchy.checkSupertypes = .error e) :
    D.Refused e := by
  rw [checkSupertypes_eq] at h
  obtain ⟨t, hFirst, hError⟩ := forM_error h
  obtain ⟨s, hUnknown, rfl⟩ := forM_require_error hError
  refine .supertype (hFirst.imp fun u _ => ⟨?_, ?_⟩) hUnknown
  · rintro ⟨e, hError⟩
    obtain ⟨v, hv, _⟩ := forM_require_error hError
    exact ⟨v, hv.mem, hv.1⟩
  · rintro ⟨v, hv, hUnknown⟩
    cases hCheck : (D.supertypes u).forM
      (require (· ∈ D.types) (DeclarationError.unknownSupertype u)) with
    | ok _ => exact absurd (forM_require_ok hCheck v hv) hUnknown
    | error e => exact ⟨e, rfl⟩

/-- The first type that is above itself is the one that is reported. -/
theorem checkCycles_eq (D : Declared O) :
    D.hierarchy.checkCycles = D.types.forM
      (require (fun t => ¬ D.hierarchy.isAbove t t = true) .inheritanceCycle) := by
  have hCheck (t : String) : (if D.hierarchy.isAbove t t then Except.error (.inheritanceCycle t)
      else .ok ()) = require (fun t => ¬ D.hierarchy.isAbove t t = true)
        DeclarationError.inheritanceCycle t := (ite_not _ _ _).symm
  unfold Hierarchy.checkCycles
  simp only [hCheck]
  rw [hierarchy, List.forM_eq_forM, List.forM_map]
  rfl

/-- If the check passes, no type is its own ancestor. The check sees all ancestors, as all
supertypes are declared. -/
theorem checkCycles_ok (sound : D.Sound) (closed : D.Closed) {u : Unit}
    (h : D.hierarchy.checkCycles = .ok u) : D.Acyclic := by
  rw [checkCycles_eq] at h
  intro t hCycle
  exact forM_require_ok h t (closed.mem_of_isAncestor hCycle)
    ((isAbove_iff sound closed).mpr hCycle)

theorem checkCycles_error (sound : D.Sound) (closed : D.Closed) {e : DeclarationError}
    (h : D.hierarchy.checkCycles = .error e) : D.Refused e := by
  rw [checkCycles_eq] at h
  obtain ⟨t, hFirst, rfl⟩ := forM_require_error h
  exact .cycle closed (hFirst.imp fun u _ => not_not.trans (isAbove_iff sound closed))

section Building

variable (sound : D.Sound) (distinct : ∀ u, (D.members u).names.Nodup) (order : VisitingOrder O)
include sound distinct

/-- If all tables are built, no type inherits an ambiguous member, and each table answers as the
hierarchy does. -/
theorem tables_ok (closed : D.Closed) (acyclic : D.Acyclic) {tables : List (String × MemberTable O)}
    (h : D.hierarchy.mapM (D.hierarchy.tableEntry order) = .ok tables) (t m : String) :
    ¬ D.Ambiguous t m ∧ D.Resolves t m ((tables.lookup t).bind (·.lookup m)) := by
  rw [hierarchy, List.mapM_map, ← hierarchy] at h
  rcases lookup_of_forall₂ (R := fun t table =>
    D.hierarchy.memberTableVisiting (order.names D.hierarchy (D.declaration t)) (D.declaration t) =
      .ok table) ((mapM_ok h).imp fun _ _ => Hierarchy.tableEntry_ok) t with
    ⟨ht, table, hTable, hLookup⟩ | ⟨hUnknown, hLookup⟩
  · rw [hLookup]
    exact memberTableVisiting_ok sound closed acyclic distinct ht (order.perm _ _) hTable m
  · rw [hLookup]
    refine ⟨fun hm => ?_, Resolves.of_unknown sound hUnknown⟩
    obtain ⟨s, _, _, hs, _⟩ := hm.tied.several
    exact hUnknown (sound.mem_of_isAncestor hs.handsDown.above)

/-- If a table is not built, it is for the first type that inherits an ambiguous member. -/
theorem tables_error (closed : D.Closed) (acyclic : D.Acyclic) {e : DeclarationError}
    (h : D.hierarchy.mapM (D.hierarchy.tableEntry order) = .error e) : D.Refused e := by
  rw [hierarchy, List.mapM_map, ← hierarchy] at h
  obtain ⟨t, hFirst, hError⟩ := mapM_error h
  have hRefused {u : String} {e : DeclarationError}
      (h : (D.hierarchy.tableEntry order ∘ D.declaration) u = .error e) :=
    memberTableVisiting_error sound closed distinct (order.perm _ _)
      (Hierarchy.tableEntry_error_iff.mp h)
  obtain ⟨m, owners, hm, hOwners, rfl⟩ := hRefused hError
  refine .ambiguous closed acyclic (hFirst.imp fun u hu => ⟨?_, ?_⟩) hm hOwners
  · rintro ⟨e, hError⟩
    obtain ⟨m, _, hm, _⟩ := hRefused hError
    exact ⟨m, hm⟩
  · rintro ⟨m, hm⟩
    cases hEntry : (D.hierarchy.tableEntry order ∘ D.declaration) u with
    | error e => exact ⟨e, rfl⟩
    | ok entry =>
        have hTable := (Hierarchy.tableEntry_ok hEntry).2
        exact absurd hm (memberTableVisiting_ok sound closed acyclic distinct hu (order.perm _ _)
          hTable m).1

variable {draft : Draft O} (hTypes : draft.types = D.hierarchy)
include hTypes

/-- A draft that builds is valid, and its allow-list resolves each member as the declarations say. -/
theorem ofDraftVisiting_ok {a : AllowList O} (h : AllowList.ofDraftVisiting order draft = .ok a) :
    D.Valid ∧ a.entries = draft.entries ∧ ∀ t m, D.Resolves t m (a.accessor? t m) := by
  rw [AllowList.ofDraftVisiting, hTypes] at h
  obtain ⟨_, hSupertypes, h⟩ := exists_of_bind_ok h
  obtain ⟨_, hCycles, h⟩ := exists_of_bind_ok h
  obtain ⟨tables, hTables, h⟩ := exists_of_bind_ok h
  cases h
  have closed := checkSupertypes_ok sound hSupertypes
  have acyclic := checkCycles_ok sound closed hCycles
  have hAnswers := tables_ok sound distinct order closed acyclic hTables
  exact ⟨⟨closed, acyclic, fun t m => (hAnswers t m).1⟩, rfl, fun t m => (hAnswers t m).2⟩

/-- A draft that does not build is refused for the problem that comes first. -/
theorem ofDraftVisiting_error {e : DeclarationError}
    (h : AllowList.ofDraftVisiting order draft = .error e) : D.Refused e := by
  rw [AllowList.ofDraftVisiting, hTypes] at h
  cases hSupertypes : D.hierarchy.checkSupertypes with
  | error e' =>
      simp only [hSupertypes] at h
      cases h
      exact checkSupertypes_error hSupertypes
  | ok _ =>
      have closed := checkSupertypes_ok sound hSupertypes
      cases hCycles : D.hierarchy.checkCycles with
      | error e' =>
          simp only [hSupertypes, hCycles] at h
          cases h
          exact checkCycles_error sound closed hCycles
      | ok _ =>
          simp only [hSupertypes, hCycles] at h
          have acyclic := checkCycles_ok sound closed hCycles
          exact tables_error sound distinct order closed acyclic (bind_pure_error_iff.mp h)

end Building

end Declared

end GatedQuery
