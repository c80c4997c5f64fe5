import GatedQuery.AllowList.Build
import GatedQuery.Proofs.AllowList.Inheritance
import Mathlib.Data.String.Basic

/-! Flattening the hierarchy. The tables of an allow-list hold what the walk of the hierarchy finds,
whatever the order in which inherited members are visited, and building one stops at the first type
that has a problem. -/

namespace GatedQuery

open Outcome

variable {O : Type}

namespace Declared

variable {D : Declared O} {t m s : String}

/-- A declared type is found with everything that was declared of it. -/
theorem find?_hierarchy_of_mem (h : t ∈ D.types) :
    D.hierarchy.find? t = some (D.declaration t) := by
  obtain ⟨u, hu⟩ := Option.isSome_iff_exists.mp
    (List.find?_isSome.mpr ⟨t, h, beq_self_eq_true t⟩ : (D.types.find? (· == t)).isSome)
  have hFound : D.hierarchy.find? t = (D.types.find? (· == t)).map D.declaration := List.find?_map
  have hSame : u = t := by simpa using List.find?_some hu
  rw [hFound, hu, hSame, Option.map_some]

theorem find?_hierarchy_of_not_mem (h : t ∉ D.types) : D.hierarchy.find? t = none := by
  have hFound : D.hierarchy.find? t = (D.types.find? (· == t)).map D.declaration := List.find?_map
  rw [hFound, Option.map_eq_none_iff, List.find?_eq_none]
  intro u hu hSame
  exact h (eq_of_beq hSame ▸ hu)

/-- The types that are found are the declared ones. -/
theorem isSome_find?_hierarchy : (D.hierarchy.find? t).isSome ↔ t ∈ D.types := by
  by_cases h : t ∈ D.types
  · simp [find?_hierarchy_of_mem h, h]
  · simp [find?_hierarchy_of_not_mem h, h]

/-- The edges of the hierarchy are those that were declared. -/
theorem supertypes_hierarchy (sound : D.Sound) : D.hierarchy.supertypes = D.supertypes := by
  funext t
  unfold Hierarchy.supertypes
  by_cases h : t ∈ D.types
  · rw [find?_hierarchy_of_mem h]
    rfl
  · rw [find?_hierarchy_of_not_mem h]
    exact (congrArg TypeDeclaration.supertypes (sound.undeclared t h)).symm

theorem names_hierarchy : D.hierarchy.map TypeDeclaration.name = D.types := by
  rw [hierarchy, List.map_map]
  exact List.map_id _

theorem Closed.hierarchy (closed : D.Closed) (sound : D.Sound) : D.hierarchy.Closed := by
  intro t s hs
  rw [supertypes_hierarchy sound] at hs
  rw [names_hierarchy]
  exact closed t s hs

/-- The search over the hierarchy finds the ancestors that the declarations have. -/
theorem mem_ancestors (sound : D.Sound) (closed : D.Closed) {n : Nat} :
    (s, n) ∈ D.hierarchy.ancestors t ↔ IsDistance D.supertypes t s n := by
  rw [Hierarchy.mem_ancestors (closed.hierarchy sound), supertypes_hierarchy sound]

/-- The test for an ancestor tells what was declared. -/
theorem isAbove_iff (sound : D.Sound) (closed : D.Closed) :
    D.hierarchy.isAbove s t = true ↔ IsAncestor D.supertypes t s := by
  rw [Hierarchy.isAbove_iff (closed.hierarchy sound), supertypes_hierarchy sound]

end Declared

theorem AllowList.pairwise_sortedNames {names : List String} (distinct : names.Nodup) :
    (sortedNames names).Pairwise (· < ·) := by
  have hOrdered : (sortedNames names).Pairwise fun a b => (!(b < a : Bool)) = true := by
    refine List.pairwise_mergeSort (fun a b c hab hbc => ?_) (fun a b => ?_) names
    · simp only [Bool.not_eq_true', decide_eq_false_iff_not, not_lt] at hab hbc ⊢
      exact hab.trans hbc
    · simp only [Bool.or_eq_true, Bool.not_eq_true', decide_eq_false_iff_not, not_lt]
      exact le_total a b
  have hDistinct : (sortedNames names).Nodup :=
    (List.mergeSort_perm names _).nodup_iff.mpr distinct
  refine hOrdered.imp₂ (fun a b hab hne => ?_) hDistinct
  simp only [Bool.not_eq_true', decide_eq_false_iff_not, not_lt] at hab
  exact lt_of_le_of_ne hab hne

namespace Hierarchy

variable {h : Hierarchy O} {m : String}

/-- The candidate that an ancestor is, if it declares the member and hands it down. -/
def candidate? (h : Hierarchy O) (member : String) (ancestor : String × Nat) :
    Option (Candidate O) := do
  let d ← h.find? ancestor.1
  if d.propagates then return ⟨ancestor.1, ancestor.2, ← d.members.lookup member⟩ else none

theorem candidates_eq (h : Hierarchy O) (t m : String) :
    h.candidates t m = (h.ancestors t).filterMap (h.candidate? m) :=
  rfl

/-- An ancestor is a candidate for a member if it declares the member and hands it down. -/
theorem candidate?_eq_some_iff {ancestor : String × Nat} {c : Candidate O} :
    h.candidate? m ancestor = some c ↔ ∃ d, h.find? ancestor.1 = some d ∧ d.propagates = true ∧
      d.members.lookup m = some c.accessor ∧ ancestor = (c.owner, c.distance) := by
  obtain ⟨owner, n⟩ := ancestor
  obtain ⟨_, _, _⟩ := c
  unfold candidate?
  cases h.find? owner with
  | none => simp
  | some d =>
      cases hSwitch : d.propagates with
      | false => simp [hSwitch]
      | true => simp [hSwitch, Option.bind_eq_some_iff]

end Hierarchy

namespace Candidate

variable {cs : List (Candidate O)} {c : Candidate O}

/-- A candidate is specific unless another one below it overrides it. -/
theorem mem_specific {h : Hierarchy O} :
    c ∈ specific h cs ↔
      c ∈ cs ∧ ¬ ∃ d ∈ cs, d.owner ≠ c.owner ∧ h.isAbove c.owner d.owner = true := by
  simp [specific]

/-- The nearest candidates are those at the least distance. -/
theorem mem_nearest : c ∈ nearest cs ↔ c ∈ cs ∧ ∀ d ∈ cs, c.distance ≤ d.distance := by
  simp [nearest]

/-- Of candidates with different owners, more than one is left open by a filter among them. -/
theorem ambiguous_iff (distinct : (cs.map owner).Nodup) :
    ambiguous cs = true ↔
      (∃ c ∈ cs, ∃ d ∈ cs, c.owner ≠ d.owner) ∧ ∃ c ∈ cs, c.accessor.isNative = false := by
  have hSeveral : 1 < cs.length ↔ ∃ c ∈ cs, ∃ d ∈ cs, c.owner ≠ d.owner := by
    match cs, distinct with
    | [], _ => simp
    | [c], _ => simp
    | c :: d :: rest, distinct =>
        simp only [List.length_cons, Nat.lt_add_left_iff_pos, Nat.zero_lt_succ, true_iff]
        refine ⟨c, List.mem_cons_self, d, List.mem_cons_of_mem c List.mem_cons_self,
          fun hSame => ?_⟩
        exact (List.nodup_cons.mp distinct).1 (hSame ▸ List.mem_cons_self)
  simp [ambiguous, hSeveral]

end Candidate

namespace Declared

variable {D : Declared O} {t m s : String}

theorem nodup_owners (D : Declared O) (t m : String) :
    ((D.hierarchy.decisive t m).map Candidate.owner).Nodup := by
  have hCandidates : ((D.hierarchy.candidates t m).map Candidate.owner).Nodup := by
    rw [List.Nodup, List.pairwise_map, Hierarchy.candidates_eq, List.pairwise_filterMap]
    refine (List.pairwise_map.mp (Hierarchy.nodup_ancestors D.hierarchy t)).imp ?_
    rintro a b hOther c hc d hd
    obtain ⟨_, _, _, _, rfl⟩ := Hierarchy.candidate?_eq_some_iff.mp hc
    obtain ⟨_, _, _, _, rfl⟩ := Hierarchy.candidate?_eq_some_iff.mp hd
    exact hOther
  exact hCandidates.sublist ((List.filter_sublist.trans List.filter_sublist).map _)

section Candidates

variable (sound : D.Sound) (closed : D.Closed) (distinct : ∀ u, (D.members u).names.Nodup)
include sound closed distinct

/-- The candidates are the ancestors that hand the member down, with their distances and accessors. -/
theorem mem_candidates {c : Candidate O} :
    c ∈ D.hierarchy.candidates t m ↔ IsDistance D.supertypes t c.owner c.distance ∧
      D.propagates c.owner = true ∧ (m, c.accessor) ∈ D.members c.owner := by
  rw [Hierarchy.candidates_eq, List.mem_filterMap]
  constructor
  · rintro ⟨a, hAncestor, hFound⟩
    obtain ⟨d, hOwner, hSwitch, hMember, rfl⟩ := Hierarchy.candidate?_eq_some_iff.mp hFound
    have hDistance := (mem_ancestors sound closed).mp hAncestor
    have hDeclared := find?_hierarchy_of_mem (closed.mem_of_isAncestor hDistance.isAncestor)
    cases hDeclared.symm.trans hOwner
    exact ⟨hDistance, hSwitch, mem_of_lookup hMember⟩
  · rintro ⟨hDistance, hSwitch, hMember⟩
    have hDeclared := find?_hierarchy_of_mem (closed.mem_of_isAncestor hDistance.isAncestor)
    have hLookup := (MemberTable.lookup_eq_some_iff (distinct _)).mpr hMember
    exact ⟨(c.owner, c.distance), (mem_ancestors sound closed).mpr hDistance,
      Hierarchy.candidate?_eq_some_iff.mpr ⟨_, hDeclared, hSwitch, hLookup, rfl⟩⟩

theorem exists_candidate : (∃ c ∈ D.hierarchy.candidates t m, c.owner = s) ↔ D.HandsDown t m s := by
  constructor
  · rintro ⟨c, hc, rfl⟩
    obtain ⟨hDistance, hSwitch, hMember⟩ := (mem_candidates sound closed distinct).mp hc
    exact ⟨hDistance.isAncestor, hSwitch, MemberTable.mem_names_of_mem hMember⟩
  · rintro ⟨hAbove, hSwitch, hDeclares⟩
    obtain ⟨n, hDistance⟩ := hAbove.exists_distance
    obtain ⟨⟨_, x⟩, hMember, rfl⟩ := List.mem_map.mp hDeclares
    exact ⟨⟨s, n, x⟩, (mem_candidates sound closed distinct).mpr ⟨hDistance, hSwitch, hMember⟩, rfl⟩

/-- Overriding as it is computed is overriding as it is declared. -/
theorem mem_specific_candidates {c : Candidate O} :
    c ∈ Candidate.specific D.hierarchy (D.hierarchy.candidates t m) ↔
      c ∈ D.hierarchy.candidates t m ∧ ¬ D.Overridden t m c.owner := by
  rw [Candidate.mem_specific, and_congr_right_iff]
  refine fun _ => not_congr ⟨?_, ?_⟩
  · rintro ⟨d, hd, hOther, hAbove⟩
    exact ⟨d.owner, (exists_candidate sound closed distinct).mp ⟨d, hd, rfl⟩, hOther,
      (isAbove_iff sound closed).mp hAbove⟩
  · rintro ⟨u, hu, hOther, hBelow⟩
    obtain ⟨d, hd, rfl⟩ := (exists_candidate sound closed distinct).mpr hu
    exact ⟨d, hd, hOther, (isAbove_iff sound closed).mpr hBelow⟩

/-- The decisive candidates are those that the declarations name, with their accessors. -/
theorem mem_decisive {c : Candidate O} :
    c ∈ D.hierarchy.decisive t m ↔ D.Decisive t m c.owner ∧
      IsDistance D.supertypes t c.owner c.distance ∧ (m, c.accessor) ∈ D.members c.owner := by
  rw [Hierarchy.decisive, Candidate.mem_nearest, mem_specific_candidates sound closed distinct]
  constructor
  · rintro ⟨⟨hc, hSpecific⟩, hNearest⟩
    obtain ⟨hDistance, _, hMember⟩ := (mem_candidates sound closed distinct).mp hc
    refine ⟨⟨(exists_candidate sound closed distinct).mp ⟨c, hc, rfl⟩, hSpecific, ?_⟩, hDistance,
      hMember⟩
    intro n u k hn hu hOther hk
    obtain ⟨d, hd, rfl⟩ := (exists_candidate sound closed distinct).mpr hu
    have hLe := hNearest d ((mem_specific_candidates sound closed distinct).mpr ⟨hd, hOther⟩)
    rw [hn.unique hDistance, hk.unique ((mem_candidates sound closed distinct).mp hd).1]
    exact hLe
  · rintro ⟨⟨hHanded, hSpecific, hNearest⟩, hDistance, hMember⟩
    refine ⟨⟨(mem_candidates sound closed distinct).mpr ⟨hDistance, hHanded.propagates, hMember⟩,
      hSpecific⟩, fun d hd => ?_⟩
    obtain ⟨hd, hOther⟩ := (mem_specific_candidates sound closed distinct).mp hd
    exact hNearest _ d.owner _ hDistance ((exists_candidate sound closed distinct).mp ⟨d, hd, rfl⟩)
      hOther ((mem_candidates sound closed distinct).mp hd).1

theorem exists_decisive_candidate (h : D.Decisive t m s) :
    ∃ c ∈ D.hierarchy.decisive t m, c.owner = s := by
  obtain ⟨c, hc, rfl⟩ := (exists_candidate sound closed distinct).mpr h.handsDown
  obtain ⟨hDistance, _, hMember⟩ := (mem_candidates sound closed distinct).mp hc
  exact ⟨c, (mem_decisive sound closed distinct).mpr ⟨h, hDistance, hMember⟩, rfl⟩

/-- The test for an ambiguous member is exact: of several decisive owners, one accessor at least is
not native. -/
theorem ambiguous_decisive_iff :
    Candidate.ambiguous (D.hierarchy.decisive t m) = true ↔ D.Tied t m := by
  rw [Candidate.ambiguous_iff (nodup_owners D t m)]
  constructor
  · rintro ⟨⟨c, hc, d, hd, hOther⟩, e, he, hFilter⟩
    have hDecisive {b : Candidate O} (hb : b ∈ D.hierarchy.decisive t m) :=
      (mem_decisive sound closed distinct).mp hb
    exact ⟨⟨c.owner, d.owner, hOther, (hDecisive hc).1, (hDecisive hd).1⟩, e.owner, e.accessor,
      (hDecisive he).1, (hDecisive he).2.2, hFilter⟩
  · rintro ⟨⟨s, u, hOther, hs, hu⟩, v, x, hv, hx, hFilter⟩
    obtain ⟨c, hc, rfl⟩ := exists_decisive_candidate sound closed distinct hs
    obtain ⟨d, hd, rfl⟩ := exists_decisive_candidate sound closed distinct hu
    obtain ⟨e, he, rfl⟩ := exists_decisive_candidate sound closed distinct hv
    have hMember := ((mem_decisive sound closed distinct).mp he).2.2
    have hSame := MemberTable.eq_of_mem (distinct _) hx hMember
    exact ⟨⟨c, hc, d, hd, hOther⟩, e, he, hSame ▸ hFilter⟩

/-- What is refused is tied, and its owners are named. -/
theorem inherited?_error {e : DeclarationError} (h : D.hierarchy.inherited? t m = .error e) :
    D.Tied t m ∧ ∃ owners, D.TiedOwners t m owners ∧ e = .ambiguousMember t m owners := by
  unfold Hierarchy.inherited? at h
  dsimp only at h
  split at h
  next hTied =>
    refine ⟨(ambiguous_decisive_iff sound closed distinct).mp hTied, _, ⟨?_, fun s => ?_⟩,
      (Except.error.inj h).symm⟩
    · exact AllowList.pairwise_sortedNames (nodup_owners D t m)
    · rw [AllowList.sortedNames, List.mem_mergeSort, List.mem_map]
      constructor
      · rintro ⟨c, hc, rfl⟩
        exact ((mem_decisive sound closed distinct).mp hc).1
      · exact exists_decisive_candidate sound closed distinct
  next => cases h

/-- Without cycles, what is not refused is inherited. -/
theorem inherited?_ok (acyclic : D.Acyclic) {x? : Option (Accessor O)}
    (h : D.hierarchy.inherited? t m = .ok x?) : ¬ D.Tied t m ∧ D.Inherits t m x? := by
  unfold Hierarchy.inherited? at h
  dsimp only at h
  split at h
  next => cases h
  next hClear =>
    obtain rfl := Except.ok.inj h
    have hNotTied : ¬ D.Tied t m := (ambiguous_decisive_iff sound closed distinct).not.mp hClear
    refine ⟨hNotTied, ?_⟩
    cases hHead : (D.hierarchy.decisive t m).head? with
    | none =>
        refine ⟨fun _ => rfl, ?_⟩
        rintro ⟨s, hs⟩
        obtain ⟨u, hu⟩ := hs.exists_decisive closed acyclic
        obtain ⟨c, hc, _⟩ := exists_decisive_candidate sound closed distinct hu
        exact absurd hc (List.head?_eq_none_iff.mp hHead ▸ List.not_mem_nil)
    | some c =>
        obtain ⟨hDecisive, _, hMember⟩ :=
          (mem_decisive sound closed distinct).mp (List.mem_of_mem_head? hHead)
        refine ⟨fun hNone => absurd hDecisive.handsDown (hNone c.owner), fun _ => ?_⟩
        exact ⟨c.accessor, rfl, ⟨c.owner, hDecisive⟩,
          hDecisive.speaksForAll hNotTied hMember⟩

end Candidates

end Declared

end GatedQuery
