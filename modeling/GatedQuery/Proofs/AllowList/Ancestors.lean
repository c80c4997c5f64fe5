import GatedQuery.AllowList.Ancestry
import Mathlib.Data.Finset.Card
import Mathlib.Data.Nat.Find

/-! Ancestors and their distances. A type climbs to its ancestors edge by edge, and the search level
by level finds exactly the types that it climbs to, each at the least number of edges. -/

namespace GatedQuery

/-- A number of edges to a supertype that lead from the type `t` to another. -/
inductive Climbs (supertypes : String → List String) (t : String) : Nat → String → Prop where
  | refl : Climbs supertypes t 0 t
  | step {n : Nat} {s u : String} (below : Climbs supertypes t n s) (edge : u ∈ supertypes s) :
      Climbs supertypes t (n + 1) u

/-- A type can be reached by one edge or more. -/
def IsAncestor (supertypes : String → List String) (t s : String) : Prop :=
  ∃ n, 0 < n ∧ Climbs supertypes t n s

/-- The least number of edges, at least one, that lead from one type to another. -/
structure IsDistance (supertypes : String → List String) (t s : String) (n : Nat) : Prop where
  pos : 0 < n
  climbs : Climbs supertypes t n s
  least : ∀ k, 0 < k → Climbs supertypes t k s → n ≤ k

section Paths

variable {up : String → List String} {t s u : String} {m n : Nat}

theorem Climbs.trans (below : Climbs up t m s) (above : Climbs up s n u) :
    Climbs up t (m + n) u := by
  induction above with
  | refl => exact below
  | step _ edge ih => exact .step ih edge

/-- An ancestor of an ancestor is one too. -/
theorem IsAncestor.trans (below : IsAncestor up t s) (above : IsAncestor up s u) :
    IsAncestor up t u := by
  obtain ⟨m, hm, hBelow⟩ := below
  obtain ⟨n, _, hAbove⟩ := above
  exact ⟨m + n, Nat.add_pos_left hm n, hBelow.trans hAbove⟩

theorem IsDistance.isAncestor (h : IsDistance up t s n) : IsAncestor up t s :=
  ⟨n, h.pos, h.climbs⟩

/-- A type is at one distance only, as a distance is the least number of edges. -/
theorem IsDistance.unique (h : IsDistance up t s m) (h' : IsDistance up t s n) : m = n :=
  Nat.le_antisymm (h.least n h'.pos h'.climbs) (h'.least m h.pos h.climbs)

/-- Every ancestor is at some distance. -/
theorem IsAncestor.exists_distance (h : IsAncestor up t s) : ∃ n, IsDistance up t s n := by
  classical
  obtain ⟨hPos, hClimbs⟩ := Nat.find_spec h
  exact ⟨Nat.find h, hPos, hClimbs, fun k hk hc => Nat.find_min' h ⟨hk, hc⟩⟩

/-- The type below on a shortest path is at the distance before. -/
theorem IsDistance.pred (h : IsDistance up t u (n + 1)) (hn : 0 < n) :
    ∃ s, IsDistance up t s n := by
  obtain ⟨_, hClimbs, hLeast⟩ := h
  cases hClimbs with
  | @step _ s _ below edge =>
      refine ⟨s, hn, below, fun k hk hShort => ?_⟩
      exact Nat.le_of_succ_le_succ (hLeast (k + 1) (Nat.succ_pos k) (.step hShort edge))

/-- Every distance up to that of an ancestor is the distance of some ancestor. -/
theorem IsDistance.exists_of_le (h : IsDistance up t s n) (hm : 0 < m) (hLe : m ≤ n) :
    ∃ u, IsDistance up t u m := by
  induction n, hLe using Nat.le_induction generalizing s with
  | base => exact ⟨s, h⟩
  | succ n hLe ih =>
      obtain ⟨u, hu⟩ := h.pred (Nat.lt_of_lt_of_le hm hLe)
      exact ih hu

/-- If all supertypes have a name from a list, no distance exceeds its length: a shortest path does
not come to one name twice. -/
theorem IsDistance.le_length {names : List String} (closed : ∀ v w, w ∈ up v → w ∈ names)
    (h : IsDistance up t s n) : n ≤ names.length := by
  have hAt (k : Nat) (hk : k < n) : ∃ u, IsDistance up t u (k + 1) :=
    h.exists_of_le (Nat.succ_pos k) hk
  choose! at_ hDistance using hAt
  have hNames (k : Nat) (hk : k ∈ Finset.range n) : at_ k ∈ names.toFinset := by
    obtain ⟨_, hClimbs, _⟩ := hDistance k (Finset.mem_range.mp hk)
    cases hClimbs with
    | step _ edge => exact List.mem_toFinset.mpr (closed _ _ edge)
  have hInjective : Set.InjOn at_ (Finset.range n) := by
    intro k hk l hl hSame
    have hLater := hDistance l (Finset.mem_range.mp hl)
    rw [← hSame] at hLater
    exact Nat.succ_injective ((hDistance k (Finset.mem_range.mp hk)).unique hLater)
  calc
    n = (Finset.range n).card := (Finset.card_range n).symm
    _ ≤ names.toFinset.card := Finset.card_le_card_of_injOn at_ hNames hInjective
    _ ≤ names.length := List.toFinset_card_le names

end Paths

theorem nodup_eraseDups : ∀ xs : List String, xs.eraseDups.Nodup
  | [] => by simp
  | x :: xs => by
      rw [List.eraseDups_cons, List.nodup_cons]
      exact ⟨by simp, nodup_eraseDups _⟩
termination_by xs => xs.length
decreasing_by exact Nat.lt_succ_of_le (List.length_filter_le _ _)

namespace Hierarchy

variable {O : Type} {h : Hierarchy O} {t : String} {found level : List String} {d : Nat}

/-- The next level holds what the level extends and what was not found before. -/
theorem mem_nextLevel {s : String} :
    s ∈ h.nextLevel found level ↔ (∃ u ∈ level, s ∈ h.supertypes u) ∧ s ∉ found := by
  simp [nextLevel]

theorem nodup_nextLevel : (h.nextLevel found level).Nodup :=
  (nodup_eraseDups _).filter _

/-- Where the search stands after `d` levels: the types that are found can be reached by at most `d`
edges, and those of the level by `d` edges and by no fewer. -/
structure Searched (h : Hierarchy O) (t : String) (d : Nat) (found level : List String) : Prop where
  found : ∀ s, s ∈ found ↔ ∃ k, 0 < k ∧ k ≤ d ∧ Climbs h.supertypes t k s
  level : ∀ s, s ∈ level ↔
    Climbs h.supertypes t d s ∧ ∀ k, 0 < k → k < d → ¬ Climbs h.supertypes t k s

theorem searched_start : Searched h t 0 [] [t] := by
  constructor
  · intro s
    simp only [List.not_mem_nil, false_iff, not_exists, not_and]
    omega
  · intro s
    rw [List.mem_singleton]
    constructor
    · rintro rfl
      exact ⟨.refl, fun k _ hk => absurd hk (Nat.not_lt_zero k)⟩
    · rintro ⟨⟨⟩, _⟩
      rfl

/-- Once everything up to a distance is found, the next level is exactly what is one edge further
away. -/
theorem Searched.mem_next (hSearch : Searched h t d found level) {s : String} :
    s ∈ h.nextLevel found level ↔ IsDistance h.supertypes t s (d + 1) := by
  rw [mem_nextLevel, hSearch.found]
  constructor
  · rintro ⟨⟨u, hu, hEdge⟩, hNew⟩
    refine ⟨Nat.succ_pos d, .step ((hSearch.level u).mp hu).1 hEdge, fun k hk hClimbs => ?_⟩
    by_contra hLess
    exact hNew ⟨k, hk, by omega, hClimbs⟩
  · rintro ⟨_, hClimbs, hLeast⟩
    refine ⟨?_, ?_⟩
    · cases hClimbs with
      | @step _ u _ below edge =>
          refine ⟨u, (hSearch.level u).mpr ⟨below, fun k hk hLess hShort => ?_⟩, edge⟩
          have hLe := hLeast (k + 1) (Nat.succ_pos k) (.step hShort edge)
          omega
    · rintro ⟨k, hk, hLe, hShort⟩
      have hLe' := hLeast k hk hShort
      omega

/-- One more level keeps what is known of the search. -/
theorem Searched.next (hSearch : Searched h t d found level) :
    Searched h t (d + 1) (found ++ h.nextLevel found level) (h.nextLevel found level) := by
  constructor
  · intro s
    rw [List.mem_append, hSearch.mem_next, hSearch.found]
    constructor
    · rintro (⟨k, hk, hLe, hClimbs⟩ | ⟨hPos, hClimbs, _⟩)
      · exact ⟨k, hk, Nat.le_succ_of_le hLe, hClimbs⟩
      · exact ⟨d + 1, hPos, Nat.le_refl _, hClimbs⟩
    · rintro ⟨k, hk, hLe, hClimbs⟩
      by_cases hShort : ∃ j, 0 < j ∧ j ≤ d ∧ Climbs h.supertypes t j s
      · exact .inl hShort
      · rcases Nat.lt_or_eq_of_le hLe with hLess | rfl
        · exact absurd ⟨k, hk, Nat.le_of_lt_succ hLess, hClimbs⟩ hShort
        · refine .inr ⟨hk, hClimbs, fun j hj hc => ?_⟩
          by_contra hNot
          exact hShort ⟨j, hj, by omega, hc⟩
  · intro s
    rw [hSearch.mem_next]
    constructor
    · rintro ⟨_, hClimbs, hLeast⟩
      exact ⟨hClimbs, fun k hk hLess hShort => Nat.not_lt.mpr (hLeast k hk hShort) hLess⟩
    · rintro ⟨hClimbs, hNone⟩
      refine ⟨Nat.succ_pos d, hClimbs, fun k hk hShort => ?_⟩
      by_contra hLess
      exact hNone k hk (Nat.lt_of_not_le hLess) hShort

/-- From here on the search finds the types at greater distances, as far as the fuel reaches. The
induction is on the fuel. -/
theorem mem_ancestorsAbove (hSearch : Searched h t d found level) {fuel n : Nat} {s : String} :
    (s, n) ∈ h.ancestorsAbove fuel (d + 1) found level ↔
      d < n ∧ n ≤ d + fuel ∧ IsDistance h.supertypes t s n := by
  induction fuel generalizing d found level with
  | zero =>
      simp only [ancestorsAbove, List.not_mem_nil, false_iff]
      omega
  | succ fuel ih =>
      have hNext : (s, n) ∈ (h.nextLevel found level).map (·, d + 1) ↔
          n = d + 1 ∧ IsDistance h.supertypes t s (d + 1) := by
        rw [← hSearch.mem_next]
        simp only [List.mem_map, Prod.mk.injEq]
        constructor
        · rintro ⟨_, hs, rfl, rfl⟩
          exact ⟨rfl, hs⟩
        · rintro ⟨rfl, hs⟩
          exact ⟨s, hs, rfl, rfl⟩
      simp only [ancestorsAbove, List.mem_append, hNext, ih hSearch.next]
      constructor
      · rintro (⟨rfl, hDistance⟩ | ⟨hLess, hLe, hDistance⟩)
        · exact ⟨Nat.lt_succ_self d, by omega, hDistance⟩
        · exact ⟨by omega, by omega, hDistance⟩
      · rintro ⟨hLess, hLe, hDistance⟩
        rcases Nat.eq_or_lt_of_le (Nat.succ_le_of_lt hLess) with rfl | hLater
        · exact .inl ⟨rfl, hDistance⟩
        · exact .inr ⟨hLater, by omega, hDistance⟩

/-- No type is found twice, as each is at one distance. -/
theorem nodup_ancestorsAbove (hSearch : Searched h t d found level) (fuel : Nat) :
    ((h.ancestorsAbove fuel (d + 1) found level).map Prod.fst).Nodup := by
  induction fuel generalizing d found level with
  | zero => exact .nil
  | succ fuel ih =>
      have hNames : ((h.nextLevel found level).map (·, d + 1)).map Prod.fst =
          h.nextLevel found level := by
        rw [List.map_map]
        exact List.map_id _
      rw [ancestorsAbove, List.map_append, hNames, List.nodup_append]
      refine ⟨nodup_nextLevel, ih hSearch.next, ?_⟩
      intro s hs u hu hSame
      obtain ⟨⟨v, n⟩, hLater, rfl⟩ := List.mem_map.mp hu
      obtain ⟨hLess, _, hDistance⟩ := (mem_ancestorsAbove hSearch.next).mp hLater
      have hEarlier := hSearch.mem_next.mp hs
      rw [hSame] at hEarlier
      exact absurd (hEarlier.unique hDistance) (Nat.ne_of_lt hLess)

/-- Every type that is extended is declared. -/
def Closed (h : Hierarchy O) : Prop :=
  ∀ t s, s ∈ h.supertypes t → s ∈ h.map TypeDeclaration.name

/-- If all supertypes are declared, the search finds all ancestors with their distances: the
declared types are fuel enough. -/
theorem mem_ancestors (closed : h.Closed) {s : String} {n : Nat} :
    (s, n) ∈ h.ancestors t ↔ IsDistance h.supertypes t s n := by
  rw [ancestors, mem_ancestorsAbove searched_start]
  constructor
  · rintro ⟨_, _, hDistance⟩
    exact hDistance
  · intro hDistance
    have hLe := hDistance.le_length closed
    rw [List.length_map] at hLe
    exact ⟨hDistance.pos, by omega, hDistance⟩

theorem nodup_ancestors (h : Hierarchy O) (t : String) : ((h.ancestors t).map Prod.fst).Nodup :=
  nodup_ancestorsAbove searched_start _

/-- The test for an ancestor is exact if all supertypes are declared. -/
theorem isAbove_iff (closed : h.Closed) {upper lower : String} :
    h.isAbove upper lower = true ↔ IsAncestor h.supertypes lower upper := by
  rw [isAbove, List.any_eq_true]
  constructor
  · rintro ⟨⟨s, n⟩, hMem, hSame⟩
    obtain rfl : s = upper := eq_of_beq hSame
    exact ((mem_ancestors closed).mp hMem).isAncestor
  · intro hAncestor
    obtain ⟨n, hDistance⟩ := hAncestor.exists_distance
    exact ⟨(upper, n), (mem_ancestors closed).mpr hDistance, beq_self_eq_true upper⟩

end Hierarchy

end GatedQuery
