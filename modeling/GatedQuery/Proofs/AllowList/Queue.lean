import GatedQuery.Proofs.AllowList.Ancestors
import Mathlib.Algebra.BigOperators.Group.Finset.Basic
import Mathlib.Logic.Function.Iterate

/-! Ancestors found one name at a time. A queue holds the names that are still to be looked at, with
their distances, and may hold a name many times. The search ends on every hierarchy, and it comes to
the type itself exactly if the type inherits from itself; otherwise it finds what the search level by
level finds, in the same order. -/

namespace GatedQuery.Hierarchy

/-- A search for the ancestors of a type. What is found and what waits in the queue stands with its
distance. -/
inductive Search where
  | running (found waiting : List (String × Nat))
  | ended (outcome : Except DeclarationError (List (String × Nat)))

namespace Search

variable {O : Type}

/-- Take one name from the queue. The type itself ends the search, a name that is found already is
dropped, and any other one is found and sends its own supertypes to the queue. -/
def step (h : Hierarchy O) (t : String) : Search → Search
  | running found [] => ended (.ok found)
  | running found ((s, n) :: waiting) =>
    if s = t then ended (.error (.inheritanceCycle t))
    else if s ∈ found.map Prod.fst then running found waiting
    else running (found ++ [(s, n)]) (waiting ++ (h.supertypes s).map (·, n + 1))
  | ended outcome => ended outcome

/-- The search for the ancestors of a type begins with its supertypes. -/
def start (h : Hierarchy O) (t : String) : Search :=
  running [] ((h.supertypes t).map (·, 1))

variable {h : Hierarchy O} {t s : String} {n d : Nat} {found waiting : List (String × Nat)}
variable {x y z : Search} {outcome : Except DeclarationError (List (String × Nat))}

/-- The search stops when it comes back to the type that it started from. -/
theorem step_cycle : step h t (running found ((t, n) :: waiting)) =
    ended (.error (.inheritanceCycle t)) := by
  rw [step, if_pos rfl]

/-- A type that was found before is dropped from the queue. -/
theorem step_known (hOther : s ≠ t) (hKnown : s ∈ found.map Prod.fst) :
    step h t (running found ((s, n) :: waiting)) = running found waiting := by
  rw [step, if_neg hOther, if_pos hKnown]

/-- A new type is found, and what it extends waits behind all others. -/
theorem step_new (hOther : s ≠ t) (hNew : s ∉ found.map Prod.fst) :
    step h t (running found ((s, n) :: waiting)) =
      running (found ++ [(s, n)]) (waiting ++ (h.supertypes s).map (·, n + 1)) := by
  rw [step, if_neg hOther, if_neg hNew]

/-- The number of names that declared types which are not found can still send to the queue. -/
def unexplored (h : Hierarchy O) (found : List (String × Nat)) : Nat :=
  ∑ s ∈ (h.map TypeDeclaration.name).toFinset \ (found.map Prod.fst).toFinset, (h.supertypes s).length

/-- A bound on the steps that a search still takes. -/
def remaining (h : Hierarchy O) : Search → Nat
  | running found waiting => waiting.length + unexplored h found + 1
  | ended _ => 0

/-- What is not declared extends nothing. -/
theorem supertypes_of_undeclared (hUndeclared : s ∉ h.map TypeDeclaration.name) :
    h.supertypes s = [] := by
  have hNone : h.find? s = none := by
    refine List.find?_eq_none.mpr fun d hd hSame => hUndeclared ?_
    exact eq_of_beq hSame ▸ List.mem_map_of_mem hd
  rw [supertypes, hNone]

/-- A name that is found cannot send its supertypes again. -/
theorem unexplored_concat (hNew : s ∉ found.map Prod.fst) :
    (h.supertypes s).length + unexplored h (found ++ [(s, n)]) = unexplored h found := by
  have hErase : (h.map TypeDeclaration.name).toFinset \ ((found ++ [(s, n)]).map Prod.fst).toFinset =
      ((h.map TypeDeclaration.name).toFinset \ (found.map Prod.fst).toFinset).erase s := by
    ext u
    simp only [List.map_append, List.toFinset_append, Finset.mem_sdiff, Finset.mem_union,
      Finset.mem_erase, List.map_cons, List.map_nil, List.mem_toFinset, List.mem_singleton]
    tauto
  rw [unexplored, unexplored, hErase]
  by_cases hDeclared : s ∈ h.map TypeDeclaration.name
  · refine Finset.add_sum_erase _ (fun u => (h.supertypes u).length) ?_
    exact Finset.mem_sdiff.mpr ⟨List.mem_toFinset.mpr hDeclared, by simpa using hNew⟩
  · rw [supertypes_of_undeclared hDeclared, Finset.erase_eq_of_notMem, List.length_nil, Nat.zero_add]
    exact fun hMem => hDeclared (List.mem_toFinset.mp (Finset.mem_sdiff.mp hMem).1)

/-- Every step brings the end nearer. -/
theorem remaining_step (x : Search) : remaining h (step h t x) ≤ remaining h x - 1 := by
  cases x with
  | ended outcome => exact Nat.zero_le _
  | running found waiting =>
      cases waiting with
      | nil => exact Nat.zero_le _
      | cons first waiting =>
          obtain ⟨s, n⟩ := first
          by_cases hCycle : s = t
          · rw [hCycle, step_cycle]
            exact Nat.zero_le _
          by_cases hKnown : s ∈ found.map Prod.fst
          · rw [step_known hCycle hKnown]
            simp only [remaining, List.length_cons]
            omega
          · have hLess := unexplored_concat (h := h) (n := n) hKnown
            rw [step_new hCycle hKnown]
            simp only [remaining, List.length_cons, List.length_append, List.length_map]
            omega

/-- Each step takes at least one from the bound, until it is used up. -/
theorem remaining_iterate (x : Search) (k : Nat) :
    remaining h ((step h t)^[k] x) ≤ remaining h x - k := by
  induction k with
  | zero => exact Nat.le_refl _
  | succ k ih =>
      rw [Function.iterate_succ_apply']
      have hStep := remaining_step (h := h) (t := t) ((step h t)^[k] x)
      omega

/-- A search ends, whatever the hierarchy is. -/
theorem exists_ended (h : Hierarchy O) (t : String) (x : Search) {k : Nat} (hk : remaining h x ≤ k) :
    ∃ outcome, (step h t)^[k] x = ended outcome := by
  have hNone := remaining_iterate (h := h) (t := t) x k
  cases hLast : (step h t)^[k] x with
  | ended outcome => exact ⟨outcome, rfl⟩
  | running found waiting =>
      rw [hLast, remaining] at hNone
      omega

/-- The search comes from one state to another. -/
def Leads (h : Hierarchy O) (t : String) (x y : Search) : Prop :=
  ∃ k, (step h t)^[k] x = y

theorem Leads.refl (x : Search) : Leads h t x x :=
  ⟨0, rfl⟩

theorem Leads.step (rest : Leads h t (step h t x) y) : Leads h t x y := by
  obtain ⟨k, hk⟩ := rest
  exact ⟨k + 1, hk⟩

/-- A search that comes from one state to another and on to a third comes to the third. -/
theorem Leads.trans (first : Leads h t x y) (second : Leads h t y z) : Leads h t x z := by
  obtain ⟨k, rfl⟩ := first
  obtain ⟨l, rfl⟩ := second
  exact ⟨l + k, Function.iterate_add_apply _ _ _ _⟩

/-- What has ended stays as it is. -/
theorem iterate_ended (k : Nat) : (Search.step h t)^[k] (ended outcome) = ended outcome :=
  Function.iterate_fixed rfl k

/-- A search that ends has one outcome, which it has from then on. -/
theorem Leads.iterate_eq (leads : Leads h t x (ended outcome)) {k : Nat} (hk : remaining h x ≤ k) :
    (Search.step h t)^[k] x = ended outcome := by
  obtain ⟨l, hl⟩ := leads
  obtain ⟨other, hOther⟩ := exists_ended h t x hk
  have hLater : (Search.step h t)^[l + k] x = ended other := by
    rw [Function.iterate_add_apply, hOther, iterate_ended]
  rw [Nat.add_comm, Function.iterate_add_apply, hl, iterate_ended] at hLater
  rw [hOther, ← hLater]

/-- If the type itself waits somewhere, the search ends with a cycle, whatever waits before it. -/
theorem leads_cycle (front back : List (String × Nat)) (found : List (String × Nat)) :
    Leads h t (running found (front ++ (t, n) :: back)) (ended (.error (.inheritanceCycle t))) := by
  induction front generalizing found back with
  | nil => exact Leads.step (by rw [List.nil_append, step_cycle]; exact .refl _)
  | cons first front ih =>
      obtain ⟨s, m⟩ := first
      refine Leads.step ?_
      rw [List.cons_append]
      by_cases hCycle : s = t
      · rw [hCycle, step_cycle]
        exact .refl _
      by_cases hKnown : s ∈ found.map Prod.fst
      · rw [step_known hCycle hKnown]
        exact ih back found
      · rw [step_new hCycle hKnown, List.append_assoc, List.cons_append]
        exact ih _ _

/-- The names, each once, that are not found yet. -/
def newNames (found names : List String) : List String :=
  names.eraseDups.filter fun s => !found.contains s

theorem eraseDups_filter (p : String → Bool) (names : List String) :
    (names.filter p).eraseDups = names.eraseDups.filter p := by
  -- What `eraseDups` goes on with is not the tail of the list, but a part of it.
  induction hLength : names.length using Nat.strong_induction_on generalizing names with
  | _ length ih =>
      cases names with
      | nil => simp
      | cons x names =>
          have hShorter : (names.filter fun y => !y == x).length < length := by
            rw [← hLength]
            exact Nat.lt_succ_of_le (List.length_filter_le _ _)
          rw [List.eraseDups_cons]
          cases hp : p x with
          | true =>
              rw [List.filter_cons_of_pos hp, List.filter_cons_of_pos hp, List.eraseDups_cons,
                List.filter_comm, ih _ hShorter _ rfl]
          | false =>
              have hOthers : (names.filter p).filter (fun y => !y == x) = names.filter p := by
                refine List.filter_eq_self.mpr fun y hy => ?_
                have hDiffers : y ≠ x := by
                  rintro rfl
                  exact absurd ((List.mem_filter.mp hy).2.symm.trans hp) (by simp)
                simpa using hDiffers
              rw [List.filter_cons_of_neg (by simp [hp]), List.filter_cons_of_neg (by simp [hp]),
                ← ih _ hShorter _ rfl, List.filter_comm, hOthers]

theorem newNames_cons_of_mem {known names : List String} (hKnown : s ∈ known) :
    newNames known (s :: names) = newNames known names := by
  have hOthers : (fun u => !known.contains u && !u == s) = fun u => !known.contains u := by
    funext u
    by_cases hSame : u = s
    · simp [hSame, hKnown]
    · simp [hSame]
  rw [newNames, newNames, List.eraseDups_cons, List.filter_cons_of_neg (by simpa using hKnown),
    eraseDups_filter, List.filter_filter, hOthers]

/-- A name that is new is found once, and is known to the rest. -/
theorem newNames_cons_of_notMem {known names : List String} (hNew : s ∉ known) :
    newNames known (s :: names) = s :: newNames (known ++ [s]) names := by
  have hOthers : (fun u => !known.contains u && !u == s) = fun u => !(known ++ [s]).contains u := by
    funext u
    by_cases hSame : u = s <;> simp [hSame]
  rw [newNames, newNames, List.eraseDups_cons, List.filter_cons_of_pos (by simpa using hNew),
    eraseDups_filter, List.filter_filter, hOthers]

/-- The names of one distance are looked at before any name of the next one is. -/
theorem leads_level {names : List String} (hOther : t ∉ names) (later : List String) :
    Leads h t (running found (names.map (·, d) ++ later.map (·, d + 1)))
      (running (found ++ (newNames (found.map Prod.fst) names).map (·, d))
        ((later ++ (newNames (found.map Prod.fst) names).flatMap h.supertypes).map (·, d + 1))) := by
  induction names generalizing found later with
  | nil =>
      simp only [newNames, List.map_nil, List.eraseDups_nil, List.filter_nil, List.flatMap_nil,
        List.append_nil, List.nil_append]
      exact .refl _
  | cons s names ih =>
      rw [List.mem_cons, not_or] at hOther
      obtain ⟨hFirst, hRest⟩ := hOther
      refine Leads.step ?_
      rw [List.map_cons, List.cons_append]
      by_cases hKnown : s ∈ found.map Prod.fst
      · rw [step_known (Ne.symm hFirst) hKnown, newNames_cons_of_mem hKnown]
        exact ih hRest later
      · rw [step_new (Ne.symm hFirst) hKnown, newNames_cons_of_notMem hKnown, List.append_assoc,
          ← List.map_append]
        have hLevel : Leads h t (running (found ++ [(s, d)]) _) _ := ih hRest (later ++ h.supertypes s)
        simpa [List.append_assoc] using hLevel

/-- The queue comes to the type itself in the level that leads back to it. -/
theorem leads_cycle_of_level {level : List String} (hSearch : Searched h t d (found.map Prod.fst) level)
    (hMem : t ∈ level.flatMap h.supertypes) :
    IsAncestor h.supertypes t t ∧
      Leads h t (running found ((level.flatMap h.supertypes).map (·, d + 1)))
        (ended (.error (.inheritanceCycle t))) := by
  obtain ⟨front, back, hSplit⟩ := List.append_of_mem hMem
  obtain ⟨u, hu, hEdge⟩ := List.mem_flatMap.mp hMem
  refine ⟨⟨d + 1, Nat.succ_pos d, .step ((hSearch.level u).mp hu).1 hEdge⟩, ?_⟩
  rw [hSplit, List.map_append, List.map_cons]
  exact leads_cycle _ _ _

/-- Otherwise the queue finds the next level and then holds what that level extends. -/
theorem leads_nextLevel {level : List String} (hOther : t ∉ level.flatMap h.supertypes) :
    Leads h t (running found ((level.flatMap h.supertypes).map (·, d + 1)))
      (running (found ++ (h.nextLevel (found.map Prod.fst) level).map (·, d + 1))
        (((h.nextLevel (found.map Prod.fst) level).flatMap h.supertypes).map (·, d + 1 + 1))) := by
  have hLevel : Leads h t (running found _) _ := leads_level (d := d + 1) hOther []
  rw [List.map_nil, List.append_nil, List.nil_append] at hLevel
  exact hLevel

/-- From level to level the queue finds what the search level by level does, until it comes to the
type itself or no level is left. -/
theorem leads_levels (closed : h.Closed) {level : List String} {fuel : Nat}
    (hSearch : Searched h t d (found.map Prod.fst) level) (hOther : t ∉ found.map Prod.fst)
    (hFuel : h.length ≤ d + fuel) :
    (IsAncestor h.supertypes t t ∧
      Leads h t (running found ((level.flatMap h.supertypes).map (·, d + 1)))
        (ended (.error (.inheritanceCycle t)))) ∨
    (¬ IsAncestor h.supertypes t t ∧
      Leads h t (running found ((level.flatMap h.supertypes).map (·, d + 1)))
        (ended (.ok (found ++ h.ancestorsAbove fuel (d + 1) (found.map Prod.fst) level)))) := by
  have hBound {s : String} {n : Nat} (hDistance : IsDistance h.supertypes t s n) : n ≤ h.length := by
    have hLe := hDistance.le_length closed
    rwa [List.length_map] at hLe
  -- The induction is on the levels that remain to be looked at. `Searched` carries what is found, and
  -- no distance exceeds the number of types, so that the last level finds nothing.
  induction fuel generalizing d found level with
  | zero =>
      by_cases hMem : t ∈ level.flatMap h.supertypes
      · exact .inl (leads_cycle_of_level hSearch hMem)
      have hLast : h.nextLevel (found.map Prod.fst) level = [] := by
        refine List.eq_nil_iff_forall_not_mem.mpr fun s hs => ?_
        have hLe := hBound (hSearch.mem_next.mp hs)
        omega
      have hNext : Leads h t (running found _) _ := leads_nextLevel (d := d) hMem
      rw [hLast] at hNext
      refine .inr ⟨fun hCycle => ?_, hNext.trans (Leads.step ?_)⟩
      · obtain ⟨n, hDistance⟩ := hCycle.exists_distance
        have hLe := hBound hDistance
        exact hOther ((hSearch.found t).mpr ⟨n, hDistance.pos, by omega, hDistance.climbs⟩)
      · rw [List.map_nil, List.append_nil, ancestorsAbove, List.append_nil]
        exact .refl _
  | succ fuel ih =>
      by_cases hMem : t ∈ level.flatMap h.supertypes
      · exact .inl (leads_cycle_of_level hSearch hMem)
      have hNext : Leads h t (running found _) _ := leads_nextLevel (d := d) hMem
      have hNames : (found ++ (h.nextLevel (found.map Prod.fst) level).map (·, d + 1)).map Prod.fst =
          found.map Prod.fst ++ h.nextLevel (found.map Prod.fst) level := by
        simp [List.map_append, Function.comp_def]
      have hLater : t ∉ found.map Prod.fst ++ h.nextLevel (found.map Prod.fst) level := by
        rw [List.mem_append, mem_nextLevel, not_or]
        exact ⟨hOther, fun hFound => hMem (List.mem_flatMap.mpr hFound.1)⟩
      rcases ih (hNames ▸ hSearch.next) (hNames ▸ hLater) (by omega) with
        ⟨hCycle, hEnd⟩ | ⟨hNone, hEnd⟩
      · exact .inl ⟨hCycle, hNext.trans hEnd⟩
      · rw [hNames, List.append_assoc] at hEnd
        exact .inr ⟨hNone, hNext.trans hEnd⟩

end Search

section Outcomes

variable {O : Type} {h : Hierarchy O} {t : String} {d : Nat}

/-- The steps within which the search for the ancestors of a type ends: one for each of its own
supertypes, one for each supertype of a declared type, and one to notice that the queue is empty. -/
def searchSteps (h : Hierarchy O) (t : String) : Nat :=
  (h.supertypes t).length + ∑ s ∈ (h.map TypeDeclaration.name).toFinset, (h.supertypes s).length + 1

theorem remaining_start : (Search.start h t).remaining h = h.searchSteps t := by
  simp [Search.start, Search.remaining, Search.unexplored, searchSteps]

/-- Searching by a queue ends with what searching level by level finds, or with a cycle. -/
theorem leads_start (closed : h.Closed) (t : String) :
    Search.Leads h t (.start h t)
      (.ended (if h.isAbove t t then .error (.inheritanceCycle t) else .ok (h.ancestors t))) := by
  have hSearch : Searched h t 0 (([] : List (String × Nat)).map Prod.fst) [t] := searched_start
  have hLevels := Search.leads_levels closed hSearch List.not_mem_nil (Nat.le_add_left h.length 0)
  rw [List.flatMap_singleton] at hLevels
  rcases hLevels with ⟨hCycle, hEnd⟩ | ⟨hNone, hEnd⟩
  · rw [if_pos ((isAbove_iff closed).mpr hCycle)]
    exact hEnd
  · rw [if_neg (fun hAbove => hNone ((isAbove_iff closed).mp hAbove))]
    exact hEnd

/-- Types are found in the order of their distances. -/
theorem pairwise_ancestorsAbove {found level : List String} (hSearch : Searched h t d found level)
    (fuel : Nat) : (h.ancestorsAbove fuel (d + 1) found level).Pairwise fun a b => a.2 ≤ b.2 := by
  induction fuel generalizing d found level with
  | zero => exact .nil
  | succ fuel ih =>
      rw [ancestorsAbove, List.pairwise_append]
      refine ⟨?_, ih hSearch.next, ?_⟩
      · exact List.pairwise_map.mpr (List.pairwise_of_forall fun _ _ => Nat.le_refl _)
      · intro a ha b hb
        obtain ⟨s, _, rfl⟩ := List.mem_map.mp ha
        have hLess := ((mem_ancestorsAbove hSearch.next).mp hb).1
        exact Nat.le_of_lt hLess

/-- The types that are found are the ancestors. -/
theorem mem_names_ancestors (closed : h.Closed) {s : String} :
    s ∈ (h.ancestors t).map Prod.fst ↔ IsAncestor h.supertypes t s := by
  constructor
  · intro hs
    obtain ⟨⟨u, n⟩, hMem, rfl⟩ := List.mem_map.mp hs
    exact ((mem_ancestors closed).mp hMem).isAncestor
  · intro hAncestor
    obtain ⟨n, hDistance⟩ := hAncestor.exists_distance
    exact List.mem_map.mpr ⟨(s, n), (mem_ancestors closed).mpr hDistance, rfl⟩

/-- The search for the ancestors of a type ends on every hierarchy of declared types, also where types
inherit from themselves or are reached in many ways. It reports a cycle exactly if the type is reached
from itself. Otherwise it finds every type that is reached by one edge or more exactly once, each with
the length of a shortest path, in the order of these lengths. -/
theorem search_ends (closed : h.Closed) (t : String) :
    (∀ k, h.searchSteps t ≤ k → (Search.step h t)^[k] (.start h t) =
      .ended (if h.isAbove t t then .error (.inheritanceCycle t) else .ok (h.ancestors t))) ∧
    (h.isAbove t t = true ↔ IsAncestor h.supertypes t t) ∧
    ((h.ancestors t).map Prod.fst).Nodup ∧
    (∀ s, s ∈ (h.ancestors t).map Prod.fst ↔ IsAncestor h.supertypes t s) ∧
    (∀ s n, (s, n) ∈ h.ancestors t ↔ IsDistance h.supertypes t s n) ∧
    (h.ancestors t).Pairwise fun a b => a.2 ≤ b.2 :=
  ⟨fun _ hk => (leads_start closed t).iterate_eq (remaining_start.trans_le hk), isAbove_iff closed,
    nodup_ancestors h t, fun _ => mem_names_ancestors closed, fun _ _ => mem_ancestors closed,
    pairwise_ancestorsAbove searched_start _⟩

/-- A hierarchy is closed if its declarations are. -/
theorem closed_of_declarations
    (declared : ∀ d ∈ h, ∀ s ∈ d.supertypes, s ∈ h.map TypeDeclaration.name) : h.Closed := by
  intro t s hs
  rw [supertypes] at hs
  split at hs
  next d hFound => exact declared d (List.mem_of_find?_eq_some hFound) s hs
  next => exact absurd hs List.not_mem_nil

/-- A house that inherits from a wall in two ways, one of them written twice, and from a gate that
inherits from itself through a fence. -/
def estate : Hierarchy Empty :=
  [⟨"House", ["Stone", "Brick", "Stone", "Gate"], [], true, true⟩,
    ⟨"Stone", ["Wall"], [], true, true⟩, ⟨"Brick", ["Wall"], [], true, true⟩,
    ⟨"Wall", [], [], true, true⟩, ⟨"Gate", ["Fence"], [], true, true⟩,
    ⟨"Fence", ["Gate", "Wall"], [], true, true⟩]

theorem search_ends_estate :
    estate.Closed ∧
    (∀ k, 14 ≤ k → (Search.step estate "House")^[k] (.start estate "House") = .ended (.ok
      [("Stone", 1), ("Brick", 1), ("Gate", 1), ("Wall", 2), ("Fence", 2)])) ∧
    ∀ k, 11 ≤ k → (Search.step estate "Gate")^[k] (.start estate "Gate") =
      .ended (.error (.inheritanceCycle "Gate")) := by
  have closed : estate.Closed := closed_of_declarations (by decide)
  have hHouse : estate.searchSteps "House" = 14 := by decide
  have hGate : estate.searchSteps "Gate" = 11 := by decide
  exact ⟨closed, fun k hk => (search_ends closed "House").1 k (hHouse.trans_le hk),
    fun k hk => (search_ends closed "Gate").1 k (hGate.trans_le hk)⟩

end Outcomes

end GatedQuery.Hierarchy
