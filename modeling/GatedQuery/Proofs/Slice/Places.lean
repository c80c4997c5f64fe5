import GatedQuery.Solve.Step
import Mathlib.Tactic.Linarith
import Mathlib.Tactic.Ring

/-! The places that a slice selects. They are found with 64-bit integers, and are compared here with
the sequence that the bounds and the step describe over all integers. No sum that is taken on the way
leaves the range of the words, but for the last one of a walk, which is then past the end. -/

namespace GatedQuery

namespace Slice

def lowest (step : Int) : Int :=
  if step < 0 then -1 else 0

def highest (len step : Int) : Int :=
  if step < 0 then len - 1 else len

/-- The place of a bound: a negative one is counted from the end, and one outside of the sequence is
moved to its edge. -/
def boundPlace (len step bound : Int) : Int :=
  max (lowest step) (min (if bound < 0 then bound + len else bound) (highest len step))

/-- Where a slice starts. Without a bound it is the edge that the walk comes from. -/
def startPlace (len step : Int) : Option Int → Int
  | some bound => boundPlace len step bound
  | none => if step < 0 then highest len step else lowest step

/-- Where a slice stops. Without a bound it is the edge that the walk goes to. -/
def stopPlace (len step : Int) : Option Int → Int
  | some bound => boundPlace len step bound
  | none => if step < 0 then lowest step else highest len step

/-- Whether a place lies strictly before another one in the direction of a step. -/
def Before (step i stop : Int) : Prop :=
  0 < step ∧ i < stop ∨ step < 0 ∧ stop < i

/-- The places `i`, `i + step`, `i + 2 * step`, … as long as they lie before `stop`. -/
structure Progression (step stop i : Int) (places : List Int) : Prop where
  terms : places = (List.range places.length).map fun k : Nat => i + k * step
  before : ∀ j ∈ places, Before step j stop
  ended : ¬ Before step (i + places.length * step) stop

namespace Progression

variable {step stop i : Int} {places : List Int}

theorem nil (h : ¬ Before step i stop) : Progression step stop i [] where
  terms := rfl
  before := fun j hj => absurd hj List.not_mem_nil
  ended := by simpa using h

theorem cons (h : Before step i stop) (more : Progression step stop (i + step) places) :
    Progression step stop i (i :: places) where
  terms := by
    rw [List.length_cons, List.range_succ_eq_map, List.map_cons, List.map_map]
    have hFirst : i + ((0 : Nat) : Int) * step = i := by simp
    have hRest : (fun k : Nat => i + step + k * step) = (fun k : Nat => i + k * step) ∘ Nat.succ := by
      funext k
      simp only [Function.comp_apply, Nat.succ_eq_add_one]
      push_cast
      ring
    rw [hFirst, ← hRest, ← more.terms]
  before := List.forall_mem_cons.mpr ⟨h, more.before⟩
  ended := by
    have hLast : i + ((i :: places).length : Int) * step = i + step + places.length * step := by
      rw [List.length_cons]
      push_cast
      ring
    rw [hLast]
    exact more.ended

end Progression

theorem toInt_max (a b : Int64) : (max a b).toInt = max a.toInt b.toInt := by
  change (if a ≤ b then b else a).toInt = _
  rw [Int.max_def]
  simp only [Int64.le_iff_toInt_le]
  split <;> rfl

theorem toInt_min (a b : Int64) : (min a b).toInt = min a.toInt b.toInt := by
  change (if a ≤ b then a else b).toInt = _
  rw [Int.min_def]
  simp only [Int64.le_iff_toInt_le]
  split <;> rfl

/-- A length that fits 64 bits is kept. -/
theorem toInt_lengthWord {len : Nat} (fits : (len : Int) ≤ Int64.maxValue.toInt) :
    (lengthWord len).toInt = len := by
  rw [lengthWord, if_pos fits]
  rw [Int64.toInt_maxValue] at fits
  exact Int64.toInt_ofNat_of_lt (by omega)

/-- A negative bound is counted from the end without leaving the range. -/
theorem toInt_add_length {n b : Int64} (length : 0 ≤ n.toInt) (negative : b.toInt < 0) :
    (b + n).toInt = b.toInt + n.toInt := by
  have hLow := b.le_toInt
  have hHigh := n.toInt_lt
  rw [Int64.toInt_add]
  exact Int.bmod_eq_of_le (by norm_num; omega) (by norm_num; omega)

theorem toInt_length_sub_one {n : Int64} (length : 0 ≤ n.toInt) : (n - 1).toInt = n.toInt - 1 := by
  have hHigh := n.toInt_lt
  rw [Int64.toInt_sub, Int64.toInt_one]
  exact Int.bmod_eq_of_le (by norm_num; omega) (by norm_num; omega)

/-- A sum that is given did not overflow. -/
theorem add?_eq_some {a b c : Int64} (h : add? a b = some c) : c.toInt = a.toInt + b.toInt := by
  unfold add? at h
  dsimp only at h
  split at h
  next hRange =>
    obtain rfl := Option.some.inj h
    simp only [Bool.and_eq_true, decide_eq_true_eq, Int64.toInt_minValue,
      Int64.toInt_maxValue] at hRange
    rw [Int64.toInt_add]
    exact Int.bmod_eq_of_le (by norm_num; omega) (by norm_num; omega)
  next => cases h

/-- A sum that is not taken lies outside of the range. -/
theorem add?_eq_none {a b : Int64} (h : add? a b = none) :
    a.toInt + b.toInt < -2 ^ 63 ∨ 2 ^ 63 ≤ a.toInt + b.toInt := by
  unfold add? at h
  dsimp only at h
  split at h
  next => cases h
  next hRange =>
    simp only [Bool.and_eq_true, decide_eq_true_eq, Int64.toInt_minValue,
      Int64.toInt_maxValue] at hRange
    omega

section Bounds

variable {n : Int64} (step : Int64)

/-- The edges of a walk are computed without overflow. -/
theorem toInt_edges (length : 0 ≤ n.toInt) :
    (edges n step).1.toInt = lowest step.toInt ∧
      (edges n step).2.toInt = highest n.toInt step.toInt := by
  have hStep : (step < 0) = (step.toInt < 0) := by
    rw [Int64.lt_iff_toInt_lt, Int64.toInt_zero]
  unfold edges lowest highest
  simp only [hStep]
  split
  · exact ⟨rfl, toInt_length_sub_one length⟩
  · exact ⟨rfl, rfl⟩

/-- A bound is clamped as integers would be. -/
theorem toInt_clamp (length : 0 ≤ n.toInt) (bound : Int64) :
    (clamp n (edges n step).1 (edges n step).2 bound).toInt =
      boundPlace n.toInt step.toInt bound.toInt := by
  obtain ⟨hLower, hUpper⟩ := toInt_edges step length
  unfold clamp boundPlace
  simp only [Int64.lt_iff_toInt_lt, Int64.toInt_zero]
  split
  next negative =>
    rw [toInt_max, toInt_add_length length negative, hLower]
    unfold highest
    split <;> omega
  next =>
    rw [toInt_min, hUpper]
    unfold lowest highest
    split <;> omega

/-- The place where a slice starts is the one that integers give. -/
theorem toInt_first (length : 0 ≤ n.toInt) (start : Option Int64) :
    (first n step start).toInt = startPlace n.toInt step.toInt (start.map Int64.toInt) := by
  obtain ⟨hLower, hUpper⟩ := toInt_edges step length
  cases start with
  | some bound => exact toInt_clamp step length bound
  | none =>
      simp only [first, startPlace, Option.map_none, Int64.lt_iff_toInt_lt, Int64.toInt_zero]
      split
      · exact hUpper
      · exact hLower

/-- The place where a slice stops is the one that integers give. -/
theorem toInt_last (length : 0 ≤ n.toInt) (stop : Option Int64) :
    (last n step stop).toInt = stopPlace n.toInt step.toInt (stop.map Int64.toInt) := by
  obtain ⟨hLower, hUpper⟩ := toInt_edges step length
  cases stop with
  | some bound => exact toInt_clamp step length bound
  | none =>
      simp only [last, stopPlace, Option.map_none, Int64.lt_iff_toInt_lt, Int64.toInt_zero]
      split
      · exact hLower
      · exact hUpper

end Bounds

/-- A bound is clamped to the places that a walk can be at. -/
theorem boundPlace_bounds (len : Nat) (step bound : Int) :
    lowest step ≤ boundPlace len step bound ∧ boundPlace len step bound ≤ highest len step := by
  unfold boundPlace lowest highest
  split <;> omega

theorem startPlace_bounds (len : Nat) (step : Int) (start : Option Int) :
    lowest step ≤ startPlace len step start ∧ startPlace len step start ≤ highest len step := by
  cases start with
  | some bound => exact boundPlace_bounds len step bound
  | none =>
      simp only [startPlace, lowest, highest]
      split <;> omega

theorem stopPlace_bounds (len : Nat) (step : Int) (stop : Option Int) :
    lowest step ≤ stopPlace len step stop ∧ stopPlace len step stop ≤ highest len step := by
  cases stop with
  | some bound => exact boundPlace_bounds len step bound
  | none =>
      simp only [stopPlace, lowest, highest]
      split <;> omega

/-- Whether a walk goes on. -/
theorem walks_on_iff {step i stop : Int64} :
    ((decide (0 < step) && decide (i < stop)) || (decide (step < 0) && decide (stop < i))) = true ↔
      Before step.toInt i.toInt stop.toInt := by
  simp only [Before, Bool.or_eq_true, Bool.and_eq_true, decide_eq_true_eq, Int64.lt_iff_toInt_lt,
    Int64.toInt_zero]

/-- A walk that has as many steps left as there are places before its end is cut short by nothing but
that end: where a sum would leave the range, it is past the end as well. -/
theorem walk_progression {step stop i : Int64} {fuel : Nat}
    (forward : 0 < step.toInt → 0 ≤ i.toInt ∧ stop.toInt - i.toInt ≤ fuel)
    (backward : step.toInt < 0 → -1 ≤ stop.toInt ∧ i.toInt - stop.toInt ≤ fuel) :
    Progression step.toInt stop.toInt i.toInt ((walk step stop fuel i).map Int.ofNat) := by
  induction fuel generalizing i with
  | zero =>
      apply Progression.nil
      unfold Before
      omega
  | succ fuel ih =>
      unfold walk
      by_cases hOn : Before step.toInt i.toInt stop.toInt
      · rw [if_pos (walks_on_iff.mpr hOn), List.map_cons]
        have hPlace : Int.ofNat i.toInt.toNat = i.toInt := by
          refine Int.toNat_of_nonneg ?_
          unfold Before at hOn
          omega
        rw [hPlace]
        apply Progression.cons hOn
        cases hNext : add? i step with
        | none =>
            have hOutside := add?_eq_none hNext
            have hLow := i.le_toInt
            have hHigh := i.toInt_lt
            have hStopLow := stop.le_toInt
            have hStopHigh := stop.toInt_lt
            apply Progression.nil
            unfold Before
            omega
        | some next =>
            have hSum := add?_eq_some hNext
            rw [← hSum]
            apply ih <;> omega
      · rw [if_neg fun h => hOn (walks_on_iff.mp h)]
        exact .nil hOn

/-- The places of a slice are a progression from its first place on: the fuel does not run out, and
an overflow only happens past the stop. -/
theorem indices_progression {len : Nat} (fits : (len : Int) ≤ Int64.maxValue.toInt)
    (start stop : Option Int64) (step : Int64) :
    Progression step.toInt (stopPlace len step.toInt (stop.map Int64.toInt))
      (startPlace len step.toInt (start.map Int64.toInt))
      ((indices len start stop step).map Int.ofNat) := by
  have hLength := toInt_lengthWord fits
  have hNonneg : 0 ≤ (lengthWord len).toInt := by omega
  have hFirst := toInt_first step hNonneg start
  have hLast := toInt_last step hNonneg stop
  rw [hLength] at hFirst hLast
  have hStart := startPlace_bounds len step.toInt (start.map Int64.toInt)
  have hStop := stopPlace_bounds len step.toInt (stop.map Int64.toInt)
  unfold lowest highest at hStart hStop
  rw [← hFirst, ← hLast]
  apply walk_progression
  · intro h
    rw [hFirst, hLast, hLength]
    rw [if_neg (by omega), if_neg (by omega)] at hStart hStop
    omega
  · intro h
    rw [hFirst, hLast, hLength]
    rw [if_pos h, if_pos h] at hStart hStop
    omega

/-- A slice selects places within the list only. -/
theorem lt_of_mem_indices {len : Nat} (fits : (len : Int) ≤ Int64.maxValue.toInt)
    {start stop : Option Int64} {step : Int64} {i : Nat}
    (h : i ∈ indices len start stop step) : i < len := by
  obtain ⟨hTerms, hBefore, _⟩ := indices_progression fits start stop step
  have hPlace : (i : Int) ∈ (indices len start stop step).map Int.ofNat :=
    List.mem_map.mpr ⟨i, h, rfl⟩
  have hStart := startPlace_bounds len step.toInt (start.map Int64.toInt)
  have hStop := stopPlace_bounds len step.toInt (stop.map Int64.toInt)
  unfold highest at hStart hStop
  rcases hBefore i hPlace with ⟨hForward, hEnd⟩ | ⟨hBackward, _⟩
  · rw [if_neg (by omega)] at hStop
    omega
  · -- a walk backwards never goes above the place where it starts
    rw [hTerms] at hPlace
    obtain ⟨k, _, hk⟩ := List.mem_map.mp hPlace
    have hBelow : (k : Int) * step.toInt ≤ 0 :=
      mul_nonpos_of_nonneg_of_nonpos (Int.natCast_nonneg k) (by omega)
    rw [if_pos hBackward] at hStart
    omega

variable {α β : Type}

/-- Slicing goes by places and not by what stands there. -/
theorem select_map (f : α → β) (items : List α) (start stop : Option Int64) (step : Int64) :
    select (items.map f) start stop step = (select items start stop step).map f := by
  simp only [select, List.length_map, List.getElem?_map, List.map_filterMap]

/-- Every place that a slice selects has an item. -/
theorem map_some_select {items : List α} (fits : (items.length : Int) ≤ Int64.maxValue.toInt)
    (start stop : Option Int64) (step : Int64) :
    (select items start stop step).map some =
      (indices items.length start stop step).map fun i => items[i]? := by
  have hFound : ∀ i ∈ indices items.length start stop step, (items[i]?).isSome = true := by
    intro i hi
    rw [List.getElem?_eq_getElem (lt_of_mem_indices fits hi)]
    rfl
  unfold select
  generalize indices items.length start stop step = places at hFound
  induction places with
  | nil => rfl
  | cons i places ih =>
      obtain ⟨hFirst, hMore⟩ := List.forall_mem_cons.mp hFound
      obtain ⟨x, hx⟩ := Option.isSome_iff_exists.mp hFirst
      rw [List.filterMap_cons_some hx, List.map_cons, List.map_cons, ih hMore, hx]

end Slice

namespace Value

variable {O : Type} [Backend O]

/-- A slice of anything with items succeeds, and its items are the ones that are selected. -/
theorem exists_slice {v : Value O} {items : List (Value O)} (h : v.subscripts = some items)
    (start stop : Option Int64) (step : Int64) (p : Position) :
    ∃ w, v.slice start stop step p = .ok w ∧
      w.subscripts = some (Slice.select items start stop step) := by
  cases v with
  | string s =>
      obtain rfl := Option.some.inj h
      refine ⟨_, rfl, ?_⟩
      rw [subscripts, String.toList_ofList, Slice.select_map]
  | list items' =>
      obtain rfl := Option.some.inj h
      exact ⟨_, rfl, rfl⟩
  | object o =>
      have hElements : Value.subscripts (.object o) = some items := h
      exact ⟨.list (Slice.select items start stop step), by simp only [slice, hElements], rfl⟩
  | _ => cases h

end Value

namespace Slice

/-- A slice selects the sequence that its bounds and its step describe. Neither the length nor a
bound that is counted from the end leaves the range of 64-bit integers on the way, and where the sum
of a place and the step would leave it, the walk is past its end. Every place that is selected has an
item, in a list as well as in a string or among the elements of an object. -/
theorem indices_exact {len : Nat} (fits : (len : Int) ≤ Int64.maxValue.toInt)
    (start stop : Option Int64) (step : Int64) :
    (lengthWord len - 1).toInt = len - 1 ∧
      (∀ bound : Int64, bound < 0 → (bound + lengthWord len).toInt = bound.toInt + len) ∧
      Progression step.toInt (stopPlace len step.toInt (stop.map Int64.toInt))
        (startPlace len step.toInt (start.map Int64.toInt))
        ((indices len start stop step).map Int.ofNat) ∧
      (∀ i ∈ indices len start stop step, i < len) ∧
      ∀ (O : Type) [Backend O] (v : Value O) (items : List (Value O)) (p : Position),
        v.subscripts = some items → items.length = len →
          ∃ w selected, v.slice start stop step p = .ok w ∧ w.subscripts = some selected ∧
            selected.map some = (indices len start stop step).map fun i => items[i]? := by
  have hLength := toInt_lengthWord fits
  have hNonneg : 0 ≤ (lengthWord len).toInt := by omega
  refine ⟨?_, fun bound negative => ?_, indices_progression fits start stop step,
    fun i hi => lt_of_mem_indices fits hi, ?_⟩
  · rw [toInt_length_sub_one hNonneg, hLength]
  · rw [Int64.lt_iff_toInt_lt, Int64.toInt_zero] at negative
    rw [toInt_add_length hNonneg negative, hLength]
  · rintro O _ v items p hItems rfl
    obtain ⟨w, hSlice, hSelected⟩ := v.exists_slice hItems start stop step p
    exact ⟨w, _, hSlice, hSelected, map_some_select fits start stop step⟩

/-- The greatest step of all is taken once, and its sum is never formed. -/
theorem indices_exact_greatestStep :
    ((5 : Nat) : Int) ≤ Int64.maxValue.toInt ∧
      indices 5 (some (-4)) none Int64.maxValue = [1] ∧
      Progression Int64.maxValue.toInt 5 1 [1] := by
  have hFits : ((5 : Nat) : Int) ≤ Int64.maxValue.toInt := by decide
  exact ⟨hFits, by decide, (indices_exact hFits (some (-4)) none Int64.maxValue).2.2.1⟩

end Slice

end GatedQuery
