import GatedQuery.Decimal.Shortest
import GatedQuery.Proofs.Decimal.Scientific
import Mathlib.Data.Nat.Cast.Order.Field

/-! The shortest decimal of a double rounds to the double. The decimals that are tried lie in the
interval of numbers that round to it, and with seventeen digits one of the two neighbours of the
double always does, as their distance is less than the length of the interval. -/

namespace GatedQuery

def Decimal.value (d : Decimal) : ℚ :=
  d.digits * 10 ^ d.exponent

theorem Decimal.value_nonneg (d : Decimal) : 0 ≤ d.value := by
  rw [value]
  positivity

theorem ten_zpow_of_nonneg {k : Int} (h : 0 ≤ k) : (10 : ℚ) ^ k = (Nat.pow 10 k.toNat : Nat) := by
  obtain ⟨n, rfl⟩ := Int.eq_ofNat_of_zero_le h
  rw [Int.toNat_natCast, zpow_natCast]
  exact_mod_cast rfl

theorem ten_zpow_of_neg {k : Int} (h : ¬ 0 ≤ k) :
    (10 : ℚ) ^ k = 1 / (Nat.pow 10 (-k).toNat : Nat) := by
  rw [← ten_zpow_of_nonneg (by omega : 0 ≤ -k), zpow_neg, one_div, inv_inv]

theorem ten_pow_pos (n : Nat) : (0 : ℚ) < (Nat.pow 10 n : Nat) := by
  have hPos : 0 < 10 ^ n := by positivity
  exact_mod_cast hPos

/-- The comparison multiplies by powers of ten on either side, and so never divides. -/
theorem Decimal.scaledLE_iff (a : Nat) (k : Int) (b : Nat) :
    Decimal.scaledLE a k b = true ↔ (a : ℚ) * 10 ^ k ≤ b := by
  rw [Decimal.scaledLE]
  split
  · rename_i hWhole
    rw [ten_zpow_of_nonneg hWhole, decide_eq_true_iff]
    exact_mod_cast Iff.rfl
  · rename_i hFraction
    rw [ten_zpow_of_neg hFraction, mul_one_div, div_le_iff₀ (ten_pow_pos _), decide_eq_true_iff]
    exact_mod_cast Iff.rfl

/-- The leading digit of a number is not beyond the number. -/
theorem Decimal.ten_zpow_leadingExponent_le {num den : Nat} (hNum : 0 < num) (hDen : 0 < den) :
    (10 : ℚ) ^ leadingExponent num den ≤ num / den := by
  have hPos : (0 : ℚ) < den := by exact_mod_cast hDen
  rw [le_div_iff₀ hPos, leadingExponent]
  split
  · rename_i hLarge
    rw [mul_comm]
    exact (scaledLE_iff _ _ _).mp hLarge
  · have hLow := ten_zpow_le_natCast_mul hNum 0
    have hHigh := natCast_mul_ten_zpow_lt den 0
    rw [zpow_zero, mul_one, zero_add] at hLow hHigh
    calc
      (10 : ℚ) ^ ((digitCount num : Int) - digitCount den - 1) * den ≤
          10 ^ ((digitCount num : Int) - digitCount den - 1) * 10 ^ (digitCount den : Int) :=
        mul_le_mul_of_nonneg_left hHigh.le (by positivity)
      _ = 10 ^ ((digitCount num : Int) - 1) := by
        rw [← zpow_add₀ (by norm_num)]
        congr 1
        omega
      _ ≤ num := hLow

/-- Leaving zeros at the end out does not change the number. -/
theorem Decimal.value_trimZeros (fuel : Nat) (d : Decimal) : (d.trimZeros fuel).value = d.value := by
  induction fuel generalizing d with
  | zero => rfl
  | succ fuel ih =>
      rw [trimZeros]
      split
      · rename_i hZero
        rw [ih, value, value]
        have hDigits : d.digits = d.digits / 10 * 10 := by
          have hRest : d.digits % 10 = 0 := by simpa using (Bool.and_eq_true_iff.mp hZero).1
          omega
        conv_rhs => rw [hDigits]
        dsimp only
        rw [zpow_add₀ (by norm_num)]
        push_cast
        ring
      · rfl

namespace RoundingInterval

/-- Whether a number lies in the interval. -/
def Contains (i : RoundingInterval) (q : ℚ) : Prop :=
  if i.closed then i.low ≤ q * i.denominator ∧ q * i.denominator ≤ i.high
  else i.low < q * i.denominator ∧ q * i.denominator < i.high

/-- The test for an interval is exact. -/
theorem holds_iff (i : RoundingInterval) (digits : Nat) (k : Int) :
    i.holds digits k = true ↔ i.Contains (digits * 10 ^ k) := by
  obtain ⟨num, den, hParts, hPos, hValue⟩ : ∃ num den : Nat,
      (if 0 ≤ k then (digits * Nat.pow 10 k.toNat, 1) else (digits, Nat.pow 10 (-k).toNat)) =
        (num, den) ∧ (0 : ℚ) < den ∧ (digits : ℚ) * 10 ^ k = num / den := by
    by_cases hWhole : 0 ≤ k
    · refine ⟨_, _, if_pos hWhole, by norm_num, ?_⟩
      rw [ten_zpow_of_nonneg hWhole, Nat.cast_one, div_one]
      push_cast
      rfl
    · refine ⟨_, _, if_neg hWhole, ten_pow_pos _, ?_⟩
      rw [ten_zpow_of_neg hWhole, mul_one_div]
  rw [holds, hParts, hValue, Contains, div_mul_eq_mul_div, le_div_iff₀ hPos, div_le_iff₀ hPos,
    lt_div_iff₀ hPos, div_lt_iff₀ hPos]
  dsimp only
  split
  · rw [Bool.and_eq_true, decide_eq_true_iff, decide_eq_true_iff]
    exact_mod_cast Iff.rfl
  · rw [Bool.and_eq_true, decide_eq_true_iff, decide_eq_true_iff]
    exact_mod_cast Iff.rfl

variable {i : RoundingInterval}

/-- The neighbours of the value on a grid. What is found on the grid lies in the interval, and if
nothing is found, then none of the two lies there. -/
theorem onGrid?_cases (pos : 0 < i.denominator) (tieUp : Nat → Bool) (lead : Int) (count : Nat) :
    ∃ floor : Nat, (floor : ℚ) * 10 ^ (lead - count + 1) ≤ i.value / i.denominator ∧
      (i.value : ℚ) / i.denominator < (floor + 1 : Nat) * 10 ^ (lead - count + 1) ∧
      ((∃ d, i.onGrid? tieUp lead count = some d ∧ i.Contains d.value) ∨
        (i.onGrid? tieUp lead count = none ∧
          ¬ i.Contains (floor * 10 ^ (lead - count + 1)) ∧
          ¬ i.Contains ((floor + 1 : Nat) * 10 ^ (lead - count + 1)))) := by
  rw [onGrid?]
  generalize lead - count + 1 = k
  obtain ⟨num, den, hParts, hDen, hValue⟩ : ∃ num den : Nat,
      (if 0 ≤ k then (i.value, i.denominator * Nat.pow 10 k.toNat)
        else (i.value * Nat.pow 10 (-k).toNat, i.denominator)) = (num, den) ∧ 0 < den ∧
        (i.value : ℚ) / i.denominator = num / den * 10 ^ k := by
    by_cases hWhole : 0 ≤ k
    · refine ⟨_, _, if_pos hWhole, Nat.mul_pos pos (Nat.pow_pos (by decide)), ?_⟩
      have hPower := ten_pow_pos k.toNat
      rw [ten_zpow_of_nonneg hWhole]
      push_cast
      field_simp
    · refine ⟨_, _, if_neg hWhole, pos, ?_⟩
      have hPower := ten_pow_pos (-k).toNat
      rw [ten_zpow_of_neg hWhole]
      push_cast
      field_simp
  rw [hParts]
  dsimp only
  refine ⟨num / den, ?_, ?_, ?_⟩
  · rw [hValue]
    exact mul_le_mul_of_nonneg_right Nat.cast_div_le (by positivity)
  · obtain ⟨_, hRest⟩ := mod_div_bounds num hDen
    rw [hValue, natCast_div_eq_add num hDen]
    refine mul_lt_mul_of_pos_right ?_ (by positivity)
    push_cast
    linarith
  · generalize num / den = floor
    rw [← holds_iff, ← holds_iff]
    cases hLow : i.holds floor k <;> cases hHigh : i.holds (floor + 1) k
    · exact .inr ⟨rfl, Bool.false_ne_true, Bool.false_ne_true⟩
    · exact .inl ⟨_, rfl, (holds_iff i _ k).mp hHigh⟩
    · exact .inl ⟨_, rfl, (holds_iff i _ k).mp hLow⟩
    · refine .inl ⟨_, rfl, ?_⟩
      rw [Decimal.value, ← holds_iff]
      dsimp only
      split <;> assumption

/-- A search that reaches a grid on which something is found ends with a decimal in the interval. -/
theorem exists_search (pos : 0 < i.denominator) (tieUp : Nat → Bool) (lead : Int) (fuel count : Nat)
    (last : i.onGrid? tieUp lead (count + fuel) ≠ none) :
    ∃ d, i.search tieUp lead (fuel + 1) count = some d ∧ i.Contains d.value := by
  induction fuel generalizing count with
  | zero =>
      obtain ⟨_, _, _, ⟨d, hGrid, hContains⟩ | ⟨hGrid, _⟩⟩ := onGrid?_cases pos tieUp lead count
      · exact ⟨d, by rw [search, hGrid]; rfl, hContains⟩
      · exact absurd hGrid last
  | succ fuel ih =>
      rw [search]
      obtain ⟨_, _, _, ⟨d, hGrid, hContains⟩ | ⟨hGrid, _⟩⟩ := onGrid?_cases pos tieUp lead count
      · exact ⟨d, by rw [hGrid]; rfl, hContains⟩
      · rw [add_comm fuel, ← add_assoc] at last
        rw [hGrid]
        exact ih (count + 1) last

end RoundingInterval

namespace Dyadic

/-- How far below a double the numbers reach that round to it, in units of its last place. -/
def reach (d : Dyadic) : ℚ :=
  if d.significand = 2 ^ 52 ∧ -1074 < d.exponent then 1 / 4 else 1 / 2

theorem reach_le (d : Dyadic) : d.reach ≤ 1 / 2 := by
  rw [reach]
  split <;> norm_num

/-- The numbers about a double that are near enough to it, in units of its last place. The ends of
the interval count when the significand is even. -/
structure Near (d : Dyadic) (x : ℚ) : Prop where
  low : d.significand - d.reach ≤ x
  high : x ≤ d.significand + 1 / 2
  inside : d.significand % 2 = 1 → d.significand - d.reach < x ∧ x < d.significand + 1 / 2

/-- What is near a double in units of its last place rounds to its significand. -/
theorem Near.nearestEven {d : Dyadic} {x : ℚ} (near : d.Near x) : NearestEven x d.significand := by
  have hReach := d.reach_le
  have hLow := near.low
  have hHigh := near.high
  refine ⟨abs_le.mpr ⟨by linarith, by linarith⟩, fun hTie => ?_⟩
  by_contra hOdd
  obtain ⟨hLess, hMore⟩ := near.inside (by omega)
  have hClose : |x - d.significand| < 1 / 2 := abs_lt.mpr ⟨by linarith, by linarith⟩
  exact hClose.ne hTie

/-- Numbers that are near enough to a double but not in its binade are near to a power of two. -/
theorem Near.below {d : Dyadic} (canonical : IsCanonical d.significand d.exponent) {x : ℚ}
    (near : d.Near x) (below : x < 2 ^ 52) (normal : d.exponent ≠ -1074) :
    d.significand = 2 ^ 52 ∧ 2 ^ 52 - 1 / 4 ≤ x := by
  have hLow := near.low
  have hReach := d.reach_le
  have hPower : d.significand = 2 ^ 52 := by
    have hBound : (d.significand : ℚ) < 2 ^ 52 + 1 := by linarith
    have hBelow : d.significand < 2 ^ 52 + 1 := by exact_mod_cast hBound
    have hAbove := canonical.normal.resolve_right normal
    omega
  have hLeast := canonical.least
  have hSignificand : (d.significand : ℚ) = 2 ^ 52 := by exact_mod_cast hPower
  rw [reach, if_pos ⟨hPower, by omega⟩, hSignificand] at hLow
  exact ⟨hPower, hLow⟩

/-- A number rounds to a double that is near enough to it. -/
theorem roundsTo_of_near {d : Dyadic} (canonical : IsCanonical d.significand d.exponent) {x : ℚ}
    (near : d.Near x) : RoundsTo (x * 2 ^ d.exponent) d.magnitude := by
  by_cases hFull : 2 ^ 52 ≤ x ∨ d.exponent = -1074
  · have hShort : (d.significand : ℚ) + 1 ≤ 2 ^ 53 := by exact_mod_cast canonical.lt
    have hHigh := near.high
    exact .of_units canonical.least hFull (by linarith) near.nearestEven
  · -- The number lies in the binade below the double, where the units are half as large.
    obtain ⟨hLess, hNormal⟩ := not_or.mp hFull
    obtain ⟨hPower, hLow⟩ := near.below canonical (not_le.mp hLess) hNormal
    have hLeast := canonical.least
    have hScale : x * 2 ^ d.exponent = 2 * x * 2 ^ (d.exponent - 1) := by
      rw [zpow_sub_one₀ (by norm_num)]
      ring
    have hValue : d.magnitude = (2 ^ 53 : Nat) * 2 ^ (d.exponent - 1) := by
      rw [magnitude, hPower, zpow_sub_one₀ (by norm_num)]
      push_cast
      ring
    rw [hScale, hValue]
    refine .of_units (by omega) (.inl (by linarith)) (by linarith) ⟨?_, fun _ => by decide⟩
    push_cast
    exact abs_le.mpr ⟨by linarith, by linarith⟩

theorem denominator_pos (d : Dyadic) : 0 < (RoundingInterval.ofDyadic d).denominator :=
  Nat.pow_pos (by decide)

/-- The interval of a double in units of its last place. -/
theorem ofDyadic_units {d : Dyadic} (pos : 0 < d.significand) :
    ∃ unit : ℚ, 0 < unit ∧
      2 ^ d.exponent * ((RoundingInterval.ofDyadic d).denominator : ℚ) = unit ∧
      ((RoundingInterval.ofDyadic d).low : ℚ) = (d.significand - d.reach) * unit ∧
      ((RoundingInterval.ofDyadic d).value : ℚ) = d.significand * unit ∧
      ((RoundingInterval.ofDyadic d).high : ℚ) = (d.significand + 1 / 2) * unit := by
  obtain ⟨scale, hScale⟩ : ∃ scale, Nat.pow 2 (d.exponent - 2).toNat = scale := ⟨_, rfl⟩
  obtain ⟨below, hBelow⟩ : ∃ below, (if d.significand == Nat.pow 2 52 && d.exponent > -1074 then 1
    else 2) = below := ⟨_, rfl⟩
  have hReach : (below : ℚ) = 4 * d.reach ∧ below ≤ 4 * d.significand := by
    rw [reach, ← hBelow]
    by_cases hPower : d.significand = 2 ^ 52 ∧ -1074 < d.exponent
    · rw [if_pos hPower, if_pos (by simpa using hPower)]
      exact ⟨by norm_num, by omega⟩
    · rw [if_neg hPower, if_neg (by simpa using hPower)]
      exact ⟨by norm_num, by omega⟩
  have hUnit : (2 : ℚ) ^ d.exponent * (Nat.pow 2 (2 - d.exponent).toNat : Nat) = 4 * scale := by
    have hExponents : d.exponent + ((2 - d.exponent).toNat : Int) =
        (d.exponent - 2).toNat + 2 := by omega
    have hPower (n : Nat) : ((Nat.pow 2 n : Nat) : ℚ) = 2 ^ (n : Int) := by
      rw [zpow_natCast]
      exact_mod_cast rfl
    rw [← hScale, hPower, hPower, ← zpow_add₀ (by norm_num), hExponents, zpow_add₀ (by norm_num)]
    ring
  have hPos : (0 : ℚ) < scale := by
    rw [← hScale]
    exact_mod_cast Nat.pow_pos (by decide)
  refine ⟨4 * scale, by positivity, hUnit, ?_, ?_, ?_⟩
  · rw [RoundingInterval.ofDyadic, hScale, hBelow]
    push_cast [Nat.cast_sub hReach.2]
    rw [hReach.1]
    ring
  · rw [RoundingInterval.ofDyadic, hScale]
    push_cast
    ring
  · rw [RoundingInterval.ofDyadic, hScale]
    push_cast
    ring

/-- The interval of a double holds the numbers that are near it. -/
theorem contains_ofDyadic {d : Dyadic} (pos : 0 < d.significand) (x : ℚ) :
    (RoundingInterval.ofDyadic d).Contains (x * 2 ^ d.exponent) ↔ d.Near x := by
  obtain ⟨unit, hUnit, hScale, hLow, _, hHigh⟩ := ofDyadic_units pos
  rw [RoundingInterval.Contains, mul_assoc, hScale, hLow, hHigh, mul_le_mul_iff_left₀ hUnit,
    mul_le_mul_iff_left₀ hUnit, mul_lt_mul_iff_left₀ hUnit, mul_lt_mul_iff_left₀ hUnit]
  have hClosed : (RoundingInterval.ofDyadic d).closed = (d.significand % 2 == 0) := rfl
  rw [hClosed]
  split
  · rename_i hEven
    have hWhole : d.significand % 2 = 0 := by simpa using hEven
    exact ⟨fun h => ⟨h.1, h.2, fun hOdd => by omega⟩, fun h => ⟨h.low, h.high⟩⟩
  · rename_i hOdd
    have hHalf : d.significand % 2 = 1 := by
      have hNot : ¬ d.significand % 2 = 0 := by simpa using hOdd
      omega
    exact ⟨fun h => ⟨h.1.le, h.2.le, fun _ => h⟩, fun h => h.inside hHalf⟩

/-- The interval of a double is around the double. -/
theorem value_ofDyadic {d : Dyadic} (pos : 0 < d.significand) :
    ((RoundingInterval.ofDyadic d).value : ℚ) / (RoundingInterval.ofDyadic d).denominator =
      d.magnitude := by
  obtain ⟨unit, hUnit, hScale, _, hValue, _⟩ := ofDyadic_units pos
  have hDenominator : (0 : ℚ) < (RoundingInterval.ofDyadic d).denominator := by
    exact_mod_cast d.denominator_pos
  rw [hValue, ← hScale, magnitude]
  field_simp

theorem Near.of_lt {d : Dyadic} {x : ℚ} (low : d.significand - d.reach < x)
    (high : x < d.significand + 1 / 2) : d.Near x :=
  ⟨low.le, high.le, fun _ => ⟨low, high⟩⟩

/-- Seventeen digits are always enough. The neighbours of a double on the grid are then so near to
each other that one of them rounds to it. -/
theorem onGrid?_seventeen {d : Dyadic} (canonical : IsCanonical d.significand d.exponent)
    (pos : 0 < d.significand) (tieUp : Nat → Bool) {lead : Int}
    (leading : (10 : ℚ) ^ lead ≤ d.magnitude) :
    (RoundingInterval.ofDyadic d).onGrid? tieUp lead 17 ≠ none := by
  intro hNone
  have hPos : (0 : ℚ) < 2 ^ d.exponent := by positivity
  obtain ⟨floor, hFloor, hNext, ⟨d', hSome, _⟩ | ⟨_, hBelow, hAbove⟩⟩ :=
    RoundingInterval.onGrid?_cases d.denominator_pos tieUp lead 17
  · rw [hNone] at hSome
    cases hSome
  rw [value_ofDyadic pos, magnitude] at hFloor hNext
  rw [magnitude] at leading
  obtain ⟨gap, hGap⟩ : ∃ gap : ℚ, (10 : ℚ) ^ (lead - (17 : Nat) + 1) = gap * 2 ^ d.exponent :=
    ⟨_, (div_mul_cancel₀ _ hPos.ne').symm⟩
  have hDigits : (10 : ℚ) ^ lead = 10 ^ 16 * gap * 2 ^ d.exponent := by
    have hExponent : lead = (16 : Nat) + (lead - (17 : Nat) + 1) := by omega
    rw [hExponent, zpow_add₀ (by norm_num), zpow_natCast, hGap, mul_assoc]
  rw [hDigits, mul_le_mul_iff_left₀ hPos] at leading
  rw [hGap, ← mul_assoc] at hFloor hNext hBelow hAbove
  rw [mul_le_mul_iff_left₀ hPos] at hFloor
  rw [mul_lt_mul_iff_left₀ hPos] at hNext
  rw [contains_ofDyadic pos] at hBelow hAbove
  have hReachPos : 0 < d.reach := by
    rw [reach]
    split <;> norm_num
  have hLow : floor * gap ≤ d.significand - d.reach :=
    not_lt.mp fun h => hBelow (.of_lt h (by linarith))
  have hHigh : d.significand + 1 / 2 ≤ (floor + 1 : Nat) * gap :=
    not_lt.mp fun h => hAbove (.of_lt (by linarith) h)
  have hWide : 1 / 2 + d.reach ≤ gap := by
    push_cast at hHigh
    linarith
  by_cases hPower : d.significand = 2 ^ 52 ∧ -1074 < d.exponent
  · have hReach : d.reach = 1 / 4 := if_pos hPower
    have hSignificand : (d.significand : ℚ) = 2 ^ 52 := by exact_mod_cast hPower.1
    rw [hReach] at hWide
    rw [hSignificand] at leading
    linarith
  · have hReach : d.reach = 1 / 2 := if_neg hPower
    have hShort : (d.significand : ℚ) ≤ 2 ^ 53 := by exact_mod_cast canonical.lt.le
    rw [hReach] at hWide
    linarith

/-- The shortest decimal of a double rounds to the double. -/
theorem roundsTo_shortest {d : Dyadic} (canonical : IsCanonical d.significand d.exponent)
    (pos : 0 < d.significand) (tieUp : Nat → Bool) :
    RoundsTo (d.shortest tieUp).value d.magnitude := by
  have hValue : 0 < (RoundingInterval.ofDyadic d).value :=
    Nat.mul_pos (Nat.mul_pos (by decide) pos) (Nat.pow_pos (by decide))
  have hLead := Decimal.ten_zpow_leadingExponent_le hValue d.denominator_pos
  rw [value_ofDyadic pos] at hLead
  have hLast := onGrid?_seventeen canonical pos tieUp hLead
  obtain ⟨found, hFound, hContains⟩ :=
    RoundingInterval.exists_search d.denominator_pos tieUp _ 16 1 hLast
  have hPos : (0 : ℚ) < 2 ^ d.exponent := by positivity
  rw [← div_mul_cancel₀ found.value hPos.ne', contains_ofDyadic pos] at hContains
  rw [shortest, hFound, Option.getD_some, Decimal.value_trimZeros,
    ← div_mul_cancel₀ found.value hPos.ne']
  exact roundsTo_of_near canonical hContains

end Dyadic

end GatedQuery
