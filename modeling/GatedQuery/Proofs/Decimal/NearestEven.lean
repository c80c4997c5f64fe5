import Mathlib.Algebra.Order.Field.Basic
import Mathlib.Data.Rat.Cast.Order
import Mathlib.Tactic.FieldSimp
import Mathlib.Tactic.Linarith
import Mathlib.Tactic.Positivity
import Mathlib.Tactic.Ring
import GatedQuery.Decimal.Binary

/-! The natural number nearest to a rational number. Of two that are equally near the even one is
meant, so that there is exactly one, and it grows with the number. -/

namespace GatedQuery

/-- `m` is nearest to `x`, and it is even if a neighbour of it is as near. -/
structure NearestEven (x : ℚ) (m : Nat) : Prop where
  near : |x - m| ≤ 1 / 2
  even : |x - m| = 1 / 2 → m % 2 = 0

namespace NearestEven

/-- What is less than a half away is nearest. -/
theorem of_lt {x : ℚ} {m : Nat} (h : |x - m| < 1 / 2) : NearestEven x m :=
  ⟨h.le, fun hTie => absurd hTie h.ne⟩

theorem natCast (m : Nat) : NearestEven m m :=
  of_lt (by simp)

/-- A number is at most a half above what is nearest to it. -/
theorem below {x : ℚ} {m : Nat} (h : NearestEven x m) : x ≤ m + 1 / 2 := by
  linarith [(abs_le.mp h.near).2]

theorem above {x : ℚ} {m : Nat} (h : NearestEven x m) : (m : ℚ) - 1 / 2 ≤ x := by
  linarith [(abs_le.mp h.near).1]

/-- Rounding keeps the order. -/
theorem mono {x y : ℚ} {m n : Nat} (hm : NearestEven x m) (hn : NearestEven y n) (h : x ≤ y) :
    m ≤ n := by
  by_contra hLess
  have hStep : (n : ℚ) + 1 ≤ m := by exact_mod_cast Nat.lt_of_not_le hLess
  have hLow := hm.above
  have hHigh := hn.below
  -- The two are neighbours, both as near as can be, and one of them is odd.
  have hNext : (m : ℚ) = n + 1 := by linarith
  have hTieLow : |x - m| = 1 / 2 := by
    rw [abs_eq (by norm_num)]
    right
    linarith
  have hTieHigh : |y - n| = 1 / 2 := by
    rw [abs_eq (by norm_num)]
    left
    linarith
  have hEven := hm.even hTieLow
  have hEven' := hn.even hTieHigh
  have hNext' : m = n + 1 := by exact_mod_cast hNext
  omega

/-- At most one integer is nearest, as of two as near only one is even. -/
theorem unique {x : ℚ} {m n : Nat} (hm : NearestEven x m) (hn : NearestEven x n) : m = n :=
  Nat.le_antisymm (hm.mono hn le_rfl) (hn.mono hm le_rfl)

end NearestEven

/-- A quotient is its integer part and the rest over the divisor. -/
theorem natCast_div_eq_add (num : Nat) {den : Nat} (h : 0 < den) :
    (num : ℚ) / den = (num / den : Nat) + (num % den : Nat) / (den : ℚ) := by
  have hDen : (den : ℚ) ≠ 0 := by exact_mod_cast h.ne'
  rw [div_eq_iff hDen, add_mul, div_mul_cancel₀ _ hDen, mul_comm]
  exact_mod_cast (Nat.div_add_mod num den).symm

/-- The rest is compared to a half without dividing. -/
theorem div_lt_half_iff (rest : Nat) {den : Nat} (h : 0 < den) :
    (rest : ℚ) / den < 1 / 2 ↔ 2 * rest < den := by
  have hDen : (0 : ℚ) < den := by exact_mod_cast h
  rw [div_lt_div_iff₀ hDen (by norm_num), one_mul, mul_comm]
  exact_mod_cast Iff.rfl

theorem half_lt_div_iff (rest : Nat) {den : Nat} (h : 0 < den) :
    1 / 2 < (rest : ℚ) / den ↔ den < 2 * rest := by
  have hDen : (0 : ℚ) < den := by exact_mod_cast h
  rw [div_lt_div_iff₀ (by norm_num) hDen, one_mul, mul_comm]
  exact_mod_cast Iff.rfl

theorem div_eq_half_iff (rest : Nat) {den : Nat} (h : 0 < den) :
    (rest : ℚ) / den = 1 / 2 ↔ 2 * rest = den := by
  have hDen : (den : ℚ) ≠ 0 := by exact_mod_cast h.ne'
  rw [div_eq_div_iff hDen (by norm_num), one_mul, mul_comm]
  exact_mod_cast Iff.rfl

theorem mod_div_bounds (num : Nat) {den : Nat} (h : 0 < den) :
    0 ≤ ((num % den : Nat) : ℚ) / den ∧ ((num % den : Nat) : ℚ) / den < 1 := by
  have hDen : (0 : ℚ) < den := by exact_mod_cast h
  refine ⟨by positivity, ?_⟩
  rw [div_lt_one hDen]
  exact_mod_cast Nat.mod_lt num h

/-- Rounding a quotient by its rest gives the nearest integer, of two as near the even one. -/
theorem nearestEven_roundHalfEven (num : Nat) {den : Nat} (h : 0 < den) :
    NearestEven (num / den) (roundHalfEven num den) := by
  obtain ⟨hNonneg, hBelow⟩ := mod_div_bounds num h
  rw [natCast_div_eq_add num h, roundHalfEven]
  rcases Nat.lt_trichotomy (2 * (num % den)) den with hLess | hTie | hMore
  · have hHalf := (div_lt_half_iff _ h).mpr hLess
    have hDown : ¬ (2 * (num % den) > den ∨
        2 * (num % den) = den ∧ num / den % 2 = 1) := by omega
    rw [if_neg (by simpa using hDown)]
    apply NearestEven.of_lt
    rwa [add_sub_cancel_left, abs_of_nonneg hNonneg]
  · rw [(div_eq_half_iff _ h).mpr hTie]
    rcases Nat.mod_two_eq_zero_or_one (num / den) with hEven | hOdd
    · have hDown : ¬ (2 * (num % den) > den ∨
          2 * (num % den) = den ∧ num / den % 2 = 1) := by omega
      rw [if_neg (by simpa using hDown)]
      exact ⟨by norm_num, fun _ => hEven⟩
    · rw [if_pos (by simp [hTie, hOdd])]
      refine ⟨?_, fun _ => by omega⟩
      push_cast
      rw [abs_le]
      constructor <;> linarith
  · have hHalf := (half_lt_div_iff _ h).mpr hMore
    rw [if_pos (by simp [hMore])]
    apply NearestEven.of_lt
    push_cast
    rw [abs_lt]
    constructor <;> linarith

/-- Every number that is not negative has a nearest integer. -/
theorem NearestEven.exists_of_nonneg {x : ℚ} (nonneg : 0 ≤ x) : ∃ m, NearestEven x m := by
  have hValue : x = (x.num.toNat : ℚ) / x.den := by
    have hNum : ((x.num.toNat : Int) : ℚ) = x.num := by
      rw [Int.toNat_of_nonneg (Rat.num_nonneg.mpr nonneg)]
    rw [← Int.cast_natCast, hNum, Rat.num_div_den]
  rw [hValue]
  exact ⟨_, nearestEven_roundHalfEven _ x.den_pos⟩

end GatedQuery
