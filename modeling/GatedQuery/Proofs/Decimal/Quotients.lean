import GatedQuery.Proofs.Decimal.Scientific

/-! The integer nearest to a quotient that is rounded to a double before. Nothing is lost when the
number is a double itself and the unit is even, and nothing is lost off the middle of two multiples
of the unit. -/

namespace GatedQuery

theorem abs_div_sub (n c : Nat) {unit : Nat} (pos : 0 < unit) :
    |(n : ℚ) / unit - c| = (|(n : Int) - c * unit| : Int) / unit := by
  have hUnit : (0 : ℚ) < unit := by exact_mod_cast pos
  have hQuotient : (n : ℚ) / unit - c = (n - c * unit) / unit := by
    field_simp
  rw [hQuotient, abs_div, abs_of_pos hUnit]
  push_cast
  rfl

/-- An integer that is nearest to a number, by some margin, is nearest to every number within the
margin. -/
theorem NearestEven.of_close {x y : ℚ} {m : Nat} (h : |y - x| < 1 / 2 - |x - m|) :
    NearestEven y m := by
  apply NearestEven.of_lt
  have hTriangle := abs_add_le (y - x) (x - m)
  rw [sub_add_sub_cancel] at hTriangle
  linarith

/-- Halves over a unit that is not too large are normal doubles. -/
theorem least_normal_le_div {q : ℚ} {unit : Nat} (half : 1 / 2 ≤ q) (pos : 0 < unit)
    (small : unit ≤ 2 ^ 64) : (2 : ℚ) ^ (-1022 : Int) ≤ q / unit := by
  have hUnit : (0 : ℚ) < unit := by exact_mod_cast pos
  have hSmall : (unit : ℚ) ≤ 2 ^ 64 := by exact_mod_cast small
  calc
    (2 : ℚ) ^ (-1022 : Int) ≤ 2 ^ (-65 : Int) := two_zpow_le (by decide)
    _ = 1 / 2 / 2 ^ 64 := by norm_num
    _ ≤ q / unit := div_le_div₀ (by linarith) half hUnit hSmall

/-- A half of an integer that is not too large is a double. -/
theorem eq_of_dvd_double {n unit : Nat} {v : ℚ} (even : unit % 2 = 0) (pos : 0 < unit)
    (double : n ≤ 2 ^ 53) (rounds : RoundsTo (n / unit) v) (halves : unit ∣ 2 * n) :
    v = n / unit := by
  obtain ⟨j, hj⟩ := halves
  have hShort : j ≤ 2 ^ 53 := by
    have hTwice : 2 * j ≤ unit * j := Nat.mul_le_mul_right j (by omega)
    omega
  have hValue : (n : ℚ) / unit = j * 2 ^ (-1 : Int) := by
    have hUnit : (unit : ℚ) ≠ 0 := by exact_mod_cast pos.ne'
    have hProduct : (2 : ℚ) * n = unit * j := by exact_mod_cast hj
    rw [div_eq_iff hUnit, zpow_neg_one]
    linarith
  rw [hValue] at rounds ⊢
  exact rounds.eq_of_representable hShort (by decide)

/-- A quotient of a double by a unit is exact, or off by less than one part of the unit. -/
theorem error_of_double {n unit : Nat} {v : ℚ} (pos : 0 < unit) (small : unit ≤ 2 ^ 64)
    (double : n ≤ 2 ^ 53) (rounds : RoundsTo (n / unit) v) :
    v = n / unit ∨ |v - n / unit| < 1 / unit := by
  have hUnit : (0 : ℚ) < unit := by exact_mod_cast pos
  rcases Nat.eq_zero_or_pos n with rfl | hn
  · left
    rw [Nat.cast_zero, zero_div] at rounds ⊢
    exact rounds.eq_zero
  · have hOne : (1 : ℚ) ≤ n := by exact_mod_cast hn
    have hNormal := least_normal_le_div (by linarith : (1 : ℚ) / 2 ≤ n) pos small
    refine (rounds.error hNormal).imp_right fun hLess => ?_
    have hDouble : (n : ℚ) ≤ 2 ^ 53 := by exact_mod_cast double
    have hScaled : |v - n / unit| * 2 ^ 53 < 1 / unit * 2 ^ 53 :=
      calc
        |v - n / unit| * 2 ^ 53 < n / unit := hLess
        _ ≤ 2 ^ 53 / unit := by gcongr
        _ = 1 / unit * 2 ^ 53 := by ring
    exact lt_of_mul_lt_mul_right hScaled (by positivity)

/-- The quotient of a double by an even unit is half of an odd number, and then a double itself, or
its distance from all those halves is more than what is rounded off. -/
theorem nearestEven_of_double {n unit c : Nat} {v : ℚ} (even : unit % 2 = 0) (pos : 0 < unit)
    (small : unit ≤ 2 ^ 64) (double : n ≤ 2 ^ 53) (rounds : RoundsTo (n / unit) v)
    (nearest : NearestEven (n / unit) c) : NearestEven v c := by
  have hUnit : (0 : ℚ) < unit := by exact_mod_cast pos
  have hDistance := abs_div_sub n c pos
  rcases nearest.near.lt_or_eq with hOff | hTie
  · have hGap : |(n : ℚ) / unit - c| ≤ 1 / 2 - 1 / unit := by
      rw [hDistance, div_lt_div_iff₀ hUnit (by norm_num)] at hOff
      have hWhole : |(n : Int) - c * unit| * 2 < 1 * unit := by exact_mod_cast hOff
      have hEven : ((|(n : Int) - c * unit| : Int) : ℚ) * 2 + 2 ≤ unit := by
        exact_mod_cast (by omega : |(n : Int) - c * unit| * 2 + 2 ≤ unit)
      rw [hDistance, le_sub_iff_add_le, ← add_div, div_le_div_iff₀ hUnit (by norm_num)]
      linarith
    rcases error_of_double pos small double rounds with rfl | hError
    · exact nearest
    · exact .of_close (lt_of_lt_of_le hError (by linarith))
  · have hHalves : unit ∣ 2 * n := by
      rw [hDistance, div_eq_div_iff hUnit.ne' (by norm_num)] at hTie
      have hWhole : |(n : Int) - c * unit| * 2 = 1 * unit := by exact_mod_cast hTie
      apply Int.natCast_dvd_natCast.mp
      rcases abs_cases ((n : Int) - c * unit) with ⟨hAbs, _⟩ | ⟨hAbs, _⟩
      · exact ⟨2 * c + 1, by push_cast; linarith⟩
      · exact ⟨2 * c - 1, by push_cast; linarith⟩
    rwa [eq_of_dvd_double even pos double rounds hHalves]

/-- A number and its quotient are rounded in turn, each by less than the part of it that 53 bits
leave. -/
theorem error_of_quotient {n unit : Nat} {a v : ℚ} (pos : 0 < unit) (small : unit ≤ 2 ^ 64)
    (first : RoundsTo n a) (second : RoundsTo (a / unit) v) :
    |v - n / unit| * 2 ^ 51 ≤ n / unit := by
  have hUnit : (0 : ℚ) < unit := by exact_mod_cast pos
  rcases Nat.eq_zero_or_pos n with rfl | hn
  · rw [Nat.cast_zero] at first ⊢
    rw [first.eq_zero, zero_div] at second
    simp [second.eq_zero]
  · have hOne : (1 : ℚ) ≤ n := by exact_mod_cast hn
    have hLeast : (2 : ℚ) ^ (-1022 : Int) ≤ n :=
      (two_zpow_le (by decide)).trans ((zpow_zero (2 : ℚ)).trans_le hOne)
    have hFirst := first.error_le (.inr hLeast)
    have hNear : |a - n| * 2 ≤ n := by linarith [abs_nonneg (a - n)]
    have hHalf : (n : ℚ) ≤ 2 * a := by linarith [neg_abs_le (a - n)]
    have hSecond := second.error_le (.inr (least_normal_le_div (by linarith) pos small))
    have hDivided : |a / unit - n / unit| * 2 ^ 53 ≤ n / unit := by
      rw [← sub_div, abs_div, abs_of_pos hUnit, div_mul_eq_mul_div]
      exact div_le_div_of_nonneg_right hFirst hUnit.le
    have hTriangle := abs_sub_le v (a / unit) (n / unit)
    have hUpper := le_abs_self (a / unit - n / unit)
    have hNonneg : (0 : ℚ) ≤ n / unit := by positivity
    linarith

/-- Off the middle of two multiples it does not matter how the number and its quotient are
rounded. -/
theorem nearestEven_of_far {n unit c : Nat} {a v : ℚ} (pos : 0 < unit) (small : unit ≤ 2 ^ 64)
    (far : ∀ j : Int, j % 2 = 1 → n < 2 ^ 50 * (2 * (n : Int) - j * unit).natAbs)
    (first : RoundsTo n a) (second : RoundsTo (a / unit) v)
    (nearest : NearestEven (n / unit) c) : NearestEven v c := by
  have hUnit : (0 : ℚ) < unit := by exact_mod_cast pos
  have hDistance := abs_div_sub n c pos
  have hMiddle : (n : Int) < 2 ^ 50 * (unit - 2 * |(n : Int) - c * unit|) := by
    have hNear := nearest.near
    rw [hDistance, div_le_div_iff₀ hUnit (by norm_num)] at hNear
    have hWhole : |(n : Int) - c * unit| * 2 ≤ 1 * unit := by exact_mod_cast hNear
    -- The middle that is nearest lies above the multiple by `c` or below it, as `n` does.
    rcases abs_cases ((n : Int) - c * unit) with ⟨hAbs, _⟩ | ⟨hAbs, _⟩
    · have hFar : (n : Int) < 2 ^ 50 * |2 * (n : Int) - (2 * c + 1) * unit| := by
        rw [← Int.natCast_natAbs]
        exact_mod_cast far (2 * c + 1) (by omega)
      rw [abs_of_nonpos (by linarith)] at hFar
      linarith
    · have hFar : (n : Int) < 2 ^ 50 * |2 * (n : Int) - (2 * c - 1) * unit| := by
        rw [← Int.natCast_natAbs]
        exact_mod_cast far (2 * c - 1) (by omega)
      rw [abs_of_nonneg (by linarith)] at hFar
      linarith
  have hGap : (n : ℚ) / unit / 2 ^ 51 < 1 / 2 - |(n : ℚ) / unit - c| := by
    have hRational : (n : ℚ) < 2 ^ 50 * (unit - 2 * (|(n : Int) - c * unit| : Int)) := by
      exact_mod_cast hMiddle
    rw [hDistance, lt_sub_iff_add_lt, div_div, div_add_div _ _ (by positivity) hUnit.ne',
      div_lt_div_iff₀ (by positivity) (by norm_num)]
    nlinarith
  have hError := error_of_quotient pos small first second
  have hClose : |v - n / unit| ≤ n / unit / 2 ^ 51 := by
    rw [le_div_iff₀ (by positivity)]
    exact hError
  exact .of_close (hClose.trans_lt hGap)

end GatedQuery
