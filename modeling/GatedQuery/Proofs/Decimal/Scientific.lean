import GatedQuery.Decimal.Numeral
import GatedQuery.Proofs.Decimal.Arithmetic

/-! Natural numbers and decimals become the doubles nearest to them. A decimal with few digits and a
small exponent is a product or a quotient of two exact doubles; for any other one the exact value is
rounded. -/

namespace GatedQuery

open Float.Model Float.Model.UnpackedFloat

/-- The double for a natural number is the one that the number rounds to. -/
theorem ofNat_isDouble (n : Nat) :
    ∃ v, RoundsTo n v ∧ IsDouble (UnpackedFloat.ofNat Format.binary64 n) .positive v := by
  rw [UnpackedFloat.ofNat, UnpackedFloat.ofInt, UnpackedFloat.normalize]
  rcases Nat.eq_zero_or_pos n with rfl | hPos
  · exact ⟨0, by simpa using RoundsTo.zero, .zero _⟩
  · rw [Int.compare_eq_gt.mpr (by omega)]
    obtain ⟨v, hRounds, hIsDouble⟩ := round_isDouble .positive hPos 0
    rw [zpow_zero, mul_one] at hRounds
    exact ⟨v, hRounds, hIsDouble⟩

/-- Numbers of 64 bits round to finite doubles. -/
theorem RoundsTo.natCast_lt {n : Nat} {v : ℚ} (h : RoundsTo n v) (small : n ≤ 2 ^ 64) :
    v < 2 ^ (1024 : Int) := by
  have hMost : (n : ℚ) ≤ 2 ^ (64 : Int) := by exact_mod_cast small
  exact h.lt_of_le_two_zpow (by decide) hMost (by decide)

/-- A natural number of 53 bits is a double. -/
theorem ofFloat_toUInt64 {n : Nat} (short : n < 2 ^ 53) :
    ∃ d, Binary.ofFloat n.toUInt64.toFloat = .finite d ∧ d.negative = false ∧ d.magnitude = n := by
  have hWord : n.toUInt64.toNat = n := UInt64.toNat_ofNat_of_lt (short.trans (by decide))
  obtain ⟨v, hRounds, hIsDouble⟩ := ofNat_isDouble n
  have hExact : v = n := by
    have hScaled : RoundsTo (n * 2 ^ (0 : Int)) v := by simpa using hRounds
    simpa using hScaled.eq_of_representable short.le (by decide)
  have hSmall := hRounds.natCast_lt (short.le.trans (by decide))
  obtain rfl := hExact
  have hPacks : n.toUInt64.toFloat.toModel =
      Float.Model.pack (UnpackedFloat.ofNat Format.binary64 n.toUInt64.toNat) := rfl
  rw [hWord] at hPacks
  exact ofFloat_of_pack hPacks hIsDouble hSmall

def isPowerOfTen (e : Nat) : Binary → Bool
  | .finite d => !d.negative &&
    d.significand * 2 ^ d.exponent.toNat == 10 ^ e * 2 ^ (-d.exponent).toNat
  | _ => false

/-- The table of powers of ten is exact. -/
theorem isPowerOfTen_table : ∀ (e : Fin 23),
    isPowerOfTen e (Binary.ofFloat Float.exactlyRepresentablePowersOfTen[e]) = true := by
  decide +kernel

theorem Dyadic.magnitude_eq_div (d : Dyadic) :
    d.magnitude = d.significand * 2 ^ d.exponent.toNat / 2 ^ (-d.exponent).toNat := by
  have hExponent : d.exponent = d.exponent.toNat - (-d.exponent).toNat := by omega
  rw [Dyadic.magnitude, mul_div_assoc]
  congr 1
  conv_lhs => rw [hExponent]
  rw [zpow_sub₀ (by norm_num), zpow_natCast, zpow_natCast]

/-- The powers of ten in the table are exact. -/
theorem ofFloat_powerOfTen {e : Nat} (h : e < Float.exactlyRepresentablePowersOfTen.size) :
    ∃ d, Binary.ofFloat Float.exactlyRepresentablePowersOfTen[e] = .finite d ∧
      d.negative = false ∧ d.magnitude = 10 ^ e := by
  have hPower := isPowerOfTen_table ⟨e, h⟩
  simp only [Fin.getElem_fin] at hPower
  cases hParts : Binary.ofFloat Float.exactlyRepresentablePowersOfTen[e] with
  | notANumber | infinite _ =>
      rw [hParts] at hPower
      cases hPower
  | finite d =>
      rw [hParts, isPowerOfTen, Bool.and_eq_true, beq_iff_eq] at hPower
      refine ⟨d, rfl, by simpa using hPower.1, ?_⟩
      rw [Dyadic.magnitude_eq_div, div_eq_iff (by positivity)]
      exact_mod_cast hPower.2

theorem natCast_mul_ten_zpow_le {m : Nat} (short : m < 2 ^ 53) {e : Int} (small : e ≤ 22) :
    (m : ℚ) * 10 ^ e ≤ 2 ^ (1023 : Int) := by
  have hDigits : (m : ℚ) ≤ 2 ^ 53 := by exact_mod_cast short.le
  have hPower : (10 : ℚ) ^ e ≤ 10 ^ (22 : Int) := zpow_le_zpow_right₀ (by norm_num) small
  calc
    (m : ℚ) * 10 ^ e ≤ 2 ^ 53 * 10 ^ (22 : Int) := by gcongr
    _ ≤ 2 ^ (130 : Int) := by norm_num
    _ ≤ 2 ^ (1023 : Int) := two_zpow_le (by decide)

/-- A decimal with few digits and a small exponent, by one operation on exact doubles. -/
theorem ofFloat_ofScientific_short {m : Nat} {e : Int} (short : m < 2 ^ 53 ∧ e.natAbs ≤ 22) :
    ∃ d, Binary.ofFloat (Float.ofScientific m (decide (e < 0)) e.natAbs) = .finite d ∧
      d.negative = false ∧ RoundsTo (m * 10 ^ e) d.magnitude := by
  have hSize : e.natAbs < Float.exactlyRepresentablePowersOfTen.size := Nat.lt_succ_of_le short.2
  obtain ⟨a, ha, hPlus, hDigits⟩ := ofFloat_toUInt64 short.1
  obtain ⟨b, hb, hPlus', hPower⟩ := ofFloat_powerOfTen hSize
  have hSmall := natCast_mul_ten_zpow_le short.1 (e := e) (by omega)
  rw [Float.ofScientific, dif_pos short]
  by_cases hNegative : e < 0
  · have hNonzero : b.significand ≠ 0 := fun h => by
      rw [Dyadic.magnitude, h, Nat.cast_zero, zero_mul] at hPower
      exact absurd hPower.symm (by positivity)
    have hExponent : -(e.natAbs : Int) = e := by omega
    have hQuotient : (m : ℚ) * 10 ^ e = a.magnitude / b.magnitude := by
      rw [hDigits, hPower, div_eq_mul_inv, ← zpow_natCast, ← zpow_neg, hExponent]
    rw [hQuotient] at hSmall ⊢
    rw [if_pos (decide_eq_true hNegative)]
    obtain ⟨d, hd, hSign, hRounds⟩ := ofFloat_div ha hb hNonzero hSmall
    exact ⟨d, hd, hSign.trans (by rw [hPlus, hPlus']; rfl), hRounds⟩
  · have hExponent : (e.natAbs : Int) = e := by omega
    have hProduct : (m : ℚ) * 10 ^ e = a.magnitude * b.magnitude := by
      rw [hDigits, hPower, ← zpow_natCast, hExponent]
    rw [hProduct] at hSmall ⊢
    rw [if_neg (by simpa using hNegative)]
    obtain ⟨d, hd, hSign, hRounds⟩ := ofFloat_mul ha hb hSmall
    exact ⟨d, hd, hSign.trans (by rw [hPlus, hPlus']; rfl), hRounds⟩

/-- The exact value of a decimal is rounded to the nearest double, unless its exponent alone decides
that it is too large or too small. -/
theorem ofScientific_isDouble (m : Nat) {e : Int} (high : e ≤ 2 ^ 11)
    (low : -((2 ^ 11 : Int) + m.log2) ≤ e) :
    ∃ v, RoundsTo (m * 10 ^ e) v ∧
      IsDouble (UnpackedFloat.ofScientific Format.binary64 m e) .positive v := by
  by_cases hZero : m = 0
  · subst hZero
    rw [UnpackedFloat.ofScientific, dif_pos rfl, Nat.cast_zero, zero_mul]
    exact ⟨0, .zero, .zero _⟩
  have hPos := Nat.pos_of_ne_zero hZero
  rw [UnpackedFloat.ofScientific, dif_neg hZero, if_neg (not_lt.mpr high), if_neg (not_lt.mpr low)]
  by_cases hWhole : 0 ≤ e
  · rw [if_pos hWhole]
    obtain ⟨k, rfl⟩ := Int.eq_ofNat_of_zero_le hWhole
    have hShifted : 0 < m <<< 53 := by
      rw [Nat.shiftLeft_eq]
      omega
    have hPower : 0 < 10 ^ k := by positivity
    have hLong : 2 ^ 52 ≤ m <<< 53 * 10 ^ k := by
      refine le_trans ?_ (Nat.le_mul_of_pos_right _ hPower)
      rw [Nat.shiftLeft_eq]
      omega
    obtain ⟨v, hRounds, hIsDouble⟩ :=
      mul_isDouble (d := -53) (e := 0) .positive .positive hShifted hPower (.inl hLong)
    refine ⟨v, ?_, hIsDouble⟩
    have hValue : ((m <<< 53 : Nat) : ℚ) * 2 ^ (-53 : Int) * ((10 ^ k : Nat) * 2 ^ (0 : Int)) =
        m * 10 ^ (k : Int) := by
      rw [Nat.shiftLeft_eq, zpow_natCast]
      push_cast
      norm_num
      ring
    rwa [hValue] at hRounds
  · rw [if_neg hWhole]
    obtain ⟨k, rfl⟩ : ∃ k : Nat, e = -k := ⟨(-e).toNat, by omega⟩
    have hPower : 0 < 10 ^ (- -(k : Int)).toNat := by positivity
    obtain ⟨v, hRounds, hIsDouble⟩ := div_isDouble (d := 0) (e := 0) .positive .positive hPos hPower
    refine ⟨v, ?_, hIsDouble⟩
    have hValue : (m : ℚ) * 2 ^ (0 : Int) / ((10 ^ (- -(k : Int)).toNat : Nat) * 2 ^ (0 : Int)) =
        m * 10 ^ (-(k : Int)) := by
      rw [neg_neg, Int.toNat_natCast, zpow_neg, zpow_natCast, zpow_zero, mul_one, mul_one,
        div_eq_mul_inv]
      push_cast
      rfl
    rwa [hValue] at hRounds

/-- A decimal becomes the double nearest to it, if its exponent is not too large in either direction
and the double is finite. -/
theorem ofFloat_ofScientific {m : Nat} {e : Int} (high : e ≤ 2 ^ 11)
    (low : -((2 ^ 11 : Int) + m.log2) ≤ e) {v : ℚ} (rounds : RoundsTo (m * 10 ^ e) v)
    (small : v < 2 ^ (1024 : Int)) :
    ∃ d, Binary.ofFloat (Float.ofScientific m (decide (e < 0)) e.natAbs) = .finite d ∧
      d.negative = false ∧ d.magnitude = v := by
  by_cases hShort : m < 2 ^ 53 ∧ e.natAbs ≤ 22
  · obtain ⟨d, hd, hPlus, hRounds⟩ := ofFloat_ofScientific_short hShort
    exact ⟨d, hd, hPlus, hRounds.unique rounds⟩
  · obtain ⟨w, hRounds, hIsDouble⟩ := ofScientific_isDouble m high low
    obtain rfl := hRounds.unique rounds
    refine ofFloat_of_pack ?_ hIsDouble small
    have hExponent : (if decide (e < 0) then Int.negOfNat e.natAbs else Int.ofNat e.natAbs) = e := by
      by_cases hNegative : e < 0
      · rw [if_pos (decide_eq_true hNegative), Int.negOfNat_eq]
        simp only [Int.ofNat_eq_natCast]
        omega
      · rw [if_neg (by simpa using hNegative)]
        simp only [Int.ofNat_eq_natCast]
        omega
    rw [Float.ofScientific, dif_neg hShort]
    dsimp only
    rw [hExponent]
    rfl

/-- A natural number becomes the nearest double. -/
theorem ofFloat_ofNat {n : Nat} (small : n ≤ 2 ^ 64) :
    ∃ d, Binary.ofFloat (Float.ofNat n) = .finite d ∧ d.negative = false ∧
      RoundsTo n d.magnitude := by
  obtain ⟨v, hRounds, _⟩ := ofNat_isDouble n
  have hDecimal : RoundsTo (n * 10 ^ (0 : Int)) v := by simpa using hRounds
  obtain ⟨d, hd, hPlus, rfl⟩ :=
    ofFloat_ofScientific (by decide) (by omega) hDecimal (hRounds.natCast_lt small)
  exact ⟨d, hd, hPlus, hRounds⟩

/-- An integer becomes the nearest double. -/
theorem ofFloat_ofInt {n : Int} (small : n.natAbs ≤ 2 ^ 64) :
    ∃ d, Binary.ofFloat (Float.ofInt n) = .finite d ∧ d.negative = decide (n < 0) ∧
      RoundsTo n.natAbs d.magnitude := by
  obtain ⟨d, hd, hSign, hRounds⟩ := ofFloat_ofNat small
  cases n with
  | ofNat n => exact ⟨d, hd, hSign.trans (by simp), hRounds⟩
  | negSucc n =>
      obtain ⟨d', hd', hSign', hValue⟩ := ofFloat_neg hd (hRounds.natCast_lt small)
      refine ⟨d', hd', ?_, ?_⟩
      · rw [hSign', hSign]
        simp
      · rw [hValue]
        exact hRounds

/-- A number is less than the power of ten that has one digit more. -/
theorem lt_ten_pow_length (n : Nat) : n < 10 ^ (Nat.toDigits 10 n).length :=
  (Nat.length_toDigits_le_iff (by decide) Nat.length_toDigits_pos).mp le_rfl

theorem ten_pow_length_le {n : Nat} (pos : 0 < n) : 10 ^ ((Nat.toDigits 10 n).length - 1) ≤ n := by
  by_contra hLess
  have hLength : 0 < (Nat.toDigits 10 n).length := Nat.length_toDigits_pos
  rcases Nat.eq_zero_or_pos ((Nat.toDigits 10 n).length - 1) with hOne | hMore
  · rw [hOne] at hLess
    omega
  · have hFewer := (Nat.length_toDigits_le_iff (by decide) hMore).mpr (not_le.mp hLess)
    omega

/-- The size of a decimal is known from its digits and its exponent. -/
theorem natCast_mul_ten_zpow_lt (n : Nat) (e : Int) :
    (n : ℚ) * 10 ^ e < 10 ^ (e + (Nat.toDigits 10 n).length) := by
  have hDigits : (n : ℚ) < 10 ^ (Nat.toDigits 10 n).length := by
    exact_mod_cast lt_ten_pow_length n
  rw [add_comm, zpow_add₀ (by norm_num), zpow_natCast]
  exact mul_lt_mul_of_pos_right hDigits (by positivity)

theorem ten_zpow_le_natCast_mul {n : Nat} (pos : 0 < n) (e : Int) :
    (10 : ℚ) ^ (e + (Nat.toDigits 10 n).length - 1) ≤ n * 10 ^ e := by
  have hLength : 0 < (Nat.toDigits 10 n).length := Nat.length_toDigits_pos
  have hDigits : (10 : ℚ) ^ ((Nat.toDigits 10 n).length - 1) ≤ n := by
    exact_mod_cast ten_pow_length_le pos
  have hExponent : e + (Nat.toDigits 10 n).length - 1 =
      ((Nat.toDigits 10 n).length - 1 : Nat) + e := by omega
  rw [hExponent, zpow_add₀ (by norm_num), zpow_natCast]
  exact mul_le_mul_of_nonneg_right hDigits (by positivity)

/-- What is less than half the least double rounds to zero. -/
theorem RoundsTo.of_small {q : ℚ} (nonneg : 0 ≤ q) (small : q < 2 ^ (-1075 : Int)) :
    RoundsTo q 0 := by
  have hTop : (2 : ℚ) ^ (-1075 : Int) ≤ 2 ^ (-1074 + 53 : Int) := two_zpow_le (by decide)
  refine ⟨-1074, 0, ⟨le_rfl, .inr rfl, small.trans_le hTop⟩, .of_lt ?_, by simp⟩
  have hHalf : (2 : ℚ) ^ (-1075 : Int) = 1 / 2 * 2 ^ (-1074 : Int) := by
    rw [one_div, ← zpow_neg_one, ← zpow_add₀ (by norm_num)]
    norm_num
  rw [Nat.cast_zero, sub_zero, abs_of_nonneg (by positivity), div_lt_iff₀ (by positivity), ← hHalf]
  exact small

theorem ofFloat_zero : Binary.ofFloat 0.0 = .finite ⟨false, 0, -1074⟩ := by decide +kernel

theorem two_zpow_le_ten_zpow : (2 : ℚ) ^ (1024 : Int) ≤ 10 ^ (310 : Int) := by
  have hPowers : 2 ^ 1024 ≤ 10 ^ 310 := by decide +kernel
  exact_mod_cast hPowers

theorem ten_zpow_le_two_zpow : (10 : ℚ) ^ (-330 : Int) ≤ 2 ^ (-1075 : Int) := by
  have hPowers : 2 ^ 1075 ≤ 10 ^ 330 := by decide +kernel
  rw [zpow_neg, zpow_neg]
  refine inv_anti₀ (by positivity) ?_
  exact_mod_cast hPowers

/-- A numeral becomes the double nearest to the decimal that it stands for, if that is finite. -/
theorem ofFloat_nearest {digits : Nat} {exponent : Int} {v : ℚ}
    (rounds : RoundsTo (digits * 10 ^ exponent) v) (small : v < 2 ^ (1024 : Int)) :
    ∃ d, Binary.ofFloat (Numeral.nearest digits exponent) = .finite d ∧ d.negative = false ∧
      d.magnitude = v := by
  have hZero (h : v = 0) : ∃ d, Binary.ofFloat 0.0 = .finite d ∧ d.negative = false ∧
      d.magnitude = v := ⟨_, ofFloat_zero, rfl, by simp [Dyadic.magnitude, h]⟩
  rw [Numeral.nearest]
  rcases Nat.eq_zero_or_pos digits with rfl | hPos
  · refine hZero ?_
    rw [Nat.cast_zero, zero_mul] at rounds
    exact rounds.eq_zero
  have hLow := ten_zpow_le_natCast_mul hPos exponent
  have hHigh := natCast_mul_ten_zpow_lt digits exponent
  have hLength : (Nat.toDigits 10 digits).length ≤ digits.log2 + 1 := by
    have hPowers : 2 ^ ((Nat.toDigits 10 digits).length - 1) ≤ digits :=
      (Nat.pow_le_pow_left (by decide) _).trans (ten_pow_length_le hPos)
    have hLog := (Nat.le_log2 hPos.ne').mpr hPowers
    omega
  obtain ⟨order, hOrder⟩ : ∃ order, exponent + (Nat.toDigits 10 digits).length = order := ⟨_, rfl⟩
  rw [hOrder] at hLow hHigh ⊢
  split
  · rename_i hTiny
    have hLess : order < -330 := by simpa [hPos.ne'] using hTiny
    refine hZero (rounds.unique (.of_small (by positivity) ?_))
    calc
      (digits : ℚ) * 10 ^ exponent < 10 ^ order := hHigh
      _ ≤ 10 ^ (-330 : Int) := zpow_le_zpow_right₀ (by norm_num) hLess.le
      _ ≤ 2 ^ (-1075 : Int) := ten_zpow_le_two_zpow
  · split
    · rename_i hLarge
      have hPower : (2 : ℚ) ^ (1024 : Int) ≤ digits * 10 ^ exponent :=
        calc
          (2 : ℚ) ^ (1024 : Int) ≤ 10 ^ (310 : Int) := two_zpow_le_ten_zpow
          _ ≤ 10 ^ (order - 1) := zpow_le_zpow_right₀ (by norm_num) (by omega)
          _ ≤ digits * 10 ^ exponent := hLow
      exact absurd small (rounds.le_of_two_zpow_le (by decide) hPower).not_gt
    · rename_i hTiny _
      have hMore : ¬ order < -330 := by simpa [hPos.ne'] using hTiny
      have hDigits : 0 < (Nat.toDigits 10 digits).length := Nat.length_toDigits_pos
      exact ofFloat_ofScientific (by omega) (by omega) rounds small

end GatedQuery
