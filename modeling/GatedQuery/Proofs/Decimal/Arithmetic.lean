import GatedQuery.Proofs.Decimal.Rounding

/-! Products and quotients are the doubles nearest to the exact results, as long as those are not too
large. The sign is that of the exact result. -/

namespace GatedQuery

open Float.Model Float.Model.UnpackedFloat

/-- Shifting adds the distance to the length of a number. -/
theorem log2_shiftLeft {m : Nat} (pos : 0 < m) (n : Nat) : (m <<< n).log2 = m.log2 + n := by
  have hNonzero : m ≠ 0 := by omega
  rw [Nat.shiftLeft_eq]
  refine (Nat.log2_eq_iff (by positivity)).mpr ⟨?_, ?_⟩
  · rw [pow_add]
    exact Nat.mul_le_mul_right _ (Nat.log2_self_le hNonzero)
  · rw [add_right_comm, pow_add]
    exact Nat.mul_lt_mul_of_pos_right Nat.lt_log2_self (by positivity)

/-- A significand of any length and any exponent are rounded to the nearest double. -/
theorem round_isDouble (s : Sign) {m : Nat} (pos : 0 < m) (e : Int) :
    ∃ v, RoundsTo (m * 2 ^ e) v ∧ IsDouble (UnpackedFloat.round Format.binary64 s m e) s v := by
  obtain ⟨n, hn⟩ : ∃ n, (e - Format.binary64.targetExponent (totalExponent m e)).toNat = n :=
    ⟨_, rfl⟩
  have hTarget : e - n ≤ Format.binary64.targetExponent (totalExponent (m <<< n) (e - n)) := by
    rw [targetExponent_eq, totalExponent] at hn ⊢
    rw [log2_shiftLeft pos]
    omega
  have hLies : LiesAbove ((m <<< n : Nat) : ℚ) (m <<< n) .exact := rfl
  obtain ⟨v, hRounds, hIsDouble⟩ := roundWithAccuracy_isDouble s hLies hTarget
  refine ⟨v, ?_, ?_⟩
  · have hValue : (m : ℚ) * 2 ^ e = ((m <<< n : Nat) : ℚ) * 2 ^ (e - n) := by
      have hExponent : e = (n : Int) + (e - n) := by omega
      conv_lhs => rw [hExponent, two_zpow_natCast_add]
      rw [Nat.shiftLeft_eq]
      push_cast
      ring
    rwa [hValue]
  · rw [UnpackedFloat.round, decreaseExponent]
    dsimp only
    rwa [hn]

/-- A product of significands that is long enough is rounded to the nearest double, and so is one with
a small exponent. -/
theorem mul_isDouble (s s' : Sign) {m n : Nat} {d e : Int} (hm : 0 < m) (hn : 0 < n)
    (long : 2 ^ 52 ≤ m * n ∨ d + e ≤ -1074) :
    ∃ v, RoundsTo (m * 2 ^ d * (n * 2 ^ e)) v ∧
      IsDouble (UnpackedFloat.mul Format.binary64 (.finite s m d hm) (.finite s' n e hn))
        (s * s') v := by
  have hTarget : d + e ≤ Format.binary64.targetExponent (totalExponent (m * n) (d + e)) := by
    rw [targetExponent_eq, totalExponent]
    rcases long with hLong | hSmall
    · have hLog := (Nat.le_log2 (by positivity)).mpr hLong
      omega
    · omega
  have hLies : LiesAbove ((m * n : Nat) : ℚ) (m * n) .exact := rfl
  obtain ⟨v, hRounds, hIsDouble⟩ := roundWithAccuracy_isDouble (s * s') hLies hTarget
  refine ⟨v, ?_, hIsDouble⟩
  have hValue : (m : ℚ) * 2 ^ d * (n * 2 ^ e) = ((m * n : Nat) : ℚ) * 2 ^ (d + e) := by
    rw [zpow_add₀ (by norm_num)]
    push_cast
    ring
  rwa [hValue]

/-- A quotient has at least as many bits as the lengths of its parts tell. -/
theorem le_log2_div {m n : Nat} (hm : 0 < m) (hn : 0 < n) (k : Nat) :
    m.log2 + k ≤ (m <<< k / n).log2 + n.log2 + 1 := by
  by_contra hLess
  have hLow : 2 ^ (m.log2 + k) ≤ m <<< k := by
    rw [← log2_shiftLeft hm]
    exact Nat.log2_self_le (by simp [Nat.shiftLeft_eq]; omega)
  have hQuotient : m <<< k / n < 2 ^ ((m <<< k / n).log2 + 1) := Nat.lt_log2_self
  have hDivisor : n < 2 ^ (n.log2 + 1) := Nat.lt_log2_self
  have hHigh : m <<< k < 2 ^ (m.log2 + k) :=
    calc
      m <<< k < n * 2 ^ ((m <<< k / n).log2 + 1) := by
        rw [mul_comm]
        exact (Nat.div_lt_iff_lt_mul hn).mp hQuotient
      _ ≤ 2 ^ (n.log2 + 1) * 2 ^ ((m <<< k / n).log2 + 1) :=
        Nat.mul_le_mul_right _ hDivisor.le
      _ = 2 ^ (n.log2 + 1 + ((m <<< k / n).log2 + 1)) := (pow_add ..).symm
      _ ≤ 2 ^ (m.log2 + k) := Nat.pow_le_pow_right (by decide) (by omega)
  omega

/-- A quotient is divided out as far as it takes, and then rounded to the nearest double. -/
theorem div_isDouble (s s' : Sign) {m n : Nat} {d e : Int} (hm : 0 < m) (hn : 0 < n) :
    ∃ v, RoundsTo (m * 2 ^ d / (n * 2 ^ e)) v ∧
      IsDouble (UnpackedFloat.div Format.binary64 (.finite s m d hm) (.finite s' n e hn))
        (s / s') v := by
  obtain ⟨t, ht⟩ : ∃ t, min (d - e)
      (Format.binary64.targetExponent (totalExponent m d - totalExponent n e)) = t := ⟨_, rfl⟩
  obtain ⟨k, hk⟩ : ∃ k : Nat, d - e = k + t := ⟨(d - e - t).toNat, by omega⟩
  have hShift : (d - e - t).toNat = k := by omega
  have hTarget : t ≤ Format.binary64.targetExponent (totalExponent (m <<< k / n) t) := by
    have hLog := le_log2_div hm hn k
    rw [targetExponent_eq, totalExponent, totalExponent] at ht
    rw [targetExponent_eq, totalExponent]
    omega
  obtain ⟨v, hRounds, hIsDouble⟩ :=
    roundWithAccuracy_isDouble (s / s') (liesAbove_accuracyOfFraction (m <<< k) hn) hTarget
  refine ⟨v, ?_, ?_⟩
  · have hValue : (m : ℚ) * 2 ^ d / (n * 2 ^ e) = ((m <<< k : Nat) : ℚ) / n * 2 ^ t := by
      have hDivisor : (n : ℚ) ≠ 0 := by exact_mod_cast hn.ne'
      have hExponent : d = k + (t + e) := by omega
      rw [hExponent, two_zpow_natCast_add, zpow_add₀ (by norm_num), Nat.shiftLeft_eq]
      push_cast
      field_simp
    rwa [hValue]
  · change IsDouble (roundWithAccuracy _ _ (divCore Format.binary64 m d n e).1
      (divCore Format.binary64 m d n e).2.1 (divCore Format.binary64 m d n e).2.2) _ _
    rw [divCore, ht, hShift]
    exact hIsDouble

def Dyadic.magnitude (d : Dyadic) : ℚ :=
  d.significand * 2 ^ d.exponent

/-- Dropping the bits of the fraction rounds to the nearest integer, a half to the even one. -/
theorem Dyadic.nearestEven_roundedMagnitude (d : Dyadic) :
    NearestEven d.magnitude d.roundedMagnitude := by
  rw [Dyadic.magnitude, Dyadic.roundedMagnitude]
  split
  · rename_i hWhole
    obtain ⟨e, he⟩ := Int.eq_ofNat_of_zero_le hWhole
    have hPower : Nat.pow 2 d.exponent.toNat = 2 ^ e := by
      rw [he]
      rfl
    have hValue : (d.significand : ℚ) * 2 ^ d.exponent = (d.significand * 2 ^ e : Nat) := by
      rw [he, zpow_natCast]
      push_cast
      rfl
    rw [hPower, hValue]
    exact .natCast _
  · rename_i hFraction
    obtain ⟨e, he⟩ : ∃ e : Nat, d.exponent = -e := ⟨(-d.exponent).toNat, by omega⟩
    have hPower : Nat.pow 2 (-d.exponent).toNat = 2 ^ e := by
      rw [he, neg_neg]
      rfl
    have hValue : (d.significand : ℚ) * 2 ^ d.exponent = d.significand / (2 ^ e : Nat) := by
      rw [he, zpow_neg, zpow_natCast, ← div_eq_mul_inv]
      push_cast
      rfl
    rw [hPower, hValue]
    exact nearestEven_roundHalfEven _ (by positivity)

/-- Packing keeps a double that is not too large. -/
theorem pack_isDouble {u : UnpackedFloat} {s : Sign} {v : ℚ} (h : IsDouble u s v)
    (small : v < 2 ^ (1024 : Int)) : IsDouble (Float.Model.pack u).unpack s v := by
  cases h with
  | zero s =>
      rw [unpack_pack_zero]
      exact .zero s
  | @finite s m e pos canonical =>
      have hSmall : e ≤ 971 := by
        rcases canonical.normal with hNormal | hLeast
        · have hPowers : (2 : ℚ) ^ ((52 : Nat) + e) < 2 ^ (1024 : Int) := by
            rw [two_zpow_natCast_add]
            exact (mul_le_mul_of_nonneg_right (by exact_mod_cast hNormal)
              (by positivity)).trans_lt small
          have hExponents := (zpow_lt_zpow_iff_right₀ (by norm_num)).mp hPowers
          omega
        · omega
      rw [unpack_pack_finite s pos canonical hSmall]
      exact .finite s pos canonical

/-- A finite double is read off its bits with its sign and its magnitude. -/
theorem ofFloat_of_isDouble {x : Float} {s : Sign} {v : ℚ} (h : IsDouble x.toModel.unpack s v) :
    ∃ d, Binary.ofFloat x = .finite d ∧ d.negative = isNegative s ∧ d.magnitude = v := by
  rw [ofFloat_eq_ofUnpacked]
  generalize x.toModel.unpack = u at h
  cases h with
  | zero s => exact ⟨_, rfl, rfl, by simp [Dyadic.magnitude]⟩
  | finite s pos canonical => exact ⟨_, rfl, rfl, rfl⟩

/-- What is read off a double that packs a number is the number, if it is not too large. -/
theorem ofFloat_of_pack {x : Float} {u : UnpackedFloat} {s : Sign} {v : ℚ}
    (hx : x.toModel = Float.Model.pack u) (h : IsDouble u s v) (small : v < 2 ^ (1024 : Int)) :
    ∃ d, Binary.ofFloat x = .finite d ∧ d.negative = isNegative s ∧ d.magnitude = v := by
  refine ofFloat_of_isDouble ?_
  rw [hx]
  exact pack_isDouble h small

/-- What is read off the bits of a finite double is a double. -/
theorem isDouble_of_ofFloat {x : Float} {d : Dyadic} (h : Binary.ofFloat x = .finite d) :
    ∃ s, isNegative s = d.negative ∧ IsDouble x.toModel.unpack s d.magnitude := by
  have hCanonical := canonical_of_ofFloat h
  rw [ofFloat_eq_ofUnpacked] at h
  cases hParts : x.toModel.unpack with
  | notANumber | infinity s =>
      rw [hParts] at h
      cases h
  | zero s =>
      rw [hParts] at h
      cases h
      refine ⟨s, rfl, ?_⟩
      rw [Dyadic.magnitude, Nat.cast_zero, zero_mul]
      exact .zero s
  | finite s m e pos =>
      rw [hParts] at h
      cases h
      exact ⟨s, rfl, .finite s pos hCanonical⟩

theorem magnitude_lt_of_ofFloat {x : Float} {d : Dyadic} (h : Binary.ofFloat x = .finite d) :
    d.magnitude < 2 ^ (1024 : Int) := by
  have hSignificand : (d.significand : ℚ) < 2 ^ 53 := by
    exact_mod_cast (canonical_of_ofFloat h).lt
  calc
    d.magnitude < 2 ^ 53 * 2 ^ d.exponent := mul_lt_mul_of_pos_right hSignificand (by positivity)
    _ = 2 ^ ((53 : Nat) + d.exponent) := (two_zpow_natCast_add 53 _).symm
    _ ≤ 2 ^ (1024 : Int) := two_zpow_le (by have := exponent_le_of_ofFloat h; omega)

/-- The significand and the exponent of a double are determined by their product. -/
theorem IsCanonical.unique {m n : Nat} {d e : Int} (hm : IsCanonical m d) (hn : IsCanonical n e)
    (value : (m : ℚ) * 2 ^ d = n * 2 ^ e) : m = n ∧ d = e := by
  have hLess {m n : Nat} {d e : Int} (hm : IsCanonical m d) (hn : IsCanonical n e)
      (value : (m : ℚ) * 2 ^ d = n * 2 ^ e) : ¬ d < e := fun h => by
    have hFull := hn.normal.resolve_right (by have := hm.least; omega)
    obtain ⟨k, rfl⟩ : ∃ k : Nat, e = (k + 1 : Nat) + d := ⟨(e - d - 1).toNat, by omega⟩
    rw [two_zpow_natCast_add, ← mul_assoc, mul_left_inj' (by positivity)] at value
    have hWhole : m = n * 2 ^ (k + 1) := by exact_mod_cast value
    have hLong : 2 ^ 52 * 2 ^ 1 ≤ n * 2 ^ (k + 1) :=
      Nat.mul_le_mul hFull (Nat.pow_le_pow_right (by decide) (by omega))
    have hShort := hm.lt
    omega
  obtain rfl : d = e :=
    le_antisymm (not_lt.mp (hLess hn hm value.symm)) (not_lt.mp (hLess hm hn value))
  rw [mul_left_inj' (by positivity)] at value
  exact ⟨by exact_mod_cast value, rfl⟩

/-- A finite double is determined by its sign and its magnitude. -/
theorem eq_of_magnitude {x y : Float} {a b : Dyadic} (hx : Binary.ofFloat x = .finite a)
    (hy : Binary.ofFloat y = .finite b) (sign : a.negative = b.negative)
    (value : a.magnitude = b.magnitude) : x = y := by
  obtain ⟨hSignificand, hExponent⟩ :=
    (canonical_of_ofFloat hx).unique (canonical_of_ofFloat hy) value
  have hParts : a = b := by
    cases a
    cases b
    cases sign
    cases hSignificand
    cases hExponent
    rfl
  exact eq_of_ofFloat hx (hParts ▸ hy)

theorem isNegative_mul (s s' : Sign) : isNegative (s * s') = (isNegative s != isNegative s') := by
  cases s <;> cases s' <;> rfl

/-- A product is the double nearest to the product of the two numbers. -/
theorem ofFloat_mul {x y : Float} {a b : Dyadic} (hx : Binary.ofFloat x = .finite a)
    (hy : Binary.ofFloat y = .finite b) (small : a.magnitude * b.magnitude ≤ 2 ^ (1023 : Int)) :
    ∃ d, Binary.ofFloat (x * y) = .finite d ∧ d.negative = (a.negative != b.negative) ∧
      RoundsTo (a.magnitude * b.magnitude) d.magnitude := by
  obtain ⟨s, hs, hA⟩ := isDouble_of_ofFloat hx
  obtain ⟨s', hs', hB⟩ := isDouble_of_ofFloat hy
  have hProduct : ∃ v, RoundsTo (a.magnitude * b.magnitude) v ∧
      IsDouble (UnpackedFloat.mul Format.binary64 x.toModel.unpack y.toModel.unpack)
        (s * s') v := by
    generalize x.toModel.unpack = u at hA
    generalize y.toModel.unpack = u' at hB
    generalize a.magnitude = q at hA
    generalize b.magnitude = r at hB
    cases hA with
    | zero s =>
        rw [zero_mul]
        cases hB <;> exact ⟨0, .zero, .zero _⟩
    | @finite s m d pos canonical =>
        cases hB with
        | zero s' =>
            rw [mul_zero]
            exact ⟨0, .zero, .zero _⟩
        | @finite s' n e pos' canonical' =>
            refine mul_isDouble s s' pos pos' ?_
            rcases canonical.normal with hNormal | rfl
            · exact .inl (hNormal.trans (Nat.le_mul_of_pos_right m pos'))
            · rcases canonical'.normal with hNormal' | rfl
              · exact .inl (hNormal'.trans (Nat.le_mul_of_pos_left n pos))
              · exact .inr (by decide)
  obtain ⟨v, hRounds, hIsDouble⟩ := hProduct
  have hSmall := hRounds.lt_of_le_two_zpow (by decide) small (by decide)
  obtain ⟨d, hd, hSign, rfl⟩ := ofFloat_of_pack (x := x * y) rfl hIsDouble hSmall
  refine ⟨d, hd, ?_, hRounds⟩
  rw [hSign, isNegative_mul, hs, hs']

theorem isNegative_div (s s' : Sign) : isNegative (s / s') = (isNegative s != isNegative s') := by
  cases s <;> cases s' <;> rfl

/-- A quotient is the double nearest to the quotient of the two numbers. -/
theorem ofFloat_div {x y : Float} {a b : Dyadic} (hx : Binary.ofFloat x = .finite a)
    (hy : Binary.ofFloat y = .finite b) (nonzero : b.significand ≠ 0)
    (small : a.magnitude / b.magnitude ≤ 2 ^ (1023 : Int)) :
    ∃ d, Binary.ofFloat (x / y) = .finite d ∧ d.negative = (a.negative != b.negative) ∧
      RoundsTo (a.magnitude / b.magnitude) d.magnitude := by
  obtain ⟨s, hs, hA⟩ := isDouble_of_ofFloat hx
  obtain ⟨s', hs', hB⟩ := isDouble_of_ofFloat hy
  have hDivisor : b.magnitude ≠ 0 := by
    have hSignificand : (b.significand : ℚ) ≠ 0 := by exact_mod_cast nonzero
    exact mul_ne_zero hSignificand (by positivity)
  have hQuotient : ∃ v, RoundsTo (a.magnitude / b.magnitude) v ∧
      IsDouble (UnpackedFloat.div Format.binary64 x.toModel.unpack y.toModel.unpack)
        (s / s') v := by
    generalize x.toModel.unpack = u at hA
    generalize y.toModel.unpack = u' at hB
    generalize a.magnitude = q at hA
    generalize b.magnitude = r at hB hDivisor
    cases hB with
    | zero => exact absurd rfl hDivisor
    | finite s' pos' =>
        cases hA with
        | zero s =>
            rw [zero_div]
            exact ⟨0, .zero, .zero _⟩
        | finite s pos => exact div_isDouble s s' pos pos'
  obtain ⟨v, hRounds, hIsDouble⟩ := hQuotient
  have hSmall := hRounds.lt_of_le_two_zpow (by decide) small (by decide)
  obtain ⟨d, hd, hSign, rfl⟩ := ofFloat_of_pack (x := x / y) rfl hIsDouble hSmall
  refine ⟨d, hd, ?_, hRounds⟩
  rw [hSign, isNegative_div, hs, hs']

/-- Negation changes the sign alone. -/
theorem ofFloat_neg {x : Float} {d : Dyadic} (h : Binary.ofFloat x = .finite d)
    (small : d.magnitude < 2 ^ (1024 : Int)) :
    ∃ d', Binary.ofFloat (-x) = .finite d' ∧ d'.negative = !d.negative ∧
      d'.magnitude = d.magnitude := by
  obtain ⟨s, hs, hIsDouble⟩ := isDouble_of_ofFloat h
  have hNegated : IsDouble x.toModel.unpack.neg (-s) d.magnitude := by
    generalize x.toModel.unpack = u at hIsDouble
    generalize d.magnitude = v at hIsDouble
    cases hIsDouble with
    | zero s => exact .zero (-s)
    | finite s pos canonical => exact .finite (-s) pos canonical
  obtain ⟨d', hd, hSign, hValue⟩ := ofFloat_of_pack (x := -x) rfl hNegated small
  refine ⟨d', hd, ?_, hValue⟩
  rw [hSign, ← hs]
  cases s <;> rfl

end GatedQuery
