import GatedQuery.Document.Values
import GatedQuery.Filter.Numbers
import GatedQuery.Proofs.Decimal.Quotients

/-! Integers are rounded to the nearest multiple of a power of ten. The count of that multiple comes
from a division of doubles, so this holds of integers that are doubles, and of the larger ones only
off the middle of two multiples. -/

namespace GatedQuery

/-- The multiple of `unit` nearest to `n` is the one by `count`, an even number if another multiple
is as near. -/
structure NearestMultiple (n : Int) (unit : Nat) (count : Int) : Prop where
  near : 2 * |n - count * unit| ≤ unit
  even : 2 * |n - count * unit| = unit → count % 2 = 0

namespace NearestMultiple

variable {n : Int} {unit : Nat} {count : Int}

/-- Of the number and the count without their signs the same holds. -/
theorem nearestEven (h : NearestMultiple n unit count) (pos : 0 < unit) :
    NearestEven (n.natAbs / unit) count.natAbs := by
  have hUnit : (0 : ℚ) < unit := by exact_mod_cast pos
  have hDistance : |(n.natAbs : Int) - count.natAbs * unit| ≤ |n - count * unit| := by
    have hProduct : (count.natAbs : Int) * unit = |count * unit| := by
      rw [abs_mul, Nat.abs_cast, Int.natCast_natAbs]
    rw [hProduct, Int.natCast_natAbs]
    exact abs_abs_sub_abs_le n (count * unit)
  have hNear := h.near
  constructor
  · rw [abs_div_sub _ _ pos, div_le_div_iff₀ hUnit (by norm_num)]
    exact_mod_cast (by omega : |(n.natAbs : Int) - count.natAbs * unit| * 2 ≤ 1 * (unit : Int))
  · rw [abs_div_sub _ _ pos, div_eq_div_iff hUnit.ne' (by norm_num)]
    intro hTie
    have hTie' : |(n.natAbs : Int) - count.natAbs * unit| * 2 = 1 * (unit : Int) := by
      exact_mod_cast hTie
    have hEven := h.even (by omega)
    omega

/-- The count has the sign of the number. -/
theorem count_eq (h : NearestMultiple n unit count) (pos : 0 < unit) :
    count = if n < 0 then -(count.natAbs : Int) else count.natAbs := by
  have hNear := h.near
  have hLow := neg_abs_le (n - count * unit)
  have hHigh := le_abs_self (n - count * unit)
  split
  · rename_i hNegative
    have hCount : count ≤ 0 := by
      by_contra hPositive
      have hProduct : (unit : Int) ≤ count * unit := by nlinarith
      omega
    omega
  · rename_i hNonneg
    have hCount : 0 ≤ count := by
      by_contra hNegative
      have hProduct : count * unit ≤ -(unit : Int) := by nlinarith
      omega
    omega

end NearestMultiple

/-- `n` is a double, or it is so far from the middle of two multiples of `unit` that what doubles
round off does not matter. -/
def Settled (n : Int) (unit : Nat) : Prop :=
  n.natAbs ≤ 2 ^ 53 ∨ ∀ j : Int, j % 2 = 1 → n.natAbs < 2 ^ 50 * (2 * n - j * unit).natAbs

/-- The middles for a number without its sign are those for the number, maybe negated. -/
theorem far_natAbs {n : Int} {unit : Nat}
    (far : ∀ j : Int, j % 2 = 1 → n.natAbs < 2 ^ 50 * (2 * n - j * unit).natAbs) (j : Int)
    (hj : j % 2 = 1) : n.natAbs < 2 ^ 50 * (2 * (n.natAbs : Int) - j * unit).natAbs := by
  rcases Int.natAbs_eq n with hn | hn
  · rw [← hn]
    exact far j hj
  · have hMirrored : 2 * (n.natAbs : Int) - j * unit = -(2 * n - -j * unit) := by linarith
    rw [hMirrored, Int.natAbs_neg]
    exact far (-j) (by omega)

/-- The powers of ten that are 64-bit integers are doubles. -/
theorem ofFloat_unit {places : Nat} (small : places ≤ 18) :
    ∃ d, Binary.ofFloat (Float.ofInt (Nat.pow 10 places : Nat)) = .finite d ∧
      d.negative = false ∧ d.significand ≠ 0 ∧ d.magnitude = (10 ^ places : Nat) := by
  have hUnit : 10 ^ places ≤ 10 ^ 18 := Nat.pow_le_pow_right (by decide) small
  obtain ⟨d, hd, hSign, hRounds⟩ :=
    ofFloat_ofInt (n := (10 ^ places : Nat)) (by rw [Int.natAbs_natCast]; omega)
  have hValue : (((10 ^ places : Nat) : Int).natAbs : ℚ) =
      (5 ^ places : Nat) * 2 ^ (places : Int) := by
    rw [Int.natAbs_natCast, zpow_natCast]
    push_cast
    rw [← mul_pow]
    norm_num
  have hShort : 5 ^ places ≤ 2 ^ 53 :=
    (Nat.pow_le_pow_right (by decide) small).trans (by decide : 5 ^ 18 ≤ 2 ^ 53)
  rw [hValue] at hRounds
  have hExact := hRounds.eq_of_representable hShort (by omega)
  rw [← hValue, Int.natAbs_natCast] at hExact
  refine ⟨d, hd, ?_, ?_, hExact⟩
  · rw [hSign]
    simp
  · intro hZero
    rw [Dyadic.magnitude, hZero, Nat.cast_zero, zero_mul] at hExact
    have hPositive : (10 ^ places : Nat) ≠ 0 := by positivity
    exact hPositive (by exact_mod_cast hExact.symm)

/-- Doubles find the count of the nearest multiple of a number that is settled. -/
theorem roundedInteger?_quotient {n count : Int} {places : Nat} (word : n.natAbs ≤ 2 ^ 63)
    (pos : 0 < places) (small : places ≤ 18) (nearest : NearestMultiple n (10 ^ places) count)
    (settled : Settled n (10 ^ places)) :
    roundedInteger? (Float.ofInt n / Float.ofInt (Nat.pow 10 places : Nat)) = some count := by
  have hMost : 10 ^ places ≤ 10 ^ 18 := Nat.pow_le_pow_right (by decide) small
  have hPos : 0 < 10 ^ places := by positivity
  have hEven : 10 ^ places % 2 = 0 := by
    obtain ⟨k, rfl⟩ := Nat.exists_eq_succ_of_ne_zero pos.ne'
    rw [pow_succ]
    omega
  obtain ⟨a, ha, hSign, hFirst⟩ := ofFloat_ofInt (word.trans (by decide))
  obtain ⟨b, hb, hPositive, hNonzero, hPower⟩ := ofFloat_unit small
  have hSmall : a.magnitude / b.magnitude ≤ 2 ^ (1023 : Int) := by
    have hWord : (n.natAbs : ℚ) ≤ 2 ^ (63 : Int) := by exact_mod_cast word
    have hUnit : (1 : ℚ) ≤ b.magnitude := by
      rw [hPower]
      exact_mod_cast hPos
    calc
      a.magnitude / b.magnitude ≤ a.magnitude := div_le_self hFirst.nonneg hUnit
      _ ≤ 2 ^ (63 : Int) := hFirst.le_two_zpow (by decide) hWord
      _ ≤ 2 ^ (1023 : Int) := two_zpow_le (by decide)
  obtain ⟨d, hd, hSign', hSecond⟩ := ofFloat_div ha hb hNonzero hSmall
  rw [hPower] at hSecond
  have hNearest : NearestEven d.magnitude count.natAbs := by
    rcases settled with hDouble | hFar
    · have hExact : a.magnitude = n.natAbs * 2 ^ (0 : Int) :=
        RoundsTo.eq_of_representable (by simpa using hFirst) hDouble (by decide)
      rw [hExact, zpow_zero, mul_one] at hSecond
      exact nearestEven_of_double hEven hPos (by omega) hDouble hSecond (nearest.nearestEven hPos)
    · exact nearestEven_of_far hPos (by omega) (far_natAbs hFar) hFirst hSecond
        (nearest.nearestEven hPos)
  have hCount := hNearest.unique d.nearestEven_roundedMagnitude
  rw [roundedInteger?, hd, nearest.count_eq hPos, hCount]
  dsimp only
  rw [Dyadic.round, hSign', hSign, hPositive]
  simp

theorem natAbs_toInt_le (n : Int64) : n.toInt.natAbs ≤ 2 ^ 63 := by
  have hLow := Int64.le_toInt n
  have hHigh := Int64.toInt_lt n
  omega

/-- A number of 64 bits is nearest to itself. -/
theorem nearestWord_toInt (m : Int64) : nearestWord m.toInt = m := by
  have hLow : ¬ m.toInt < Int64.minValue.toInt := Int.not_lt.mpr m.le_toInt
  have hHigh : ¬ Int64.maxValue.toInt < m.toInt := Int.not_lt.mpr (Int.le_of_lt_add_one m.toInt_lt)
  rw [nearestWord, if_neg hLow, if_neg hHigh, Int64.ofInt_toInt]

/-- Rounding gives the nearest multiple if it fits and the division as floats leaves no doubt about
it. -/
theorem roundInteger_eq {n m : Int64} {places : Nat} {count : Int} (pos : 0 < places)
    (nearest : NearestMultiple n.toInt (10 ^ places) count)
    (fits : m.toInt = count * (10 ^ places : Nat))
    (settled : places ≤ 18 → Settled n.toInt (10 ^ places)) : roundInteger n places = m := by
  rw [roundInteger]
  split
  · rename_i hLarge
    have hUnit : 10 ^ 19 ≤ 10 ^ places := Nat.pow_le_pow_right (by decide) hLarge
    have hWord := natAbs_toInt_le m
    have hCount : count = 0 := by
      by_contra hNonzero
      rw [fits, Int.natAbs_mul, Int.natAbs_natCast] at hWord
      have hProduct : 1 * 10 ^ places ≤ count.natAbs * 10 ^ places :=
        Nat.mul_le_mul_right _ (by omega)
      omega
    rw [hCount, zero_mul] at fits
    exact (Int64.toInt_inj.mp fits).symm
  · rename_i hSmall
    have hPlaces : places ≤ 18 := Nat.le_of_not_lt hSmall
    have hQuotient := roundedInteger?_quotient (natAbs_toInt_le n) pos hPlaces nearest
      (settled hPlaces)
    dsimp only
    rw [hQuotient]
    change nearestWord (count * (10 ^ places : Nat)) = m
    rw [← fits, nearestWord_toInt]

namespace Builtin

variable {O : Type} [Inspectable O]

/-- Digits after the point leave an integer as it is; other ones round it. -/
theorem run_round_integer (n places : Int64) :
    (round (O := O)).run (.integer n) ⟨[.integer places], []⟩ =
      .ok (.integer (if 0 ≤ places then n else roundInteger n places.toInt.natAbs)) :=
  rfl

/-- An integer is rounded to the nearest multiple of a power of ten, of two that are as near to the
even one, if that is a 64-bit integer and the number is settled. -/
theorem run_round_nearest {n places m : Int64} {count : Int} (negative : places < 0)
    (nearest : NearestMultiple n.toInt (10 ^ places.toInt.natAbs) count)
    (fits : m.toInt = count * (10 ^ places.toInt.natAbs : Nat))
    (settled : places.toInt.natAbs ≤ 18 → Settled n.toInt (10 ^ places.toInt.natAbs)) :
    (round (O := O)).run (.integer n) ⟨[.integer places], []⟩ = .ok (.integer m) := by
  have hBelow : places.toInt < 0 := Int64.lt_iff_toInt_lt.mp negative
  have hNegative : ¬ 0 ≤ places := by
    rw [Int64.le_iff_toInt_le]
    exact Int.not_le.mpr hBelow
  have hPos : 0 < places.toInt.natAbs := by omega
  rw [run_round_integer, if_neg hNegative, roundInteger_eq hPos nearest fits settled]

theorem run_round_nearest_midway :
    (-3 : Int64) < 0 ∧ NearestMultiple 9007199254740500 (10 ^ 3) 9007199254740 ∧
      Settled 9007199254740500 (10 ^ 3) ∧
      (round (O := DocumentObject)).run (.integer 9007199254740500) ⟨[.integer (-3)], []⟩ =
        .ok (.integer 9007199254740000) := by
  have hNearest : NearestMultiple 9007199254740500 (10 ^ 3) 9007199254740 :=
    ⟨by decide, fun _ => by decide⟩
  have hSettled : Settled 9007199254740500 (10 ^ 3) := .inl (by decide)
  exact ⟨by decide, hNearest, hSettled,
    run_round_nearest (by decide) hNearest (by decide) fun _ => hSettled⟩

/-- The nearest multiple is the one by 1. The number itself becomes the double `15000000000000000`
first, in the middle, and the even multiple is then the one by 2. -/
theorem run_round_not_nearest :
    NearestMultiple 14999999999999999 (10 ^ 16) 1 ∧
      (round (O := DocumentObject)).run (.integer 14999999999999999) ⟨[.integer (-16)], []⟩ =
        .ok (.integer 20000000000000000) := by
  have hRounded : roundInteger 14999999999999999 16 = 20000000000000000 := by decide +kernel
  have hPlaces : (-16 : Int64).toInt.natAbs = 16 := by decide
  refine ⟨⟨by decide, fun h => absurd h (by decide)⟩, ?_⟩
  rw [run_round_integer, if_neg (by decide), hPlaces, hRounded]

end Builtin

end GatedQuery
