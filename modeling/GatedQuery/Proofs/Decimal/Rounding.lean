import GatedQuery.Proofs.Decimal.Doubles
import GatedQuery.Proofs.Decimal.NearestEven
import Mathlib.Algebra.Order.Archimedean.Basic
import Mathlib.Algebra.Order.Field.Power

/-! Arithmetic shifts the mantissa of a result to the length that doubles have, keeps what was shifted
out as an accuracy, and rounds by it. The result is the double nearest to the exact value, of two as
near the one with an even significand. -/

namespace GatedQuery

open Float.Model Float.Model.UnpackedFloat

/-- The exact value `x` lies above `m` as an accuracy says. -/
def LiesAbove (x : ℚ) (m : Nat) : Accuracy → Prop
  | .exact => x = m
  | .inexact .lt => m < x ∧ x < m + 1 / 2
  | .inexact .eq => x = m + 1 / 2
  | .inexact .gt => m + 1 / 2 < x ∧ x < m + 1

namespace LiesAbove

/-- A mantissa with what was cut off it encloses the exact value. -/
theorem bounds {x : ℚ} {m : Nat} {a : Accuracy} (h : LiesAbove x m a) : m ≤ x ∧ x < m + 1 := by
  rcases a with _ | _ | _ | _ <;> simp only [LiesAbove] at h <;> constructor <;> linarith

/-- The accuracy tells on which side of a half the rest is, which is all that rounding needs. -/
theorem nearestEven {x : ℚ} {m : Nat} {a : Accuracy} (h : LiesAbove x m a) :
    NearestEven x (a.roundToNearestEven m) := by
  rcases a with _ | _ | _ | _
  · obtain rfl : x = m := h
    exact .natCast m
  · obtain ⟨hLow, hHigh⟩ : m < x ∧ x < m + 1 / 2 := h
    apply NearestEven.of_lt
    rw [Accuracy.roundToNearestEven, abs_lt]
    constructor <;> linarith
  · obtain rfl : x = m + 1 / 2 := h
    rw [Accuracy.roundToNearestEven]
    rcases Nat.mod_two_eq_zero_or_one m with hEven | hOdd
    · rw [hEven]
      exact ⟨by norm_num, fun _ => hEven⟩
    · rw [hOdd]
      refine ⟨?_, fun _ => by omega⟩
      push_cast
      rw [show (m : ℚ) + 1 / 2 - (m + 1) = -(1 / 2) by ring, abs_neg]
      norm_num
  · obtain ⟨hLow, hHigh⟩ : m + 1 / 2 < x ∧ x < m + 1 := h
    apply NearestEven.of_lt
    rw [Accuracy.roundToNearestEven, abs_lt]
    push_cast
    constructor <;> linarith

end LiesAbove

theorem liesAbove_accuracyOfFraction (num : Nat) {den : Nat} (h : 0 < den) :
    LiesAbove (num / den) (num / den : Nat) (accuracyOfFraction (num % den) den) := by
  obtain ⟨hNonneg, hBelow⟩ := mod_div_bounds num h
  rw [natCast_div_eq_add num h, accuracyOfFraction]
  by_cases hWhole : num % den = 0
  · rw [if_pos hWhole, hWhole]
    simp [LiesAbove]
  · rw [if_neg hWhole]
    have hPos : 0 < ((num % den : Nat) : ℚ) / den := by
      have hRest : (0 : ℚ) < (num % den : Nat) := by exact_mod_cast Nat.pos_of_ne_zero hWhole
      positivity
    cases hHalf : compare (2 * (num % den)) den with
    | lt =>
        have hLess := (div_lt_half_iff _ h).mpr (Nat.compare_eq_lt.mp hHalf)
        exact ⟨by linarith, by linarith⟩
    | eq =>
        have hTie := (div_eq_half_iff _ h).mpr (Nat.compare_eq_eq.mp hHalf)
        rw [hTie]
        rfl
    | gt =>
        have hMore := (half_lt_div_iff _ h).mpr (Nat.compare_eq_gt.mp hHalf)
        exact ⟨by linarith, by linarith⟩

theorem liesAbove_ofMantissaAndAccuracy {x : ℚ} {m : Nat} {a : Accuracy} (h : LiesAbove x m a) :
    LiesAbove x (ExtendedMantissa.ofMantissaAndAccuracy m a).mantissa
      (ExtendedMantissa.ofMantissaAndAccuracy m a).accuracy := by
  rcases a with _ | _ | _ | _ <;> exact h

/-- Shifting by one bit moves that bit into the accuracy. -/
theorem liesAbove_shiftRightOne {x : ℚ} {em : ExtendedMantissa}
    (h : LiesAbove x em.mantissa em.accuracy) :
    LiesAbove (x / 2) em.shiftRightOne.mantissa em.shiftRightOne.accuracy := by
  obtain ⟨m, roundBit, stickyBit⟩ := em
  have hSplit : (m : ℚ) = 2 * (m / 2 : Nat) + (m % 2 : Nat) := by
    exact_mod_cast (Nat.div_add_mod m 2).symm
  rcases Nat.mod_two_eq_zero_or_one m with hEven | hOdd
  · rw [hEven] at hSplit
    cases roundBit <;> cases stickyBit <;>
      simp [ExtendedMantissa.shiftRightOne, ExtendedMantissa.accuracy, LiesAbove, hEven] at h ⊢ <;>
      first | linarith | (constructor <;> linarith)
  · rw [hOdd] at hSplit
    cases roundBit <;> cases stickyBit <;>
      simp [ExtendedMantissa.shiftRightOne, ExtendedMantissa.accuracy, LiesAbove, hOdd] at h ⊢ <;>
      first | linarith | (constructor <;> linarith)

/-- Shifting keeps what is known of the exact value. The induction is on the distance. -/
theorem liesAbove_shiftRight {x : ℚ} {em : ExtendedMantissa}
    (h : LiesAbove x em.mantissa em.accuracy) (n : Nat) :
    LiesAbove (x / 2 ^ n) (em >>> n).mantissa (em >>> n).accuracy := by
  induction n with
  | zero =>
      rw [pow_zero, div_one]
      exact h
  | succ n ih =>
      have hNext := liesAbove_shiftRightOne ih
      rw [div_div, ← pow_succ] at hNext
      exact hNext

/-- The doubles about `q` are multiples of `2 ^ e`. -/
structure Binade (q : ℚ) (e : Int) : Prop where
  least : -1074 ≤ e
  low : 2 ^ (e + 52) ≤ q ∨ e = -1074
  high : q < 2 ^ (e + 53)

/-- `v` is the double nearest to `q`, of two as near the one with an even significand, as if there
were no greatest double. -/
def RoundsTo (q v : ℚ) : Prop :=
  ∃ (e : Int) (m : Nat), Binade q e ∧ NearestEven (q / 2 ^ e) m ∧ v = m * 2 ^ e

theorem two_zpow_natCast_add (n : Nat) (e : Int) : (2 : ℚ) ^ ((n : Int) + e) = 2 ^ n * 2 ^ e := by
  rw [zpow_add₀ (by norm_num), zpow_natCast]

theorem two_zpow_add_div (e : Int) (n : Nat) : (2 : ℚ) ^ (e + n) / 2 ^ e = 2 ^ n := by
  rw [add_comm, two_zpow_natCast_add, mul_div_cancel_right₀ _ (by positivity)]

theorem two_zpow_le {d e : Int} (h : d ≤ e) : (2 : ℚ) ^ d ≤ 2 ^ e :=
  zpow_le_zpow_right₀ (by norm_num) h

namespace Binade

variable {q : ℚ} {e : Int}

/-- In the units of its binade a number has at most 53 bits. -/
theorem div_lt (h : Binade q e) : q / 2 ^ e < 2 ^ 53 := by
  rw [div_lt_iff₀ (by positivity)]
  have hHigh := h.high
  rw [add_comm] at hHigh
  exact hHigh.trans_eq (two_zpow_natCast_add 53 e)

/-- In the units of its binade a normal number has all 53 bits. -/
theorem le_div (h : Binade q e) (normal : e ≠ -1074) : 2 ^ 52 ≤ q / 2 ^ e := by
  rw [le_div_iff₀ (by positivity)]
  have hLow := h.low.resolve_right normal
  rw [add_comm] at hLow
  exact (two_zpow_natCast_add 52 e).symm.trans_le hLow

/-- There is one binade about a number. -/
theorem unique {d : Int} (hd : Binade q d) (he : Binade q e) : d = e := by
  have hLess {d e : Int} (hd : Binade q d) (he : Binade q e) : ¬ d < e := fun h => by
    have hLeast := hd.least
    have hLow := he.low.resolve_right (by omega)
    have hHigh : (2 : ℚ) ^ (d + 53) ≤ 2 ^ (e + 52) := two_zpow_le (by omega)
    exact absurd (hd.high.trans_le hHigh) hLow.not_gt
  exact le_antisymm (not_lt.mp (hLess he hd)) (not_lt.mp (hLess hd he))

/-- Rounding to a whole significand carries at most to the next power of two. -/
theorem rounded_le (h : Binade q e) {m : Nat} (rounded : NearestEven (q / 2 ^ e) m) :
    m ≤ 2 ^ 53 := by
  refine rounded.mono (.natCast (2 ^ 53)) ?_
  push_cast
  exact h.div_lt.le

theorem le_rounded (h : Binade q e) {m : Nat} (rounded : NearestEven (q / 2 ^ e) m)
    (normal : e ≠ -1074) : 2 ^ 52 ≤ m := by
  refine NearestEven.mono (.natCast (2 ^ 52)) rounded ?_
  push_cast
  exact h.le_div normal

end Binade

namespace RoundsTo

variable {q v : ℚ}

theorem zero : RoundsTo 0 0 := by
  refine ⟨-1074, 0, ⟨le_rfl, .inr rfl, by positivity⟩, ?_, by simp⟩
  rw [zero_div]
  exact .natCast 0

/-- Rounding in units of the last place. -/
theorem of_units {x : ℚ} {e : Int} {m : Nat} (least : -1074 ≤ e) (low : 2 ^ 52 ≤ x ∨ e = -1074)
    (high : x < 2 ^ 53) (rounded : NearestEven x m) : RoundsTo (x * 2 ^ e) (m * 2 ^ e) := by
  have hPos : (0 : ℚ) < 2 ^ e := by positivity
  refine ⟨e, m, ⟨least, low.imp_left fun h => ?_, ?_⟩, ?_, rfl⟩
  · rw [add_comm]
    exact (two_zpow_natCast_add 52 e).trans_le (mul_le_mul_of_nonneg_right h hPos.le)
  · rw [add_comm]
    exact (mul_lt_mul_of_pos_right high hPos).trans_eq (two_zpow_natCast_add 53 e).symm
  · rwa [mul_div_cancel_right₀ _ hPos.ne']

theorem nonneg (h : RoundsTo q v) : 0 ≤ v := by
  obtain ⟨e, m, _, _, rfl⟩ := h
  positivity

/-- Every number that is not negative rounds to some double, in the binade around it. -/
theorem exists_of_nonneg (nonneg : 0 ≤ q) : ∃ v, RoundsTo q v := by
  rcases nonneg.eq_or_lt with rfl | hPos
  · exact ⟨0, .zero⟩
  · obtain ⟨n, hLow, hHigh⟩ := exists_mem_Ico_zpow hPos (by norm_num : (1 : ℚ) < 2)
    have hBinade : Binade q (max (n - 52) (-1074)) := by
      refine ⟨by omega, ?_, hHigh.trans_le (two_zpow_le (by omega))⟩
      rcases le_total (n - 52) (-1074) with hLeast | hNormal
      · exact .inr (by omega)
      · left
        rw [max_eq_left hNormal, sub_add_cancel]
        exact hLow
    obtain ⟨m, hm⟩ : ∃ m, NearestEven (q / 2 ^ max (n - 52) (-1074)) m :=
      NearestEven.exists_of_nonneg (by positivity)
    exact ⟨_, _, m, hBinade, hm, rfl⟩

/-- There is one double nearest to a number. -/
theorem unique {w : ℚ} (hv : RoundsTo q v) (hw : RoundsTo q w) : v = w := by
  obtain ⟨d, m, hd, hm, rfl⟩ := hv
  obtain ⟨e, n, he, hn, rfl⟩ := hw
  obtain rfl := hd.unique he
  rw [hm.unique hn]

/-- A number with a significand of at most 53 bits is a double, so it is not changed. -/
theorem eq_of_representable {k : Nat} {t : Int} (h : RoundsTo (k * 2 ^ t) v) (short : k ≤ 2 ^ 53)
    (least : -1074 ≤ t) : v = k * 2 ^ t := by
  obtain ⟨e, m, hBinade, hRounded, rfl⟩ := h
  have hWhole : ∃ n : Nat, (k : ℚ) * 2 ^ t / 2 ^ e = n := by
    by_cases hFine : e ≤ t
    · obtain ⟨d, hd⟩ := Int.eq_ofNat_of_zero_le (Int.sub_nonneg_of_le hFine)
      refine ⟨k * 2 ^ d, ?_⟩
      rw [mul_div_assoc, ← zpow_sub₀ (by norm_num), hd, zpow_natCast]
      push_cast
      rfl
    · -- The number is then the least one of its binade.
      have hLow : (2 : ℚ) ^ (e + 52) ≤ k * 2 ^ t := hBinade.low.resolve_right (by omega)
      have hHigh : (k : ℚ) * 2 ^ t ≤ 2 ^ (e + 52) :=
        calc
          (k : ℚ) * 2 ^ t ≤ 2 ^ 53 * 2 ^ t :=
            mul_le_mul_of_nonneg_right (by exact_mod_cast short) (by positivity)
          _ = 2 ^ ((53 : Nat) + t) := (two_zpow_natCast_add 53 t).symm
          _ ≤ 2 ^ (e + 52) := two_zpow_le (by push_cast; omega)
      refine ⟨2 ^ 52, ?_⟩
      rw [hHigh.antisymm hLow]
      exact (two_zpow_add_div e 52).trans (by norm_num)
  obtain ⟨n, hn⟩ := hWhole
  rw [hn] at hRounded
  rw [hRounded.unique (.natCast n), ← hn, div_mul_cancel₀ _ (by positivity)]

/-- Rounding does not pass a power of two. -/
theorem le_two_zpow (h : RoundsTo q v) {t : Int} (least : -1074 ≤ t) (le : q ≤ 2 ^ t) :
    v ≤ 2 ^ t := by
  obtain ⟨e, m, hBinade, hRounded, rfl⟩ := h
  have hFine : e ≤ t := by
    rcases hBinade.low with hLow | hLeast
    · have hExponents := (zpow_le_zpow_iff_right₀ (by norm_num)).mp (hLow.trans le)
      omega
    · omega
  obtain ⟨d, hd⟩ := Int.eq_ofNat_of_zero_le (Int.sub_nonneg_of_le hFine)
  obtain rfl : t = d + e := by omega
  rw [two_zpow_natCast_add] at le ⊢
  have hMost : m ≤ 2 ^ d := by
    refine hRounded.mono (.natCast (2 ^ d)) ?_
    rw [div_le_iff₀ (by positivity)]
    exact_mod_cast le
  exact mul_le_mul_of_nonneg_right (by exact_mod_cast hMost) (by positivity)

/-- A number that reaches a power of two does not round below it. -/
theorem le_of_two_zpow_le (h : RoundsTo q v) {t : Int} (least : -1074 ≤ t) (le : 2 ^ t ≤ q) :
    2 ^ t ≤ v := by
  obtain ⟨e, m, hBinade, hRounded, rfl⟩ := h
  by_cases hFine : e ≤ t
  · obtain ⟨d, hd⟩ := Int.eq_ofNat_of_zero_le (Int.sub_nonneg_of_le hFine)
    obtain rfl : t = d + e := by omega
    rw [two_zpow_natCast_add] at le ⊢
    have hLeast : 2 ^ d ≤ m := by
      refine NearestEven.mono (.natCast (2 ^ d)) hRounded ?_
      rw [le_div_iff₀ (by positivity)]
      exact_mod_cast le
    exact mul_le_mul_of_nonneg_right (by exact_mod_cast hLeast) (by positivity)
  · -- The power is then below the binade.
    have hFull := hBinade.le_rounded hRounded (by omega)
    calc
      (2 : ℚ) ^ t ≤ 1 * 2 ^ e := by
        rw [one_mul]
        exact two_zpow_le (by omega)
      _ ≤ m * 2 ^ e :=
        mul_le_mul_of_nonneg_right (by exact_mod_cast Nat.one_le_two_pow.trans hFull) (by positivity)

theorem lt_of_le_two_zpow (h : RoundsTo q v) {t : Int} (least : -1074 ≤ t) (le : q ≤ 2 ^ t)
    (small : t < 1024) : v < 2 ^ (1024 : Int) :=
  (h.le_two_zpow least le).trans_lt (zpow_lt_zpow_right₀ (by norm_num) small)

/-- What is rounded off is less than the part of the number that its 53 bits leave. -/
theorem error (h : RoundsTo q v) (normal : 2 ^ (-1022 : Int) ≤ q) :
    v = q ∨ |v - q| * 2 ^ 53 < q := by
  obtain ⟨e, m, hBinade, hRounded, rfl⟩ := h
  have hPos : (0 : ℚ) < 2 ^ e := by positivity
  have hLow : (2 : ℚ) ^ (e + (52 : Nat)) ≤ q := by
    rcases hBinade.low with hLow | rfl
    · exact hLow
    · exact normal
  rcases hLow.lt_or_eq with hLess | rfl
  · right
    have hUnits : (m : ℚ) * 2 ^ e - q = (m - q / 2 ^ e) * 2 ^ e := by
      rw [sub_mul, div_mul_cancel₀ _ hPos.ne']
    calc
      |(m : ℚ) * 2 ^ e - q| * 2 ^ 53 = |q / 2 ^ e - m| * 2 ^ e * 2 ^ 53 := by
        rw [hUnits, abs_mul, abs_sub_comm, abs_of_pos hPos]
      _ ≤ 1 / 2 * 2 ^ e * 2 ^ 53 := by
        have hNear := hRounded.near
        gcongr
      _ = 2 ^ (e + (52 : Nat)) := by
        rw [add_comm, two_zpow_natCast_add]
        ring
      _ < q := hLess
  · left
    have hWhole : (2 : ℚ) ^ (e + (52 : Nat)) / 2 ^ e = (2 ^ 52 : Nat) := by
      rw [two_zpow_add_div]
      norm_num
    rw [hWhole] at hRounded
    rw [hRounded.unique (.natCast _), ← hWhole, div_mul_cancel₀ _ hPos.ne']

theorem eq_zero (h : RoundsTo 0 v) : v = 0 := by
  have hZero : RoundsTo ((0 : Nat) * 2 ^ (0 : Int)) v := by simpa using h
  rw [hZero.eq_of_representable (by decide) (by decide)]
  simp

/-- The relative error of a normal number is at most half a unit in the last place. -/
theorem error_le (h : RoundsTo q v) (normal : q = 0 ∨ 2 ^ (-1022 : Int) ≤ q) :
    |v - q| * 2 ^ 53 ≤ q := by
  rcases normal with rfl | hNormal
  · simp [h.eq_zero]
  · rcases h.error hNormal with rfl | hLess
    · have hNonneg := h.nonneg
      simpa using hNonneg
    · exact hLess.le

end RoundsTo

/-- A result has 53 bits, unless that would need a smaller exponent than there is. -/
theorem targetExponent_eq (t : Int) : Format.binary64.targetExponent t = max (t - 53) (-1074) :=
  rfl

/-- The exponent to which a mantissa is shifted is the one of the doubles about the exact value. -/
theorem binade_targetExponent {x : ℚ} {m : Nat} (low : m ≤ x) (high : x < m + 1) {e : Int}
    (h : e ≤ Format.binary64.targetExponent (totalExponent m e)) :
    Binade (x * 2 ^ e) (Format.binary64.targetExponent (totalExponent m e)) := by
  rw [targetExponent_eq, totalExponent] at h ⊢
  have hPos : (0 : ℚ) < 2 ^ e := by positivity
  refine ⟨by omega, ?_, ?_⟩
  · by_cases hLeast : max ((m.log2 : Int) + 1 + e - 53) (-1074) = -1074
    · exact .inr hLeast
    · left
      have hNonzero : m ≠ 0 := by
        rintro rfl
        simp at h hLeast
        omega
      have hExponent : max ((m.log2 : Int) + 1 + e - 53) (-1074) + 52 = m.log2 + e := by omega
      have hLog : (2 : ℚ) ^ m.log2 ≤ m := by exact_mod_cast Nat.log2_self_le hNonzero
      rw [hExponent, two_zpow_natCast_add]
      exact mul_le_mul_of_nonneg_right (hLog.trans low) hPos.le
  · have hLog : (m : ℚ) + 1 ≤ 2 ^ (m.log2 + 1) := by exact_mod_cast Nat.lt_log2_self
    calc
      x * 2 ^ e < 2 ^ (m.log2 + 1) * 2 ^ e := mul_lt_mul_of_pos_right (by linarith) hPos
      _ = 2 ^ ((m.log2 + 1 : Nat) + e) := (two_zpow_natCast_add _ _).symm
      _ ≤ _ := two_zpow_le (by push_cast; omega)

/-- An unpacked number that is a double: its sign and its magnitude. -/
inductive IsDouble : UnpackedFloat → Sign → ℚ → Prop where
  | zero (s : Sign) : IsDouble (.zero s) s 0
  | finite (s : Sign) {m : Nat} {e : Int} (pos : 0 < m) (canonical : IsCanonical m e) :
      IsDouble (.finite s m e pos) s (m * 2 ^ e)

theorem shiftToExponent_of_ge (m : Nat) (a : Accuracy) {e t : Int} (h : t ≤ e) :
    shiftToExponent m e a t = (ExtendedMantissa.ofMantissaAndAccuracy m a, e) := by
  have hNone : (t - e).toNat = 0 := by omega
  rw [shiftToExponent, hNone]
  simp only [Nat.cast_zero, add_zero]
  rfl

/-- Bits below the exponent that is asked for go into the accuracy. -/
theorem shiftToExponent_of_le (m : Nat) (a : Accuracy) {e t : Int} (h : e ≤ t) :
    shiftToExponent m e a t =
      (ExtendedMantissa.ofMantissaAndAccuracy m a >>> (t - e).toNat, t) := by
  have hReached : e + (t - e).toNat = t := by omega
  rw [shiftToExponent, hReached]

theorem log2_lt_of_lt {m n : Nat} (h : m < 2 ^ (n + 1)) : m.log2 < n + 1 := by
  rcases Nat.eq_zero_or_pos m with rfl | hPos
  · simp
  · exact (Nat.log2_lt hPos.ne').mpr h

/-- A mantissa that is not too long stays as it is. -/
theorem shiftToTargetExponent_of_lt {m : Nat} (h : m < 2 ^ 53) {e : Int} (least : -1074 ≤ e) :
    shiftToTargetExponent Format.binary64 m e .exact = (⟨m, false, false⟩, e) := by
  have hLog := log2_lt_of_lt h
  rw [shiftToTargetExponent, targetExponent_eq, totalExponent, shiftToExponent_of_ge _ _ (by omega)]
  rfl

/-- A mantissa that rounding has made too long is a power of two. -/
theorem shiftToTargetExponent_carry {e : Int} (least : -1074 ≤ e) :
    shiftToTargetExponent Format.binary64 (2 ^ 53) e .exact =
      (⟨2 ^ 52, false, false⟩, e + 1) := by
  have hTarget : Format.binary64.targetExponent (totalExponent (2 ^ 53) e) = e + 1 := by
    rw [targetExponent_eq, totalExponent, Nat.log2_two_pow]
    omega
  have hOne : (e + 1 - e).toNat = 1 := by omega
  rw [shiftToTargetExponent, hTarget, shiftToExponent_of_le _ _ (by omega), hOne]
  rfl

/-- Rounding gives the double nearest to the exact value, if the exponent is not too large to begin
with. -/
theorem roundWithAccuracy_isDouble (s : Sign) {x : ℚ} {m : Nat} {a : Accuracy}
    (lies : LiesAbove x m a) {e : Int} (h : e ≤ Format.binary64.targetExponent (totalExponent m e)) :
    ∃ v, RoundsTo (x * 2 ^ e) v ∧ IsDouble (roundWithAccuracy Format.binary64 s m e a) s v := by
  obtain ⟨hLow, hHigh⟩ := lies.bounds
  have hBinade := binade_targetExponent hLow hHigh h
  rw [roundWithAccuracy, shiftToTargetExponent, shiftToExponent_of_le _ _ h]
  generalize Format.binary64.targetExponent (totalExponent m e) = t at h hBinade
  have hShift : x * 2 ^ e / 2 ^ t = x / 2 ^ (t - e).toNat := by
    have hExponent : t = ((t - e).toNat : Int) + e := by omega
    conv_lhs => rw [hExponent, two_zpow_natCast_add]
    exact mul_div_mul_right _ _ (by positivity)
  have hLies := liesAbove_shiftRight (liesAbove_ofMantissaAndAccuracy lies) (t - e).toNat
  rw [← hShift] at hLies
  obtain ⟨n, hn, hRounded⟩ : ∃ n, ExtendedMantissa.roundedMantissa
      (ExtendedMantissa.ofMantissaAndAccuracy m a >>> (t - e).toNat) = n ∧
        NearestEven (x * 2 ^ e / 2 ^ t) n := ⟨_, rfl, hLies.nearestEven⟩
  have hValue : RoundsTo (x * 2 ^ e) (n * 2 ^ t) := ⟨t, n, hBinade, hRounded, rfl⟩
  refine ⟨n * 2 ^ t, hValue, ?_⟩
  dsimp only
  rw [hn]
  rcases (hBinade.rounded_le hRounded).lt_or_eq with hLess | rfl
  · rw [shiftToTargetExponent_of_lt hLess hBinade.least]
    by_cases hZero : n = 0
    · subst hZero
      rw [dif_pos rfl, Nat.cast_zero, zero_mul]
      exact .zero s
    · rw [dif_neg hZero]
      refine .finite s (Nat.pos_of_ne_zero hZero) ⟨hLess, hBinade.least, ?_⟩
      by_cases hLeast : t = -1074
      · exact .inr hLeast
      · exact .inl (hBinade.le_rounded hRounded hLeast)
  · rw [shiftToTargetExponent_carry hBinade.least, dif_neg (by simp)]
    have hCarry : ((2 ^ 53 : Nat) : ℚ) * 2 ^ t = (2 ^ 52 : Nat) * 2 ^ (t + 1) := by
      rw [zpow_add₀ (by norm_num)]
      push_cast
      ring
    have hLeast := hBinade.least
    rw [hCarry]
    exact .finite s (m := 2 ^ 52) (by decide) ⟨by decide, by omega, .inl le_rfl⟩

end GatedQuery
