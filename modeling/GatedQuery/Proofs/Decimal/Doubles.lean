import GatedQuery.Decimal.Binary
import Mathlib.Algebra.Group.Nat.Defs

/-! What the bits of a double stand for, as far as arithmetic is concerned. The parts that are read
off the bits are those with which arithmetic unpacks a double, and packing a finite result keeps its
parts if they are canonical: the significand has all its bits, except at the least exponent. -/

namespace GatedQuery

open Float.Model Float.Model.UnpackedFloat

theorem toNat_unpackMantissa (b : BitVec 64) :
    (@unpackMantissa Format.binary64 b).toNat = b.toNat % 2 ^ 52 := by
  simp [unpackMantissa]

theorem toNat_unpackExponent (b : BitVec 64) :
    (@unpackExponent Format.binary64 b).toNat = b.toNat / 2 ^ 52 % 2 ^ 11 := by
  simp [unpackExponent, Nat.shiftRight_eq_div_pow]

/-- The sign is the first bit. -/
theorem toNat_unpackSign (b : BitVec 64) :
    (@unpackSign Format.binary64 b).toNat = b.toNat / 2 ^ 63 := by
  have hBits := b.isLt
  change (b.extractLsb 63 63).toNat = _
  rw [BitVec.extractLsb_toNat, Nat.shiftRight_eq_div_pow]
  omega

theorem toNat_append {m n : Nat} (high : BitVec m) (low : BitVec n) :
    (high ++ low).toNat = high.toNat * 2 ^ n + low.toNat := by
  rw [BitVec.toNat_append, ← Nat.shiftLeft_add_eq_or_of_lt low.isLt, Nat.shiftLeft_eq]

/-- The first bit of a normal significand is not stored. -/
theorem toNat_implicit (m : BitVec 52) : (1#1 ++ m).toNat = m.toNat + 2 ^ 52 := by
  rw [toNat_append, Nat.add_comm]
  rfl

theorem eq_allOnes_iff (e : BitVec 11) : e = -1#11 ↔ e.toNat = 2047 := by
  rw [← BitVec.toNat_inj]
  rfl

theorem eq_zero_iff {n : Nat} (b : BitVec n) : b = 0#n ↔ b.toNat = 0 := by
  rw [← BitVec.toNat_inj]
  simp

/-- The parts of a finite number determine it, whatever proof it carries. -/
theorem finite_congr {s s' : Sign} {m m' : Nat} {e e' : Int} {pos : 0 < m} {pos' : 0 < m'}
    (hSign : s = s') (hSignificand : m = m') (hExponent : e = e') :
    UnpackedFloat.finite s m e pos = .finite s' m' e' pos' := by
  subst hSign hSignificand hExponent
  rfl

section Unpack

variable {b : BitVec Format.binary64.numBits}

theorem unpack_infinity (top : unpackExponent b = -1#11) (whole : unpackMantissa b = 0#52) :
    UnpackedFloat.unpack Format.binary64 b = .infinity (Sign.ofBitVec (unpackSign b)) :=
  (if_pos top).trans (if_pos whole)

theorem unpack_notANumber (top : unpackExponent b = -1#11) (payload : unpackMantissa b ≠ 0#52) :
    UnpackedFloat.unpack Format.binary64 b = .notANumber :=
  (if_pos top).trans (if_neg payload)

theorem unpack_zero (least : unpackExponent b = 0#11) (whole : unpackMantissa b = 0#52) :
    UnpackedFloat.unpack Format.binary64 b = .zero (Sign.ofBitVec (unpackSign b)) :=
  (if_neg (least ▸ by decide)).trans ((if_pos least).trans (dif_pos whole))

/-- A number of the least exponent is unpacked with the bits that are stored. -/
theorem unpack_subnormal (least : unpackExponent b = 0#11) (some : 0 < (unpackMantissa b).toNat) :
    UnpackedFloat.unpack Format.binary64 b =
      .finite (Sign.ofBitVec (unpackSign b)) (unpackMantissa b).toNat (-1074) some := by
  have hSome : unpackMantissa b ≠ 0#52 := fun hZero => by
    rw [hZero] at some
    exact absurd some (by decide)
  refine (if_neg (least ▸ by decide)).trans ((if_pos least).trans ((dif_neg hSome).trans ?_))
  apply finite_congr rfl rfl
  rw [least]
  rfl

/-- A number of any greater exponent is unpacked with its implicit bit. -/
theorem unpack_normal (finite : unpackExponent b ≠ -1#11) (normal : unpackExponent b ≠ 0#11) :
    UnpackedFloat.unpack Format.binary64 b =
      .finite (Sign.ofBitVec (unpackSign b)) (1#1 ++ unpackMantissa b).toNat
        ((unpackExponent b).toNat - 1075) (toNat_implicit _ ▸ Nat.lt_add_left _ (by decide)) :=
  (if_neg finite).trans (if_neg normal)

end Unpack

def isNegative : Sign → Bool
  | .negative => true
  | .positive => false

theorem isNegative_ofBitVec (b : BitVec 1) : isNegative (Sign.ofBitVec b) = (b.toNat == 1) := by
  revert b
  decide

/-- The parts of an unpacked number. Zero has the least exponent. -/
def Binary.ofUnpacked : UnpackedFloat → Binary
  | .notANumber => .notANumber
  | .infinity s => .infinite (isNegative s)
  | .zero s => .finite ⟨isNegative s, 0, -1074⟩
  | .finite s m e _ => .finite ⟨isNegative s, m, e⟩

theorem ofFloat_eq_ofUnpacked (x : Float) :
    Binary.ofFloat x = Binary.ofUnpacked x.toModel.unpack := by
  let b : BitVec 64 := x.toModel.toBits.toBitVec
  have hSign : isNegative (Sign.ofBitVec (@unpackSign Format.binary64 b)) =
      (x.toBits.toNat / Nat.pow 2 63 == 1) := by
    rw [isNegative_ofBitVec, toNat_unpackSign]
    rfl
  have hExponent : (@unpackExponent Format.binary64 b).toNat =
      x.toBits.toNat / Nat.pow 2 52 % Nat.pow 2 11 := toNat_unpackExponent b
  have hFraction : (@unpackMantissa Format.binary64 b).toNat = x.toBits.toNat % Nat.pow 2 52 :=
    toNat_unpackMantissa b
  have hAllOnes := eq_allOnes_iff (@unpackExponent Format.binary64 b)
  have hLeast := eq_zero_iff (@unpackExponent Format.binary64 b)
  have hWhole := eq_zero_iff (@unpackMantissa Format.binary64 b)
  change _ = Binary.ofUnpacked (UnpackedFloat.unpack Format.binary64 b)
  rw [Binary.ofFloat, ← hSign, ← hExponent, ← hFraction]
  -- Both sides tell the numbers apart by the same exponents, and then by the same fractions.
  split
  · rename_i hNumber
    by_cases hZero : @unpackMantissa Format.binary64 b = 0#52
    · rw [unpack_zero (hLeast.mpr hNumber) hZero, hZero]
      rfl
    · rw [unpack_subnormal (hLeast.mpr hNumber) (Nat.pos_of_ne_zero (hZero ∘ hWhole.mpr))]
      rfl
  · rename_i hNumber
    split
    · rename_i hInfinite
      rw [unpack_infinity (hAllOnes.mpr hNumber) (hWhole.mpr (by simpa using hInfinite))]
      rfl
    · rename_i hPayload
      rw [unpack_notANumber (hAllOnes.mpr hNumber) fun hZero =>
        hPayload (by simpa using hWhole.mp hZero)]
      rfl
  · rename_i hNormal hFinite
    rw [unpack_normal (hFinite ∘ hAllOnes.mp) (hNormal ∘ hLeast.mp)]
    change _ = Binary.finite ⟨_, (1#1 ++ @unpackMantissa Format.binary64 b).toNat, _⟩
    rw [toNat_implicit]
    rfl

theorem exists_ofFloat_of_isFinite {x : Float} (h : x.isFinite = true) :
    ∃ d, Binary.ofFloat x = .finite d := by
  have hFinite : x.toModel.unpack.isFinite = true := h
  rw [ofFloat_eq_ofUnpacked]
  cases hParts : x.toModel.unpack with
  | notANumber | infinity s =>
      rw [hParts] at hFinite
      cases hFinite
  | zero s => exact ⟨_, rfl⟩
  | finite s m e pos => exact ⟨_, rfl⟩

theorem isFinite_of_ofFloat {x : Float} {d : Dyadic} (h : Binary.ofFloat x = .finite d) :
    x.isFinite = true := by
  have hFinite : x.isFinite = x.toModel.unpack.isFinite := rfl
  rw [ofFloat_eq_ofUnpacked] at h
  rw [hFinite]
  cases hParts : x.toModel.unpack with
  | notANumber | infinity s =>
      rw [hParts] at h
      cases h
  | zero s => rfl
  | finite s m e pos => rfl

/-- A double is nothing but its bits. -/
theorem eq_of_toBits {x y : Float} (h : x.toBits = y.toBits) : x = y := by
  obtain ⟨⟨bits, _⟩⟩ := x
  obtain ⟨⟨bits', _⟩⟩ := y
  change bits = bits' at h
  subst h
  rfl

def Dyadic.bits (d : Dyadic) : Nat :=
  d.negative.toNat * 2 ^ 63 +
    if d.significand < 2 ^ 52 then d.significand
    else (d.exponent + 1075).toNat * 2 ^ 52 + (d.significand - 2 ^ 52)

/-- The bits of a finite double are put together of its parts again. -/
theorem toNat_toBits_of_ofFloat {x : Float} {d : Dyadic} (h : Binary.ofFloat x = .finite d) :
    x.toBits.toNat = d.bits := by
  have hBits : x.toBits.toNat < 2 ^ 64 := x.toBits.toNat_lt
  have hFraction : x.toBits.toNat % 2 ^ 52 < 2 ^ 52 := Nat.mod_lt _ (by decide)
  have hSign : (x.toBits.toNat / 2 ^ 63 == 1).toNat = x.toBits.toNat / 2 ^ 63 := by
    obtain hBit | hBit : x.toBits.toNat / 2 ^ 63 = 0 ∨ x.toBits.toNat / 2 ^ 63 = 1 := by omega
    · rw [hBit]
      rfl
    · rw [hBit]
      rfl
  rw [Binary.ofFloat] at h
  split at h
  · rename_i hSubnormal
    have hExponent : x.toBits.toNat / 2 ^ 52 % 2 ^ 11 = 0 := hSubnormal
    cases h
    simp only [Dyadic.bits, Nat.pow_eq]
    rw [if_pos hFraction, hSign]
    omega
  · split at h <;> cases h
  · rename_i hNormal _
    cases h
    have hFull : ¬ x.toBits.toNat % 2 ^ 52 + 2 ^ 52 < 2 ^ 52 := by omega
    simp only [Dyadic.bits, Nat.pow_eq]
    rw [if_neg hFull, hSign]
    omega

/-- The parts of a finite double determine it. -/
theorem eq_of_ofFloat {x y : Float} {d : Dyadic} (hx : Binary.ofFloat x = .finite d)
    (hy : Binary.ofFloat y = .finite d) : x = y :=
  eq_of_toBits <| UInt64.toNat_inj.mp <|
    (toNat_toBits_of_ofFloat hx).trans (toNat_toBits_of_ofFloat hy).symm

/-- The significand and the exponent of a positive double. -/
structure IsCanonical (m : Nat) (e : Int) : Prop where
  lt : m < 2 ^ 53
  least : -1074 ≤ e
  normal : 2 ^ 52 ≤ m ∨ e = -1074

/-- What is read off the bits of a finite double is canonical. -/
theorem canonical_of_ofFloat {x : Float} {d : Dyadic} (h : Binary.ofFloat x = .finite d) :
    IsCanonical d.significand d.exponent := by
  have hFraction : x.toBits.toNat % 2 ^ 52 < 2 ^ 52 := Nat.mod_lt _ (by decide)
  rw [Binary.ofFloat] at h
  split at h
  · cases h
    have hShort : x.toBits.toNat % Nat.pow 2 52 < 2 ^ 53 := Nat.lt_trans hFraction (by decide)
    exact ⟨hShort, Int.le_refl _, .inr rfl⟩
  · split at h <;> cases h
  · rename_i hSubnormal _
    cases h
    have hNormal : x.toBits.toNat / Nat.pow 2 52 % Nat.pow 2 11 ≠ 0 := hSubnormal
    have hShort : x.toBits.toNat % Nat.pow 2 52 + Nat.pow 2 52 < 2 ^ 53 :=
      Nat.add_lt_add_right hFraction (2 ^ 52)
    exact ⟨hShort, by dsimp only; omega, .inl (Nat.le_add_left _ _)⟩

/-- The greatest exponent of a finite double. -/
theorem exponent_le_of_ofFloat {x : Float} {d : Dyadic} (h : Binary.ofFloat x = .finite d) :
    d.exponent ≤ 971 := by
  rw [Binary.ofFloat] at h
  split at h
  · cases h
    dsimp only
    omega
  · split at h <;> cases h
  · rename_i hFinite
    cases h
    have hNumber : x.toBits.toNat / Nat.pow 2 52 % Nat.pow 2 11 < Nat.pow 2 11 :=
      Nat.mod_lt _ (by decide)
    have hTop : x.toBits.toNat / Nat.pow 2 52 % Nat.pow 2 11 ≠ 2047 := hFinite
    have hPower : Nat.pow 2 11 = 2048 := rfl
    dsimp only
    omega

/-- Packing keeps the sign. -/
theorem unpackSign_packed (s : Sign) (e : BitVec 11) (m : BitVec 52) :
    Sign.ofBitVec (unpackSign (packComponents Format.binary64 s e m)) = s := by
  have hSign : unpackSign (packComponents Format.binary64 s e m) = s.toBitVec := by
    apply BitVec.eq_of_toNat_eq
    rw [toNat_unpackSign]
    change (s.toBitVec ++ e ++ m).toNat / 2 ^ 63 = _
    rw [toNat_append, toNat_append]
    have hExponent := e.isLt
    have hFraction := m.isLt
    omega
  rw [hSign]
  cases s <;> rfl

/-- Packed parts of a normal number are unpacked as they were. -/
theorem unpack_packed_normal (s : Sign) {m biased : Nat} (full : 2 ^ 52 ≤ m) (lt : m < 2 ^ 53)
    (low : 0 < biased) (high : biased < 2047) :
    UnpackedFloat.unpack Format.binary64
        (packComponents Format.binary64 s (BitVec.ofNat 11 biased) (BitVec.ofNat 52 m)) =
      .finite s m (biased - 1075) (Nat.lt_of_lt_of_le (by decide) full) := by
  have hExponent : (BitVec.ofNat 11 biased).toNat = biased := by
    rw [BitVec.toNat_ofNat, Nat.mod_eq_of_lt (by omega)]
  have hNotAllOnes : BitVec.ofNat 11 biased ≠ -1#11 := by
    rw [Ne, eq_allOnes_iff, hExponent]
    omega
  have hNotZero : BitVec.ofNat 11 biased ≠ 0#11 := by
    rw [Ne, eq_zero_iff, hExponent]
    omega
  have hSignificand : (1#1 ++ BitVec.ofNat 52 m).toNat = m := by
    rw [toNat_implicit, BitVec.toNat_ofNat]
    omega
  rw [unpack_normal (by rwa [unpackExponent_packComponents])
    (by rwa [unpackExponent_packComponents])]
  apply finite_congr (unpackSign_packed _ _ _)
  · rw [unpackMantissa_packComponents, hSignificand]
  · rw [unpackExponent_packComponents, hExponent]

/-- Packed parts of a subnormal number are unpacked as they were. -/
theorem unpack_packed_subnormal (s : Sign) {m : Nat} (pos : 0 < m) (lt : m < 2 ^ 52) :
    UnpackedFloat.unpack Format.binary64
        (packComponents Format.binary64 s 0#11 (BitVec.ofNat 52 m)) = .finite s m (-1074) pos := by
  have hFraction : (BitVec.ofNat 52 m).toNat = m := by
    rw [BitVec.toNat_ofNat, Nat.mod_eq_of_lt (by omega)]
  rw [unpack_subnormal unpackExponent_packComponents
    (by rwa [unpackMantissa_packComponents, hFraction])]
  refine finite_congr (unpackSign_packed _ _ _) ?_ rfl
  rw [unpackMantissa_packComponents, hFraction]

theorem unpack_pack_zero (s : Sign) : (Float.Model.pack (.zero s)).unpack = .zero s := by
  cases s <;> rfl

/-- Packing keeps the parts of a canonical number that is not too large. -/
theorem unpack_pack_finite (s : Sign) {m : Nat} {e : Int} (pos : 0 < m) (h : IsCanonical m e)
    (small : e ≤ 971) :
    (Float.Model.pack (.finite s m e pos)).unpack = .finite s m e pos := by
  obtain ⟨hLt, hLeast, hNormal⟩ := h
  have hNonzero : m ≠ 0 := by omega
  obtain ⟨biased, hBiased⟩ : ∃ n : Nat, e + 1075 = n := ⟨(e + 1075).toNat, by omega⟩
  have hFits : ¬ 2 ^ 11 ≤ biased + 1 := by omega
  have hToNat : (e + (1023 : Nat) + (52 : Nat)).toNat = biased := by omega
  -- Packing with the constants of this format: 1075 takes the exponent to its biased form, and a
  -- normal number is one with 53 bits.
  change UnpackedFloat.unpack Format.binary64 (
    if 2 ^ 11 ≤ (e + (1023 : Nat) + (52 : Nat)).toNat + 1 then packedInfinity Format.binary64 s
    else if m.log2 + 1 = 53 then packComponents Format.binary64 s
      (BitVec.ofNat 11 (e + (1023 : Nat) + (52 : Nat)).toNat) (BitVec.ofNat 52 m)
    else packComponents Format.binary64 s 0#11 (BitVec.ofNat 52 m)) = _
  rw [hToNat, if_neg hFits]
  by_cases hFull : 2 ^ 52 ≤ m
  · have hBits : m.log2 + 1 = 53 := by
      have hLow := (Nat.le_log2 hNonzero).mpr hFull
      have hHigh := (Nat.log2_lt hNonzero).mpr hLt
      omega
    rw [if_pos hBits, unpack_packed_normal s hFull hLt (by omega) (by omega)]
    exact finite_congr rfl rfl (by omega)
  · have hBits : m.log2 + 1 ≠ 53 := by
      have hHigh := (Nat.log2_lt hNonzero).mpr (Nat.lt_of_not_le hFull)
      omega
    obtain rfl := hNormal.resolve_left hFull
    rw [if_neg hBits, unpack_packed_subnormal s pos (Nat.lt_of_not_le hFull)]

end GatedQuery
