import GatedQuery.Decimal.Layout
import GatedQuery.Proofs.Decimal.Shortest
import GatedQuery.Proofs.Scanning.Numerals

/-! A float that is written is the numeral of its shortest decimal, so reading the text gives the float
back, to the sign of zero. This holds of every way to write floats that marks the exponents which
are not negative with a plus or with nothing. -/

namespace GatedQuery

namespace Numeral

/-- The decimal that a numeral stands for, without its sign. -/
def decimal (n : Numeral) : Decimal where
  digits := Nat.ofDigitChars 10 (n.whole ++ n.fraction.getD []) 0
  exponent := (match n.exponent with
    | some (sign, ds) => signed sign ds
    | none => 0) - (n.fraction.getD []).length

/-- A numeral becomes the double nearest to its decimal, with its sign. -/
theorem ofFloat_toFloat {n : Numeral} {v : ℚ} (rounds : RoundsTo n.decimal.value v)
    (small : v < 2 ^ (1024 : Int)) :
    ∃ d, Binary.ofFloat n.toFloat = .finite d ∧ d.negative = decide (n.sign = some '-') ∧
      d.magnitude = v := by
  obtain ⟨d, hd, hPlus, rfl⟩ := ofFloat_nearest rounds small
  by_cases hMinus : n.sign = some '-'
  · obtain ⟨d', hd', hNegative, hValue⟩ := ofFloat_neg hd small
    have hFloat : n.toFloat = -nearest n.decimal.digits n.decimal.exponent := if_pos hMinus
    rw [hFloat, decide_eq_true hMinus]
    exact ⟨d', hd', by rw [hNegative, hPlus]; rfl, hValue⟩
  · have hFloat : n.toFloat = nearest n.decimal.digits n.decimal.exponent := if_neg hMinus
    rw [hFloat, decide_eq_false hMinus]
    exact ⟨d, hd, hPlus, rfl⟩

/-- Numerals that are not too large are finite doubles. -/
theorem isFinite_toFloat {n : Numeral} (small : n.decimal.value ≤ 2 ^ (1023 : Int)) :
    n.toFloat.isFinite = true := by
  obtain ⟨v, hRounds⟩ := RoundsTo.exists_of_nonneg n.decimal.value_nonneg
  obtain ⟨d, hd, _⟩ := ofFloat_toFloat hRounds
    (hRounds.lt_of_le_two_zpow (by decide) small (by decide))
  exact isFinite_of_ofFloat hd

/-- A text that spells a numeral is read as this numeral. -/
theorem ofText?_of_spelled {n : Numeral} {s : String} (h : n.SpelledBy false s.toList) :
    ofText? s = some n := by
  have hSpan : span false s.toList = (n, []) := by
    rcases span_cases h [] with hWhole | hLess
    · rwa [List.append_nil] at hWhole
    · exact absurd hLess (Nat.not_lt_zero _)
  have hWhole : n.whole ≠ [] := by
    generalize s.toList = cs at h
    cases h with
    | mk _ digits _ _ _ => exact digits.some
  rw [ofText?, hSpan]
  exact if_neg (by simpa using hWhole)

theorem IsDigits.take {ds : List Char} (h : IsDigits ds) {n : Nat} (pos : n ≠ 0) :
    IsDigits (ds.take n) :=
  ⟨fun hNone => (List.take_eq_nil_iff.mp hNone).elim pos h.some,
    fun d hd => h.digits d (List.mem_of_mem_take hd)⟩

theorem IsDigits.drop {ds : List Char} (h : IsDigits ds) {n : Nat} (less : n < ds.length) :
    IsDigits (ds.drop n) :=
  ⟨fun hNone => less.not_ge (List.drop_eq_nil_iff.mp hNone),
    fun d hd => h.digits d (List.mem_of_mem_drop hd)⟩

theorem isDigit_zeros (n : Nat) : ∀ d ∈ List.replicate n '0', d.isDigit = true := fun d hd => by
  rw [List.eq_of_mem_replicate hd]
  rfl

theorem IsDigits.zeros_append {ds : List Char} (h : IsDigits ds) (n : Nat) :
    IsDigits (List.replicate n '0' ++ ds) :=
  ⟨List.append_ne_nil_of_right_ne_nil _ h.some,
    List.forall_mem_append.mpr ⟨isDigit_zeros n, h.digits⟩⟩

/-- Zeros can be put behind digits. -/
theorem IsDigits.append_zeros {ds : List Char} (h : IsDigits ds) (n : Nat) :
    IsDigits (ds ++ List.replicate n '0') :=
  ⟨List.append_ne_nil_of_left_ne_nil h.some _,
    List.forall_mem_append.mpr ⟨h.digits, isDigit_zeros n⟩⟩

/-- Characters that spell a numeral without a sign, which is no integer and stands for a number. -/
def Writes (cs : List Char) (q : ℚ) : Prop :=
  ∃ n : Numeral, n.SpelledBy false cs ∧ n.sign = none ∧ n.isFractional = true ∧ n.decimal.value = q

theorem writes_of_parts {cs ds fs es : List Char} {q : ℚ} {fraction : Option (List Char)}
    {exponent : Option (Option Char × List Char)} (digits : IsDigits ds)
    (fractional : IsFraction fraction fs) (scaled : IsExponent exponent es)
    (inexact : (fraction.isSome || exponent.isSome) = true) (text : cs = ds ++ (fs ++ es))
    (value : (decimal ⟨none, ds, fraction, exponent⟩).value = q) : Writes cs q := by
  subst text
  exact ⟨_, .mk .none digits fractional scaled Bool.noConfusion, rfl, inexact, value⟩

/-- A numeral with a point has all its digits, scaled by those behind the point. -/
theorem decimal_of_point (sign : Option Char) (ds fs : List Char) :
    decimal ⟨sign, ds, some fs, none⟩ = ⟨Nat.ofDigitChars 10 (ds ++ fs) 0, -fs.length⟩ := by
  simp [decimal]

/-- An exponent scales the digits further. -/
theorem decimal_of_exponent (ds : List Char) (fraction : Option (List Char)) (sign : Option Char)
    (es : List Char) : decimal ⟨none, ds, fraction, some (sign, es)⟩ =
      ⟨Nat.ofDigitChars 10 (ds ++ fraction.getD []) 0,
        signed sign es - (fraction.getD []).length⟩ :=
  rfl

end Numeral

namespace FloatFormat

open Numeral

/-- The plain text of a decimal denotes it: the point goes among the digits, before them or behind
them. -/
theorem writes_plain (d : Decimal) : Writes (plain d).toList d.value := by
  obtain ⟨digits, exponent⟩ := d
  have hDigits := isDigits_toDigits digits
  have hNumber : Nat.ofDigitChars 10 (Nat.toDigits 10 digits) 0 = digits :=
    Nat.ofDigitChars_ten_toDigits
  rw [plain]
  dsimp only
  generalize Nat.toDigits 10 digits = ds at hDigits hNumber
  split
  · rename_i hWhole
    obtain ⟨e, rfl⟩ := Int.eq_ofNat_of_zero_le hWhole
    refine writes_of_parts (hDigits.append_zeros e) (.some (isDigits_toDigits 0)) .none rfl
      (by simp) ?_
    rw [decimal_of_point, Nat.ofDigitChars_append, Nat.ofDigitChars_append, hNumber,
      Nat.ofDigitChars_replicate_zero]
    have hZero : Nat.ofDigitChars 10 (Nat.toDigits 10 0) (10 ^ e * digits) =
        10 * (10 ^ e * digits) := by simp [Nat.ofDigitChars_cons]
    have hLength : ((Nat.toDigits 10 0).length : Int) = 1 := by decide
    rw [hZero, hLength, Decimal.value, Decimal.value]
    push_cast
    rw [zpow_natCast, zpow_neg_one]
    ring
  · rename_i hFraction
    obtain ⟨places, rfl⟩ : ∃ places : Nat, exponent = -places := ⟨(-exponent).toNat, by omega⟩
    rw [neg_neg, Int.toNat_natCast]
    split
    · rename_i hMiddle
      have hTake : ds.length - places ≠ 0 := by omega
      have hDrop : ds.length - places < ds.length := by omega
      refine writes_of_parts (hDigits.take hTake) (.some (hDigits.drop hDrop)) .none rfl (by simp) ?_
      have hPlaces : ds.length - (ds.length - places) = places := by omega
      rw [decimal_of_point, List.take_append_drop, hNumber, List.length_drop, hPlaces]
    · rename_i hSmall
      refine writes_of_parts (isDigits_toDigits 0)
        (.some (hDigits.zeros_append (places - ds.length))) .none rfl (by simp) ?_
      have hPlaces : places - ds.length + ds.length = places := by omega
      rw [decimal_of_point, List.length_append, List.length_replicate, hPlaces,
        Nat.ofDigitChars_append, Nat.ofDigitChars_append, Nat.ofDigitChars_replicate_zero]
      have hZero : Nat.ofDigitChars 10 (Nat.toDigits 10 0) 0 = 0 := by decide
      rw [hZero, mul_zero, hNumber]

/-- Whether exponents that are not negative are marked by a plus or by nothing. -/
def PlusSigned (f : FloatFormat) : Prop :=
  f.exponentSign = "" ∨ f.exponentSign = "+"

/-- The exponent of the leading digit, as it is written. -/
theorem exists_exponent {f : FloatFormat} (plus : f.PlusSigned) (lead : Int) :
    ∃ (sign : Option Char) (es : List Char), IsExponent (some (sign, Nat.toDigits 10 lead.natAbs)) es ∧
      ("e" ++ (if lead < 0 then "-" else f.exponentSign) ++ toString lead.natAbs).toList = es ∧
      signed sign (Nat.toDigits 10 lead.natAbs) = lead := by
  have hDigits := isDigits_toDigits lead.natAbs
  have hText (sign : String) : ("e" ++ sign ++ toString lead.natAbs).toList =
      'e' :: (sign.toList ++ Nat.toDigits 10 lead.natAbs) := by
    simp
  by_cases hNegative : lead < 0
  · rw [if_pos hNegative, hText]
    refine ⟨some '-', _, .some (.inl rfl) .minus hDigits, rfl, ?_⟩
    rw [signed, if_pos rfl, Nat.ofDigitChars_ten_toDigits]
    omega
  · rw [if_neg hNegative, hText]
    rcases plus with hSign | hSign
    · rw [hSign]
      refine ⟨none, _, .some (.inl rfl) .none hDigits, rfl, ?_⟩
      rw [signed, if_neg (by decide), Nat.ofDigitChars_ten_toDigits]
      omega
    · rw [hSign]
      refine ⟨some '+', _, .some (.inl rfl) .plus hDigits, rfl, ?_⟩
      rw [signed, if_neg (by decide), Nat.ofDigitChars_ten_toDigits]
      omega

/-- The text of a decimal with an exponent denotes it. -/
theorem writes_scientific {f : FloatFormat} (plus : f.PlusSigned) (d : Decimal) :
    Writes (f.scientific d).toList d.value := by
  obtain ⟨digits, exponent⟩ := d
  have hDigits := isDigits_toDigits digits
  have hNumber : Nat.ofDigitChars 10 (Nat.toDigits 10 digits) 0 = digits :=
    Nat.ofDigitChars_ten_toDigits
  rw [scientific]
  dsimp only
  generalize Nat.toDigits 10 digits = ds at hDigits hNumber
  obtain ⟨lead, hLead⟩ : ∃ lead, exponent + ((ds.length : Int) - 1) = lead := ⟨_, rfl⟩
  obtain ⟨sign, es, hScaled, hText, hSigned⟩ := exists_exponent plus lead
  rw [hLead]
  by_cases hOne : ds.length ≤ 1
  · rw [if_pos hOne]
    refine writes_of_parts (hDigits.take one_ne_zero) .none hScaled rfl (by rw [← hText]; simp) ?_
    have hExponent : lead - (([] : List Char).length : Int) = exponent := by
      have hSome := List.length_pos_of_ne_nil hDigits.some
      rw [List.length_nil]
      omega
    rw [decimal_of_exponent, hSigned, Option.getD_none, List.append_nil, List.take_of_length_le hOne,
      hNumber, hExponent]
  · rw [if_neg hOne]
    refine writes_of_parts (hDigits.take one_ne_zero) (.some (hDigits.drop (not_le.mp hOne))) hScaled
      rfl (by rw [← hText]; simp) ?_
    have hExponent : lead - ((ds.drop 1).length : Int) = exponent := by
      rw [List.length_drop]
      omega
    rw [decimal_of_exponent, hSigned, Option.getD_some, List.take_append_drop, hNumber, hExponent]

/-- Whichever form is chosen, the text denotes the decimal. -/
theorem writes_positive {f : FloatFormat} (plus : f.PlusSigned) (d : Decimal) :
    Writes (f.positive d).toList d.value := by
  rw [positive]
  split
  · exact writes_plain d
  · exact writes_scientific plus d

theorem writes_zero : Writes "0.0".toList 0 :=
  writes_of_parts (isDigits_toDigits 0) (.some (isDigits_toDigits 0)) .none rfl rfl (by
    rw [decimal_of_point, Decimal.value]
    simp [Nat.ofDigitChars_cons])

/-- The magnitude of a double is written as a number that rounds to it. -/
theorem exists_writes {f : FloatFormat} (plus : f.PlusSigned) {d : Dyadic}
    (canonical : IsCanonical d.significand d.exponent) :
    ∃ q, Writes (if d.significand == 0 then "0.0" else f.positive (d.shortest f.tieUp)).toList q ∧
      RoundsTo q d.magnitude := by
  by_cases hZero : d.significand = 0
  · rw [if_pos (by simpa using hZero), Dyadic.magnitude, hZero, Nat.cast_zero, zero_mul]
    exact ⟨0, writes_zero, .zero⟩
  · rw [if_neg (by simpa using hZero)]
    exact ⟨_, writes_positive plus _,
      d.roundsTo_shortest canonical (Nat.pos_of_ne_zero hZero) f.tieUp⟩

/-- A numeral that is written with a minus if it is negative. -/
theorem spelledBy_of_writes {cs : List Char} {q : ℚ} (h : Writes cs q) (negative : Bool) :
    ∃ n : Numeral, n.SpelledBy false ((if negative then ['-'] else []) ++ cs) ∧
      (n.sign = some '-' ↔ negative = true) ∧ n.isFractional = true ∧ n.decimal.value = q := by
  obtain ⟨n, hSpelled, hSign, hFractional, hValue⟩ := h
  cases negative with
  | false => exact ⟨n, hSpelled, by simp [hSign], hFractional, hValue⟩
  | true =>
      cases hSpelled with
      | @mk sign fraction exponent ss ds fs es signed digits fractional scaled only =>
          obtain rfl : sign = none := hSign
          cases signed
          exact ⟨⟨some '-', ds, fraction, exponent⟩, .mk .minus digits fractional scaled only,
            by simp, hFractional, hValue⟩

/-- A finite float is written as a numeral that is no integer and becomes the float again. -/
theorem readsBack_write {f : FloatFormat} (plus : f.PlusSigned) {x : Float}
    (finite : x.isFinite = true) :
    ∃ n, Numeral.ofText? (f.write x) = some n ∧ n.isFractional = true ∧ n.toFloat = x := by
  obtain ⟨d, hParts⟩ := exists_ofFloat_of_isFinite finite
  have hCanonical := canonical_of_ofFloat hParts
  obtain ⟨q, hWrites, hRounds⟩ := exists_writes plus hCanonical
  obtain ⟨n, hSpelled, hSign, hFractional, rfl⟩ := spelledBy_of_writes hWrites d.negative
  have hText : (f.write x).toList = (if d.negative then ['-'] else []) ++
      (if d.significand == 0 then "0.0" else f.positive (d.shortest f.tieUp)).toList := by
    rw [write, hParts]
    dsimp only
    rw [String.toList_append]
    congr 1
    split <;> rfl
  rw [← hText] at hSpelled
  refine ⟨n, ofText?_of_spelled hSpelled, hFractional, ?_⟩
  obtain ⟨d', hd', hNegative, hMagnitude⟩ := ofFloat_toFloat hRounds (magnitude_lt_of_ofFloat hParts)
  refine eq_of_magnitude hd' hParts ?_ hMagnitude
  rw [hNegative, Bool.eq_iff_iff, decide_eq_true_iff]
  exact hSign

end FloatFormat

end GatedQuery
