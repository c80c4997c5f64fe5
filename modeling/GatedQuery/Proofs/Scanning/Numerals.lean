import GatedQuery.Proofs.Scanning.Basic

/-! Numerals as they are spelled, and the longest one that a text begins with. A numeral is read part
by part. Where a part could end earlier than it is read, a character follows that starts none of the
later parts, so no shorter reading of a part leads to a longer numeral. -/

namespace GatedQuery

/-- The longest characters with a property that a text begins with, and what follows them. -/
structure Longest (property : List Char → Prop) (cs rest : List Char) : Prop where
  holds : property cs
  longest : ∀ ds, ds <+: cs ++ rest → property ds → ds.length ≤ cs.length

namespace Numeral

inductive IsSign : Option Char → List Char → Prop where
  | none : IsSign .none []
  | minus : IsSign (.some '-') ['-']
  | plus : IsSign (.some '+') ['+']

structure IsDigits (ds : List Char) : Prop where
  some : ds ≠ []
  digits : ∀ d ∈ ds, d.isDigit = true

/-- The spellings of a fraction, if there is one: a point and digits. -/
inductive IsFraction : Option (List Char) → List Char → Prop where
  | none : IsFraction .none []
  | some {ds : List Char} (digits : IsDigits ds) : IsFraction (.some ds) ('.' :: ds)

/-- The spellings of an exponent, if there is one: a letter, a sign that can be left out, and
digits. -/
inductive IsExponent : Option (Option Char × List Char) → List Char → Prop where
  | none : IsExponent .none []
  | some {letter : Char} {sign : Option Char} {ss ds : List Char}
      (marked : letter = 'e' ∨ letter = 'E') (signed : IsSign sign ss) (digits : IsDigits ds) :
      IsExponent (.some (sign, ds)) (letter :: (ss ++ ds))

/-- The spellings of a numeral. With `integerOnly` it has neither fraction nor exponent. -/
inductive SpelledBy (integerOnly : Bool) : Numeral → List Char → Prop where
  | mk {sign : Option Char} {fraction : Option (List Char)}
      {exponent : Option (Option Char × List Char)} {ss ds fs es : List Char}
      (signed : IsSign sign ss) (digits : IsDigits ds) (fractional : IsFraction fraction fs)
      (scaled : IsExponent exponent es)
      (only : integerOnly = true → fraction = none ∧ exponent = none) :
      SpelledBy integerOnly ⟨sign, ds, fraction, exponent⟩ (ss ++ (ds ++ (fs ++ es)))

/-- Directly after a dot a numeral is an integer. -/
theorem SpelledBy.plain {n : Numeral} {cs : List Char} (h : n.SpelledBy true cs) :
    n.isFractional = false := by
  cases h with
  | mk _ _ _ _ only =>
      obtain ⟨rfl, rfl⟩ := only rfl
      rfl

theorem IsDigits.head {ds : List Char} (h : IsDigits ds) (rest : List Char) :
    (ds ++ rest).head?.any Char.isDigit = true := by
  obtain ⟨hSome, hDigits⟩ := h
  cases ds with
  | nil => exact absurd rfl hSome
  | cons d ds => exact hDigits d List.mem_cons_self

/-- Every natural number is spelled by at least one digit. -/
theorem isDigits_toDigits (n : Nat) : IsDigits (Nat.toDigits 10 n) :=
  ⟨Nat.toDigits_ne_nil, fun _ hd => Nat.isDigit_of_mem_toDigits (by decide) (by decide) hd⟩

/-- A numeral starts with a digit, or with a sign before one. -/
theorem startsNumeral_of_spelled {integerOnly : Bool} {n : Numeral} {cs : List Char}
    (h : n.SpelledBy integerOnly cs) (rest : List Char) :
    Token.startsNumeral (cs ++ rest) = true := by
  cases h with
  | @mk sign fraction exponent ss ds fs es signed digits fractional scaled only =>
      have hHead := digits.head (fs ++ es ++ rest)
      cases signed with
      | none =>
          cases ds with
          | nil => exact absurd rfl digits.some
          | cons d ds => simp [Token.startsNumeral, digits.digits d List.mem_cons_self]
      | minus => simpa [Token.startsNumeral] using hHead
      | plus => simpa [Token.startsNumeral] using hHead

/-- A numeral has no token if it is none of the 64-bit integers, and stands after a dot or denotes no
finite float. -/
theorem not_denotes_iff {integerOnly : Bool} {n : Numeral} {cs : List Char}
    (h : n.SpelledBy integerOnly cs) : (∀ t, ¬ n.Denotes integerOnly t) ↔
      (n.isFractional = false → ∀ i : Int64, i.toInt ≠ signed n.sign n.whole) ∧
        (integerOnly = true ∨ n.toFloat.isFinite = false) := by
  constructor
  · intro hNone
    have hLarge : n.isFractional = false → ∀ i : Int64, i.toInt ≠ signed n.sign n.whole :=
      fun plain i value => hNone _ (.integer plain value)
    refine ⟨hLarge, ?_⟩
    cases integerOnly with
    | true => exact .inl rfl
    | false =>
        refine .inr (Bool.eq_false_iff.mpr fun finite => ?_)
        cases hFractional : n.isFractional with
        | true => exact hNone _ (.float (.inl hFractional) finite)
        | false => exact hNone _ (.float (.inr ⟨rfl, hLarge hFractional⟩) finite)
  · rintro ⟨hLarge, hInfinite⟩ t (⟨plain, value⟩ | ⟨inexact, finite⟩)
    · exact hLarge plain _ value
    · rcases hInfinite with rfl | hInfinite
      · rcases inexact with hFractional | ⟨hNotOnly, _⟩
        · rw [h.plain] at hFractional
          cases hFractional
        · cases hNotOnly
      · rw [finite] at hInfinite
        cases hInfinite

variable {rest : List Char}

/-- A sign is taken if a digit follows it. -/
theorem spanSign_of_spelled {sign : Option Char} {ss : List Char} (h : IsSign sign ss)
    (hDigit : rest.head?.any Char.isDigit = true) : spanSign (ss ++ rest) = (sign, rest) := by
  cases h with
  | none =>
      rw [List.nil_append]
      unfold spanSign
      split
      · cases hDigit
      · cases hDigit
      · rfl
  | minus => rfl
  | plus => rfl

/-- Digits are read as a whole, or a digit follows them. -/
theorem spanDigits_cases {ds : List Char} (digits : ∀ d ∈ ds, d.isDigit = true)
    (rest : List Char) : spanDigits (ds ++ rest) = (ds, rest) ∨
      (∃ c ∈ rest.head?, c.isDigit = true) ∧ (spanDigits (ds ++ rest)).2.length < rest.length := by
  have hSpan : spanDigits (ds ++ rest) = (ds ++ (spanDigits rest).1, (spanDigits rest).2) :=
    Prod.ext (List.takeWhile_append_of_pos digits) (List.dropWhile_append_of_pos digits)
  rw [hSpan]
  cases rest with
  | nil => exact .inl (Prod.ext (List.append_nil ds) rfl)
  | cons c cs =>
      cases hDigit : c.isDigit with
      | true =>
          refine .inr ⟨⟨c, rfl, hDigit⟩, ?_⟩
          have hDrop : (spanDigits (c :: cs)).2 = (spanDigits cs).2 :=
            List.dropWhile_cons_of_pos hDigit
          rw [hDrop]
          exact Nat.lt_succ_of_le (spanDigits_suffix cs).length_le
      | false =>
          have hNone : spanDigits (c :: cs) = ([], c :: cs) :=
            Prod.ext (List.takeWhile_cons_of_neg (by simp [hDigit]))
              (List.dropWhile_cons_of_neg (by simp [hDigit]))
          rw [hNone, List.append_nil]
          exact .inl rfl

/-- A fraction is read as a whole, or a digit or a point follows it. -/
theorem spanFraction_cases {fraction : Option (List Char)} {fs : List Char}
    (h : IsFraction fraction fs) (rest : List Char) :
    spanFraction (fs ++ rest) = (fraction, rest) ∨
      (∃ c ∈ rest.head?, c = '.' ∨ c.isDigit = true) ∧
        (spanFraction (fs ++ rest)).2.length < rest.length := by
  cases h with
  | none =>
      rw [List.nil_append]
      unfold spanFraction
      split
      next c cs =>
        split
        next hDigit =>
          exact .inr ⟨⟨'.', rfl, .inl rfl⟩,
            Nat.lt_succ_of_le (spanDigits_suffix (c :: cs)).length_le⟩
        next => exact .inl rfl
      next => exact .inl rfl
  | @some ds digits =>
      have hSpan : spanFraction ('.' :: ds ++ rest) =
          (some (spanDigits (ds ++ rest)).1, (spanDigits (ds ++ rest)).2) := by
        cases ds with
        | nil => exact absurd rfl digits.some
        | cons d ds => simp [spanFraction, digits.digits d List.mem_cons_self]
      rw [hSpan]
      rcases spanDigits_cases digits.digits rest with hWhole | ⟨⟨c, hc, hDigit⟩, hLength⟩
      · rw [hWhole]
        exact .inl rfl
      · exact .inr ⟨⟨c, hc, .inr hDigit⟩, hLength⟩

/-- An exponent is read as a whole or together with more. -/
theorem spanExponent_cases {exponent : Option (Option Char × List Char)} {es : List Char}
    (h : IsExponent exponent es) (rest : List Char) :
    spanExponent (es ++ rest) = (exponent, rest) ∨
      (spanExponent (es ++ rest)).2.length < rest.length := by
  cases h with
  | none =>
      cases rest with
      | nil => exact .inl rfl
      | cons c cs =>
          have hDigits := (spanDigits_suffix (spanSign cs).2).trans (spanSign_suffix cs)
          rw [List.nil_append]
          unfold spanExponent
          dsimp only
          split
          · exact .inr (Nat.lt_succ_of_le hDigits.length_le)
          · exact .inl rfl
  | @some letter sign ss ds marked signed digits =>
      have hMarked : (letter == 'e' || letter == 'E') = true := by simpa using marked
      have hSpan : spanExponent (letter :: (ss ++ ds) ++ rest) =
          (some (sign, (spanDigits (ds ++ rest)).1), (spanDigits (ds ++ rest)).2) := by
        rw [List.cons_append, List.append_assoc]
        simp only [spanExponent, spanSign_of_spelled signed (digits.head rest), hMarked,
          digits.head rest, Bool.and_self, if_true]
      rw [hSpan]
      rcases spanDigits_cases digits.digits rest with hWhole | ⟨_, hLength⟩
      · rw [hWhole]
        exact .inl rfl
      · exact .inr hLength

/-- A fraction starts with a point, so that nothing of it stands before a digit. -/
theorem IsFraction.eq_nil {fraction : Option (List Char)} {fs : List Char}
    (h : IsFraction fraction fs) {c : Char} (hc : c ∈ (fs ++ rest).head?)
    (hDigit : c.isDigit = true) : fs = [] := by
  cases h with
  | none => rfl
  | some digits =>
      cases hc
      cases hDigit

theorem IsExponent.eq_nil {exponent : Option (Option Char × List Char)} {es : List Char}
    (h : IsExponent exponent es) {c : Char} (hc : c ∈ (es ++ rest).head?)
    (hFirst : c = '.' ∨ c.isDigit = true) : es = [] := by
  have hLetter : c ≠ 'e' ∧ c ≠ 'E' := by
    constructor <;> rintro rfl <;> revert hFirst <;> decide
  cases h with
  | none => rfl
  | some marked =>
      cases hc
      exact absurd marked (not_or.mpr hLetter)

/-- A numeral that a text begins with is read as a whole or together with more. -/
theorem span_cases {integerOnly : Bool} {n : Numeral} {cs : List Char}
    (h : n.SpelledBy integerOnly cs) (rest : List Char) :
    span integerOnly (cs ++ rest) = (n, rest) ∨
      (span integerOnly (cs ++ rest)).2.length < rest.length := by
  cases h with
  | @mk sign fraction exponent ss ds fs es signed digits fractional scaled only =>
  have hText : ss ++ (ds ++ (fs ++ es)) ++ rest = ss ++ (ds ++ (fs ++ (es ++ rest))) := by simp
  have hSign := spanSign_of_spelled signed (digits.head (fs ++ (es ++ rest)))
  rw [hText]
  rcases spanDigits_cases digits.digits (fs ++ (es ++ rest)) with hDigits | ⟨⟨c, hc, hDigit⟩, hLess⟩
  · cases integerOnly with
    | true =>
        obtain ⟨rfl, rfl⟩ := only rfl
        cases fractional
        cases scaled
        simp only [span, hSign, hDigits, if_true]
        exact .inl rfl
    | false =>
        simp only [span, hSign, hDigits, Bool.false_eq_true, if_false]
        rcases spanFraction_cases fractional (es ++ rest) with hFraction | ⟨⟨c, hc, hFirst⟩, hLess⟩
        · rw [hFraction]
          rcases spanExponent_cases scaled rest with hExponent | hLess
          · rw [hExponent]
            exact .inl rfl
          · exact .inr hLess
        · obtain rfl := scaled.eq_nil hc hFirst
          exact .inr (Nat.lt_of_le_of_lt (spanExponent_suffix _).length_le hLess)
  · obtain rfl := fractional.eq_nil hc hDigit
    obtain rfl := scaled.eq_nil hc (.inr hDigit)
    refine .inr (Nat.lt_of_le_of_lt (span_suffix integerOnly _).length_le ?_)
    rw [hSign]
    exact hLess

theorem exists_sign (cs : List Char) :
    ∃ ss, cs = ss ++ (spanSign cs).2 ∧ IsSign (spanSign cs).1 ss := by
  unfold spanSign
  split
  · exact ⟨['-'], rfl, .minus⟩
  · exact ⟨['+'], rfl, .plus⟩
  · exact ⟨[], rfl, .none⟩

/-- The digits that are taken are a prefix of the text. -/
theorem exists_digits {cs : List Char} (h : cs.head?.any Char.isDigit = true) :
    cs = (spanDigits cs).1 ++ (spanDigits cs).2 ∧ IsDigits (spanDigits cs).1 := by
  refine ⟨List.takeWhile_append_dropWhile.symm, ?_, fun d hd => List.mem_takeWhile_imp hd⟩
  cases cs with
  | nil => cases h
  | cons c cs =>
      have hTake : (spanDigits (c :: cs)).1 = c :: (spanDigits cs).1 :=
        List.takeWhile_cons_of_pos h
      rw [hTake]
      exact List.cons_ne_nil c _

/-- What is taken of a fraction spells it, or nothing is taken. -/
theorem exists_fraction (cs : List Char) :
    ∃ fs, cs = fs ++ (spanFraction cs).2 ∧ IsFraction (spanFraction cs).1 fs := by
  unfold spanFraction
  split
  next c cs =>
    split
    next hDigit =>
      have hHead : (c :: cs).head?.any Char.isDigit = true := hDigit
      obtain ⟨hText, hDigits⟩ := exists_digits hHead
      exact ⟨'.' :: (spanDigits (c :: cs)).1, congrArg _ hText, .some hDigits⟩
    next => exact ⟨[], rfl, .none⟩
  next => exact ⟨[], rfl, .none⟩

/-- What is taken of an exponent spells it, or nothing is taken. -/
theorem exists_exponent (cs : List Char) :
    ∃ es, cs = es ++ (spanExponent cs).2 ∧ IsExponent (spanExponent cs).1 es := by
  cases cs with
  | nil => exact ⟨[], rfl, .none⟩
  | cons letter cs =>
      unfold spanExponent
      dsimp only
      split
      next hExponent =>
        obtain ⟨hMarked, hDigit⟩ := Bool.and_eq_true_iff.mp hExponent
        obtain ⟨ss, hText, hSign⟩ := exists_sign cs
        obtain ⟨hRest, hDigits⟩ := exists_digits hDigit
        refine ⟨letter :: (ss ++ (spanDigits (spanSign cs).2).1), ?_,
          .some (by simpa using hMarked) hSign hDigits⟩
        rw [List.cons_append, List.append_assoc, ← hRest, ← hText]
      next => exact ⟨[], rfl, .none⟩

/-- What is read of a text is the spelling of a numeral. -/
theorem spelledBy_span {cs : List Char} (h : Token.startsNumeral cs = true) (integerOnly : Bool) :
    ∃ ds, cs = ds ++ (span integerOnly cs).2 ∧ (span integerOnly cs).1.SpelledBy integerOnly ds := by
  obtain ⟨ss, hSign, signed⟩ := exists_sign cs
  obtain ⟨hDigits, digits⟩ := exists_digits (head?_spanSign h)
  cases integerOnly with
  | true =>
      refine ⟨ss ++ ((spanDigits (spanSign cs).2).1 ++ ([] ++ [])), ?_,
        .mk signed digits .none .none fun _ => ⟨rfl, rfl⟩⟩
      rw [List.append_nil, List.append_nil, List.append_assoc]
      exact hSign.trans (congrArg _ hDigits)
  | false =>
      obtain ⟨fs, hFraction, fractional⟩ := exists_fraction (spanDigits (spanSign cs).2).2
      obtain ⟨es, hExponent, scaled⟩ :=
        exists_exponent (spanFraction (spanDigits (spanSign cs).2).2).2
      refine ⟨ss ++ ((spanDigits (spanSign cs).2).1 ++ (fs ++ es)), ?_,
        .mk signed digits fractional scaled Bool.noConfusion⟩
      simp only [List.append_assoc]
      exact hSign.trans (congrArg _ (hDigits.trans (congrArg _ (hFraction.trans (congrArg _ hExponent)))))

def IsSpelling (integerOnly : Bool) (cs : List Char) : Prop :=
  ∃ n : Numeral, n.SpelledBy integerOnly cs

/-- What is read of a text is the longest numeral that it begins with. -/
theorem longest_span {cs : List Char} (h : Token.startsNumeral cs = true) (integerOnly : Bool) :
    ∃ ds, cs = ds ++ (span integerOnly cs).2 ∧ (span integerOnly cs).1.SpelledBy integerOnly ds ∧
      Longest (IsSpelling integerOnly) ds (span integerOnly cs).2 := by
  obtain ⟨ds, hText, spelled⟩ := spelledBy_span h integerOnly
  refine ⟨ds, hText, spelled, ⟨_, spelled⟩, ?_⟩
  rintro fs ⟨rest, hRest⟩ ⟨n, hSpelled⟩
  rw [← hText] at hRest
  have hLength := congrArg List.length (hRest.trans hText)
  rw [List.length_append, List.length_append] at hLength
  have hSpan : (span integerOnly cs).2.length ≤ rest.length := by
    rw [← hRest]
    rcases span_cases hSpelled rest with hWhole | hLess
    · rw [hWhole]
    · exact Nat.le_of_lt hLess
  omega

/-- The longest numeral that a text begins with is read. -/
theorem span_of_longest {integerOnly : Bool} {n : Numeral} {cs rest : List Char}
    (spelled : n.SpelledBy integerOnly cs) (longest : Longest (IsSpelling integerOnly) cs rest) :
    span integerOnly (cs ++ rest) = (n, rest) := by
  rcases span_cases spelled rest with hSpan | hLess
  · exact hSpan
  · obtain ⟨ds, hText, hSpelled⟩ := spelledBy_span (startsNumeral_of_spelled spelled rest) integerOnly
    have hLonger := longest.longest ds ⟨_, hText.symm⟩ ⟨_, hSpelled⟩
    have hLength := congrArg List.length hText
    rw [List.length_append, List.length_append] at hLength
    omega

end Numeral

end GatedQuery
