import GatedQuery.Proofs.Canonical.Literals
import GatedQuery.Proofs.Canonical.Spelling

/-! The tokens of a text with every index and every slice behind a dot. Only the number directly after
a dot has to be an integer. So where a slice ends with a number and the next step begins with a digit,
the dot between them is a decimal point, and it makes one float of the two numbers. -/

namespace GatedQuery

namespace Step

/-- The text of a step behind a dot. There an index or a slice has no brackets. -/
def dotted (s : Step) : String :=
  if s.name?.isSome then s.canonical else s.subscript

/-- The text of the steps that follow another one, each of them behind a dot. -/
def dottedTail : List Step → String
  | [] => ""
  | s :: ss => "." ++ s.dotted ++ dottedTail ss

/-- The text of a chain whose steps are all marked by dots. -/
def dottedChain : List Step → String
  | [] => ""
  | s :: ss => s.canonical ++ dottedTail ss

/-- The number that the text of a step begins with: an index or the start of a slice. -/
def leading : Step → Option Int64
  | index i _ => some i
  | slice start _ _ _ => start
  | _ => none

/-- The number that the text of a step ends with, if it is a slice: its step, or its stop if there is
no step. -/
def trailing : Step → Option Int64
  | slice _ stop step _ => step.or stop
  | _ => none

/-- The text of a step without the numbers at its ends. -/
def between : Step → String
  | index .. => ""
  | slice _ stop step _ => if step.isSome then ":" ++ bound stop ++ ":" else ":"
  | s => s.canonical

/-- The tokens of a step without the numbers at its ends. -/
def betweenTokens : Step → List Token
  | index .. => []
  | slice _ stop step _ =>
    .mark .colon :: if step.isSome then boundTokens stop ++ [.mark .colon] else []
  | s => s.tokens

/-- A step behind a dot is a number or nothing, what cannot be joined, and a number or nothing. -/
theorem toList_dotted (s : Step) : s.dotted.toList =
    (bound s.leading).toList ++ (s.between.toList ++ (bound s.trailing).toList) := by
  cases s with
  | member n p | call n args p => simp [dotted, name?, leading, between, trailing, bound]
  | index i p => simp [dotted, name?, leading, between, trailing, bound, subscript]
  | slice start stop step p =>
      cases step <;> simp [dotted, name?, leading, between, trailing, bound, subscript]

def dottedTokens (s : Step) : List Token :=
  boundTokens s.leading ++ (s.betweenTokens ++ boundTokens s.trailing)

/-- The tokens of the steps that follow another one, each of them behind a dot. -/
def dottedTailTokens : List Step → List Token
  | [] => []
  | s :: ss => .mark .dot :: (s.dottedTokens ++ dottedTailTokens ss)

/-- The tokens of a chain whose steps are all marked by dots. -/
def dottedChainTokens : List Step → List Token
  | [] => []
  | s :: ss => s.tokens ++ dottedTailTokens ss

theorem dottedTokens_of_named {s : Step} (named : s.name?.isSome = true) :
    s.dottedTokens = s.tokens := by
  cases s with
  | member n p | call n args p =>
      simp [dottedTokens, leading, betweenTokens, trailing, boundTokens]
  | index i p => cases named
  | slice start stop step p => cases named

theorem dottedTokens_of_unnamed {s : Step} (unnamed : s.name?.isSome = false) :
    s.dottedTokens = s.subscriptTokens := by
  cases s with
  | member n p => cases unnamed
  | call n args p => cases unnamed
  | index i p => rfl
  | slice start stop step p =>
      cases step <;> simp [dottedTokens, leading, betweenTokens, trailing, boundTokens,
        subscriptTokens, strideTokens]

/-- The numeral that a dot makes of two numbers. -/
def joinedNumeral (n i : Int64) : Numeral where
  sign := Numeral.signOf n
  whole := Nat.toDigits 10 n.toInt.natAbs
  fraction := some (Nat.toDigits 10 i.toInt.natAbs)
  exponent := none

/-- The float that a dot makes of the number before it and the number after it, if it makes one. -/
def joined? (before after : Option Int64) : Option Float :=
  match before, after with
  | some n, some i => if 0 ≤ i then some (joinedNumeral n i).toFloat else none
  | _, _ => none

/-- The tokens of a dot with the numbers before and after it. -/
def dotTokens (before after : Option Int64) : List Token :=
  match joined? before after with
  | some x => [.float x]
  | none => boundTokens before ++ .mark .dot :: boundTokens after

/-- The tokens that the text of a number and of steps behind it is made of, each of the steps behind a
dot. -/
def joinedTail : Option Int64 → List Step → List Token
  | before, [] => boundTokens before
  | before, s :: ss =>
    dotTokens before s.leading ++ (s.betweenTokens ++ joinedTail s.trailing ss)

/-- The tokens that the text of a chain is made of whose steps are all marked by dots. -/
def joinedChain : List Step → List Token
  | [] => []
  | s :: ss => s.tokens ++ joinedTail none ss

/-- A dot joins two numbers unless one of them is missing or the second one has a sign. -/
theorem joined?_eq_none_iff (before after : Option Int64) :
    joined? before after = none ↔ ¬ (before.isSome = true ∧ after.any (0 ≤ ·) = true) := by
  cases before with
  | none => simp [joined?]
  | some n =>
      cases after with
      | none => simp [joined?]
      | some i => by_cases hDigit : 0 ≤ i <;> simp [joined?, hDigit]

theorem joined?_eq_some {before after : Option Int64} {x : Float}
    (h : joined? before after = some x) :
    ∃ n i, before = some n ∧ after = some i ∧ 0 ≤ i ∧ x = (joinedNumeral n i).toFloat := by
  unfold joined? at h
  split at h
  · rename_i n i
    split at h
    · rename_i hDigit
      cases h
      exact ⟨n, i, rfl, rfl, hDigit, rfl⟩
    · cases h
  · cases h

/-- No slice that ends with a number is followed by a step that begins with a digit. -/
def Apart (chain : List Step) : Prop :=
  chain.IsChain fun s t => ¬ (s.trailing.isSome = true ∧ t.leading.any (0 ≤ ·) = true)

instance (chain : List Step) : Decidable (Apart chain) :=
  inferInstanceAs (Decidable (chain.IsChain _))

/-- Tokens of steps whose numbers stay apart are those of the steps one by one. -/
theorem joinedTail_of_apart {s : Step} {ss : List Step} (apart : Apart (s :: ss)) :
    joinedTail s.trailing ss = boundTokens s.trailing ++ dottedTailTokens ss := by
  induction ss generalizing s with
  | nil => exact (List.append_nil _).symm
  | cons t ss ih =>
      obtain ⟨hFirst, hMore⟩ := List.isChain_cons_cons.mp apart
      rw [joinedTail, ih hMore, dotTokens, (joined?_eq_none_iff _ _).mpr hFirst, dottedTailTokens,
        dottedTokens]
      simp

theorem trailing_of_named {s : Step} (named : s.name?.isSome = true) : s.trailing = none := by
  cases s with
  | member n p => rfl
  | call n args p => rfl
  | index i p => cases named
  | slice start stop step p => cases named

/-- The same of a whole chain, whose first step has a name. -/
theorem joinedChain_of_apart {chain : List Step} (named : StartsNamed chain) (apart : Apart chain) :
    joinedChain chain = dottedChainTokens chain := by
  obtain ⟨s, ss, rfl, hNamed⟩ := named
  have hTail := joinedTail_of_apart apart
  rw [trailing_of_named hNamed] at hTail
  rw [joinedChain, hTail]
  rfl

end Step

def NoDigit (cs : List Char) : Prop :=
  ∀ c ∈ cs.head?, c.isDigit = false

theorem noDigit_cons {c : Char} (h : c.isDigit = false) (cs : List Char) : NoDigit (c :: cs) := by
  rintro d ⟨⟩
  exact h

/-- An integer ends before a dot that no digit follows. -/
theorem endsInteger_dot {afterDot : Bool} {more : List Char} (h : NoDigit more) :
    EndsInteger afterDot ('.' :: more) := by
  refine ⟨noDigit_cons (by decide) more, fun _ => ?_, fun _ => ?_⟩
  · cases more with
    | nil => rfl
    | cons c more => simp [Numeral.spanFraction, h c rfl]
  · simp [Numeral.spanExponent]

/-- A negative number starts with its sign. -/
theorem noDigit_decimal {n : Int64} (negative : ¬ 0 ≤ n) (rest : List Char) :
    NoDigit ((Text.decimal n).toList ++ rest) := by
  obtain ⟨ss, hText, hSign, _⟩ := Numeral.exists_decimal n
  have hMinus : Numeral.signOf n = some '-' := by
    refine if_pos (Int.not_le.mp fun h => negative (Int64.le_iff_toInt_le.mpr h))
  rw [hMinus] at hSign
  cases hSign
  rw [hText]
  exact noDigit_cons (by decide) _

/-- A name starts with a letter or an underscore. -/
theorem noDigit_identifier {n : String} (h : Token.IsIdentifier n) (rest : List Char) :
    NoDigit (n.toList ++ rest) := by
  obtain ⟨c, cs, hText, hFirst, _⟩ := h
  rw [hText]
  refine noDigit_cons (Bool.eq_false_iff.mpr fun hDigit => ?_) _
  have hLetter := Token.toNat_of_startsName hFirst
  have hRange : 48 ≤ c.toNat ∧ c.toNat ≤ 57 := Char.isDigit_iff_toNat.mp hDigit
  omega

theorem toList_between_slice (start stop step : Option Int64) (p : Position) :
    (Step.slice start stop step p).between.toList =
      ':' :: if step.isSome then (Step.bound stop).toList ++ [':'] else [] := by
  cases step <;> simp [Step.between]

/-- What stands between the numbers of a step starts with no digit, or a step without a start is one
that starts with a colon. -/
theorem noDigit_between {s : Step} (wellFormed : s.WellFormed) (free : s.leading = none)
    (rest : List Char) : NoDigit (s.between.toList ++ rest) := by
  cases s with
  | member n p => exact noDigit_identifier (wellFormed.name n rfl) rest
  | call n args p =>
      have hText : (Step.call n args p).between.toList =
          n.toList ++ ("(" ++ Text.commaSeparated (args.map Argument.canonical) ++ ")").toList := by
        simp [Step.between, Step.canonical]
      rw [hText, List.append_assoc]
      exact noDigit_identifier (wellFormed.name n rfl) _
  | index i p => cases free
  | slice start stop step p =>
      rw [toList_between_slice]
      exact noDigit_cons (by decide) _

theorem noDigit_leading {s : Step} (wellFormed : s.WellFormed)
    (free : ¬ s.leading.any (0 ≤ ·) = true) (rest : List Char) :
    NoDigit ((Step.bound s.leading).toList ++ (s.between.toList ++ rest)) := by
  cases hLeading : s.leading with
  | none => exact noDigit_between wellFormed hLeading rest
  | some i =>
      rw [hLeading] at free
      exact noDigit_decimal (fun h => free (decide_eq_true h)) _

structure EndsFraction (rest : List Char) : Prop where
  digit : NoDigit rest
  exponent : Numeral.spanExponent rest = (none, rest)

theorem endsFraction_cons {c : Char} (digit : c.isDigit = false) (letter : c ≠ 'e' ∧ c ≠ 'E')
    (more : List Char) : EndsFraction (c :: more) :=
  ⟨noDigit_cons digit more, by simp [Numeral.spanExponent, letter]⟩

/-- What ends a chain neither continues a fraction nor starts an exponent. -/
theorem EndsChain.endsFraction {rest : List Char} (h : EndsChain rest) : EndsFraction rest :=
  have hInteger : EndsInteger false rest := h.endsInteger
  ⟨hInteger.digit, hInteger.exponent rfl⟩

/-- A number whose fraction would end ends as an integer too if it has none. -/
theorem EndsFraction.endsInteger {rest : List Char} (h : EndsFraction rest) :
    EndsInteger true rest :=
  ⟨h.digit, fun h => Bool.noConfusion h, fun h => Bool.noConfusion h⟩

theorem toList_dottedTail_cons (s : Step) (ss : List Step) :
    (Step.dottedTail (s :: ss)).toList =
      '.' :: (s.dotted.toList ++ (Step.dottedTail ss).toList) := by
  rw [Step.dottedTail, String.toList_append, String.toList_append]
  rfl

/-- A dot ends a name, and so does what ends the chain. -/
theorem endsName_dottedTail (ss : List Step) {rest : List Char} (h : EndsChain rest) :
    EndsName ((Step.dottedTail ss).toList ++ rest) := by
  cases ss with
  | nil => exact h.endsName
  | cons s ss =>
      rw [toList_dottedTail_cons]
      exact endsName_mark .dot _

/-- The number that a step begins with ends before what follows it. -/
theorem endsFraction_between {s : Step} (number : s.leading.isSome = true) (ss : List Step)
    {rest : List Char} (h : EndsChain rest) :
    EndsFraction (s.between.toList ++
      ((Step.bound s.trailing).toList ++ (Step.dottedTail ss).toList) ++ rest) := by
  cases s with
  | member n p | call n args p => cases number
  | index i p =>
      cases ss with
      | nil => exact h.endsFraction
      | cons t ss =>
          rw [toList_dottedTail_cons]
          exact endsFraction_cons (c := '.') (by decide) (by decide) _
  | slice start stop step p =>
      rw [toList_between_slice]
      exact endsFraction_cons (c := ':') (by decide) (by decide) _

/-- The fraction of a joined number is less than one, so that the float is finite. -/
theorem value_joined_le (n i : Int64) :
    (Step.joinedNumeral n i).decimal.value ≤ n.toInt.natAbs + 1 := by
  have hFraction := lt_ten_pow_length i.toInt.natAbs
  have hNumber : Nat.ofDigitChars 10
      (Nat.toDigits 10 n.toInt.natAbs ++ Nat.toDigits 10 i.toInt.natAbs) 0 =
        10 ^ (Nat.toDigits 10 i.toInt.natAbs).length * n.toInt.natAbs + i.toInt.natAbs := by
    rw [Nat.ofDigitChars_append, Nat.ofDigitChars_eq_ofDigitChars_zero,
      Nat.ofDigitChars_ten_toDigits, Nat.ofDigitChars_ten_toDigits]
  rw [Step.joinedNumeral, Numeral.decimal_of_point, hNumber, Decimal.value]
  generalize (Nat.toDigits 10 i.toInt.natAbs).length = places at hFraction
  have hBelow : ((i.toInt.natAbs : Nat) : ℚ) ≤ 10 ^ places := by exact_mod_cast hFraction.le
  rw [zpow_neg, zpow_natCast, ← div_eq_mul_inv, div_le_iff₀ (by positivity)]
  push_cast
  linarith

/-- Joined numbers are not too large for a float. -/
theorem isFinite_joined (n i : Int64) : (Step.joinedNumeral n i).toFloat.isFinite = true := by
  refine Numeral.isFinite_toFloat ((value_joined_le n i).trans ?_)
  have hRange : n.toInt.natAbs ≤ 2 ^ 63 := by
    have hLow := n.le_toInt
    have hHigh := n.toInt_lt
    omega
  have hSmall : (n.toInt.natAbs : ℚ) + 1 ≤ 2 ^ (64 : Int) := by
    have hNat : n.toInt.natAbs + 1 ≤ 2 ^ 64 := by omega
    exact_mod_cast hNat
  exact hSmall.trans (two_zpow_le (by decide))

/-- The scanner takes a number, a dot and digits as one numeral. -/
theorem Numeral.span_point {sign : Option Char} {ss ds fs rest : List Char} (signed : IsSign sign ss)
    (digits : IsDigits ds) (fractional : IsDigits fs) (ends : EndsFraction rest) :
    span false (ss ++ (ds ++ ('.' :: (fs ++ rest)))) = (⟨sign, ds, some fs, none⟩, rest) := by
  have hSign := spanSign_of_spelled signed (digits.head ('.' :: (fs ++ rest)))
  have hDigits : spanDigits (ds ++ ('.' :: (fs ++ rest))) = (ds, '.' :: (fs ++ rest)) := by
    rcases spanDigits_cases digits.digits ('.' :: (fs ++ rest)) with hWhole | ⟨⟨_, ⟨⟩, hDigit⟩, _⟩
    · exact hWhole
    · cases hDigit
  have hPlaces : spanDigits (fs ++ rest) = (fs, rest) := by
    rcases spanDigits_cases fractional.digits rest with hWhole | ⟨⟨c, hc, hDigit⟩, _⟩
    · exact hWhole
    · rw [ends.digit c hc] at hDigit
      cases hDigit
  have hFraction : spanFraction ('.' :: (fs ++ rest)) = (some fs, rest) := by
    have hHead := fractional.head rest
    cases hText : fs ++ rest with
    | nil =>
        rw [hText] at hHead
        cases hHead
    | cons c more =>
        rw [hText] at hHead hPlaces
        have hDigit : c.isDigit = true := hHead
        simp [spanFraction, hDigit, hPlaces]
  simp only [span, hSign, hDigits, hFraction, ends.exponent, Bool.false_eq_true, if_false]

/-- A number, a dot and a number without sign are scanned as one float. -/
theorem spells_joined (n : Int64) {i : Int64} (digit : 0 ≤ i) :
    Spells false EndsFraction ((Text.decimal n).toList ++ ('.' :: (Text.decimal i).toList))
      [.float (Step.joinedNumeral n i).toFloat] := by
  intro rest us hRest hMore
  obtain ⟨ss, hText, hSign, _⟩ := Numeral.exists_decimal n
  have hFraction : (Text.decimal i).toList = Nat.toDigits 10 i.toInt.natAbs := by
    obtain ⟨_, hText, hSign, _⟩ := Numeral.exists_decimal i
    have hPlus : Numeral.signOf i = none :=
      if_neg (Int.not_lt.mpr (Int64.le_iff_toInt_le.mp digit))
    rw [hPlus] at hSign
    cases hSign
    exact hText
  have hWhole := Numeral.isDigits_toDigits n.toInt.natAbs
  have hPlaces := Numeral.isDigits_toDigits i.toInt.natAbs
  have hSpan := Numeral.span_point hSign hWhole hPlaces hRest
  have hStarts := Token.startsNumeral_of_whole (by rw [hSpan]; exact hWhole.some)
  have hToken : Token.ofNumeral? false (Step.joinedNumeral n i) =
      some (.float (Step.joinedNumeral n i).toFloat) :=
    Numeral.ofNumeral?_of_denotes (.float (.inl rfl) (isFinite_joined n i))
  have hScan := Token.scan_numeral hStarts hSpan hToken
  have hAll : (Text.decimal n).toList ++ ('.' :: (Text.decimal i).toList) ++ rest =
      ss ++ (Nat.toDigits 10 n.toInt.natAbs ++
        ('.' :: (Nat.toDigits 10 i.toInt.natAbs ++ rest))) := by
    rw [hText, hFraction]
    simp
  rw [hAll]
  obtain ⟨c, more, hFirst, hBlank⟩ := Token.isBlank_of_startsNumeral hStarts
  rw [hFirst] at hScan ⊢
  exact .head hBlank hScan Token.noConfusion hMore

/-- A bound is scanned as a number, or as nothing if it is left out. -/
theorem spells_bound (b : Option Int64) :
    Spells false (EndsInteger false) (Step.bound b).toList (Step.boundTokens b) := by
  cases b with
  | none => exact .nil
  | some n => exact spells_decimal n

/-- A step is scanned from where its first number ends, together with whatever its last number
becomes. -/
theorem spells_between {afterDot : Bool} {s : Step} (wellFormed : s.WellFormed)
    (hText : ∀ v ∈ s.literals, v.ReadsBack) (placed : afterDot = true → s.leading = none)
    {ss : List Step} {ts : List Token} (more : Spells false EndsChain
      ((Step.bound s.trailing).toList ++ (Step.dottedTail ss).toList) ts) :
    Spells afterDot EndsChain (s.between.toList ++
      ((Step.bound s.trailing).toList ++ (Step.dottedTail ss).toList)) (s.betweenTokens ++ ts) := by
  cases s with
  | member n p | call n args p =>
      exact (spells_segment wellFormed rfl hText).append more fun rest hRest =>
        endsName_dottedTail ss hRest
  | index i p =>
      cases afterDot with
      | true => exact absurd (placed rfl) (Option.some_ne_none i)
      | false => exact more
  | slice start stop step p =>
      rw [toList_between_slice]
      cases step with
      | none => exact .mark (m := .colon) more
      | some n =>
          have hStop := (spells_bound stop).append (.mark (m := .colon) more) fun rest _ =>
            (endsNumber_mark (m := .colon) (by decide) _).endsInteger
          simp only [Step.betweenTokens, Option.isSome_some, if_true, List.cons_append,
            List.append_assoc, List.nil_append]
          exact .mark (m := .colon) hStop

/-- Dotted steps are scanned as their joined tokens. The induction is on the steps, with the number
that the step before ends with. -/
theorem spells_joinedTail (before : Option Int64) {ss : List Step}
    (wellFormed : ∀ s ∈ ss, s.WellFormed) (hText : ∀ s ∈ ss, ∀ v ∈ s.literals, v.ReadsBack) :
    Spells false EndsChain ((Step.bound before).toList ++ (Step.dottedTail ss).toList)
      (Step.joinedTail before ss) := by
  induction ss generalizing before with
  | nil =>
      have hNone : (Step.dottedTail []).toList = [] := rfl
      rw [hNone, List.append_nil]
      exact (spells_bound before).weaken fun _ => EndsChain.endsInteger
  | cons s ss ih =>
      obtain ⟨hs, hss⟩ := List.forall_mem_cons.mp wellFormed
      obtain ⟨hsText, hssText⟩ := List.forall_mem_cons.mp hText
      have hMore {d : Bool} (placed : d = true → s.leading = none) :=
        spells_between hs hsText placed (ih s.trailing hss hssText)
      have hWritten : (Step.dottedTail (s :: ss)).toList = '.' :: ((Step.bound s.leading).toList ++
          (s.between.toList ++ ((Step.bound s.trailing).toList ++ (Step.dottedTail ss).toList))) := by
        rw [toList_dottedTail_cons, Step.toList_dotted]
        simp
      rw [hWritten, Step.joinedTail, Step.dotTokens]
      cases hJoined : Step.joined? before s.leading with
      | some x =>
          obtain ⟨n, i, rfl, hLeading, digit, rfl⟩ := Step.joined?_eq_some hJoined
          have hNumbers := (spells_joined n digit).append (hMore fun h => Bool.noConfusion h)
            fun rest hRest => endsFraction_between (s := s) (by rw [hLeading]; rfl) ss hRest
          rw [List.append_assoc, List.cons_append] at hNumbers
          rw [hLeading]
          exact hNumbers
      | none =>
          have hAfter : Spells true EndsChain ((Step.bound s.leading).toList ++ (s.between.toList ++
              ((Step.bound s.trailing).toList ++ (Step.dottedTail ss).toList)))
              (Step.boundTokens s.leading ++ (s.betweenTokens ++ Step.joinedTail s.trailing ss)) := by
            cases hLeading : s.leading with
            | none => exact hMore fun _ => hLeading
            | some i =>
                exact (spells_decimal i).append (hMore fun h => Bool.noConfusion h) fun rest hRest =>
                  (endsFraction_between (s := s) (by rw [hLeading]; rfl) ss hRest).endsInteger
          have hDot : Spells false EndsChain ('.' :: _) (.mark .dot :: _) := .mark (m := .dot) hAfter
          cases before with
          | none => exact hDot
          | some n =>
              rw [List.append_assoc, List.cons_append]
              refine (spells_decimal n).append hDot fun rest _ => endsInteger_dot ?_
              have hFree := fun h => (Step.joined?_eq_none_iff _ _).mp hJoined ⟨rfl, h⟩
              have hNone := noDigit_leading hs hFree
                ((Step.bound s.trailing).toList ++ (Step.dottedTail ss).toList ++ rest)
              simpa only [List.append_eq, List.append_assoc] using hNone

end GatedQuery
