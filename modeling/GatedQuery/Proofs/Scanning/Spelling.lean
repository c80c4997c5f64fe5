import GatedQuery.Proofs.Scanning.Basic

/-! Characters that spell tokens. A name or a number also depends on what follows it: the character
after it must not go on with it. -/

namespace GatedQuery

/-- A text before which a name ends. -/
def EndsName (rest : List Char) : Prop :=
  ∀ c ∈ rest.head?, Token.continuesName c = false

/-- A text before which a number ends: it begins with a mark other than a dot. -/
def EndsNumber (rest : List Char) : Prop :=
  ∃ m more, m ≠ Mark.dot ∧ rest = m.char :: more

theorem continuesName_mark (m : Mark) : Token.continuesName m.char = false := by
  cases m <;> decide

theorem endsName_cons {c : Char} (h : Token.continuesName c = false) (more : List Char) :
    EndsName (c :: more) := by
  rintro d ⟨⟩
  exact h

/-- No punctuation can stand in a name. -/
theorem endsName_mark (m : Mark) (more : List Char) : EndsName (m.char :: more) :=
  endsName_cons (continuesName_mark m) more

/-- All punctuation but the dot ends a number. -/
theorem endsNumber_mark {m : Mark} (h : m ≠ .dot) (more : List Char) :
    EndsNumber (m.char :: more) :=
  ⟨m, more, h, rfl⟩

/-- What ends a number ends a name, as names may hold digits. -/
theorem EndsNumber.endsName {rest : List Char} (h : EndsNumber rest) : EndsName rest := by
  obtain ⟨m, more, _, rfl⟩ := h
  exact endsName_mark m more

namespace Numeral

/-- What ends a number is not taken with the digits before it. -/
theorem spanDigits_append {rest : List Char} (h : EndsNumber rest) (cs : List Char) :
    spanDigits (cs ++ rest) = ((spanDigits cs).1, (spanDigits cs).2 ++ rest) := by
  obtain ⟨m, more, _, rfl⟩ := h
  have hMark : m.char.isDigit = false := by cases m <;> decide
  induction cs with
  | nil => simp [spanDigits, hMark]
  | cons c cs ih =>
      simp only [spanDigits, Prod.mk.injEq] at ih
      cases hDigit : c.isDigit <;> simp [spanDigits, hDigit, ih]

theorem spanSign_append {rest : List Char} (h : EndsNumber rest) (cs : List Char) :
    spanSign (cs ++ rest) = ((spanSign cs).1, (spanSign cs).2 ++ rest) := by
  obtain ⟨m, more, _, rfl⟩ := h
  cases cs with
  | nil => cases m <;> rfl
  | cons c cs =>
      rw [List.cons_append]
      unfold spanSign
      split
      next hMinus => cases hMinus; rfl
      next hPlus => cases hPlus; rfl
      next hMinus hPlus =>
        split
        next hMinus' => exact absurd (congrArg (· ++ m.char :: more) hMinus') (hMinus _)
        next hPlus' => exact absurd (congrArg (· ++ m.char :: more) hPlus') (hPlus _)
        next => rfl

theorem spanFraction_append {rest : List Char} (h : EndsNumber rest) (cs : List Char) :
    spanFraction (cs ++ rest) = ((spanFraction cs).1, (spanFraction cs).2 ++ rest) := by
  have hDigits := spanDigits_append h
  obtain ⟨m, more, hDot, rfl⟩ := h
  match cs with
  | [] => cases m <;> first | rfl | exact absurd rfl hDot
  | [c] =>
      have hMark : m.char.isDigit = false := by cases m <;> decide
      by_cases hPoint : c = '.'
      · subst hPoint
        simp [spanFraction, hMark]
      · simp [spanFraction, hPoint]
  | c :: d :: cs =>
      by_cases hPoint : c = '.'
      · subst hPoint
        have := hDigits (d :: cs)
        rw [List.cons_append] at this
        cases hDigit : d.isDigit <;> simp [spanFraction, hDigit, this]
      · simp [spanFraction, hPoint]

theorem spanExponent_append {rest : List Char} (h : EndsNumber rest) (cs : List Char) :
    spanExponent (cs ++ rest) = ((spanExponent cs).1, (spanExponent cs).2 ++ rest) := by
  cases cs with
  | nil =>
      obtain ⟨m, more, _, rfl⟩ := h
      have hMark : (m.char == 'e' || m.char == 'E') = false := by cases m <;> decide
      simp [spanExponent, hMark]
  | cons e cs =>
      have hHead : ((spanSign cs).2 ++ rest).head?.any Char.isDigit =
          (spanSign cs).2.head?.any Char.isDigit := by
        cases (spanSign cs).2 with
        | nil =>
            obtain ⟨m, more, _, rfl⟩ := h
            cases m <;> rfl
        | cons d ds => rfl
      simp only [List.cons_append, spanExponent, spanSign_append h, spanDigits_append h, hHead]
      split <;> rfl

/-- A numeral is taken up to what ends a number. -/
theorem span_append {rest : List Char} (h : EndsNumber rest) (cs : List Char) :
    span false (cs ++ rest) = ((span false cs).1, (span false cs).2 ++ rest) := by
  simp only [span, spanSign_append h, spanDigits_append h, spanFraction_append h,
    spanExponent_append h, Bool.false_eq_true, if_false]

end Numeral

namespace Token

/-- The characters that start a name, by their code points. -/
theorem toNat_of_startsName {c : Char} (h : startsName c = true) :
    65 ≤ c.toNat ∧ c.toNat ≤ 90 ∨ 97 ≤ c.toNat ∧ c.toNat ≤ 122 ∨ c.toNat = 95 := by
  rcases Bool.or_eq_true_iff.mp h with hAlpha | hUnderscore
  · rcases Bool.or_eq_true_iff.mp hAlpha with hUpper | hLower
    · have hRange : c.val ≥ 'A'.val ∧ c.val ≤ 'Z'.val := of_decide_eq_true hUpper
      exact .inl hRange
    · obtain ⟨hFrom, hTo⟩ := Bool.and_eq_true_iff.mp hLower
      exact .inr (.inl ⟨of_decide_eq_true hFrom, of_decide_eq_true hTo⟩)
  · obtain rfl := eq_of_beq hUnderscore
    exact .inr (.inr rfl)

theorem toNat_of_startsNumeral {c : Char} {cs : List Char} (h : startsNumeral (c :: cs) = true) :
    c.toNat = 43 ∨ c.toNat = 45 ∨ 48 ≤ c.toNat ∧ c.toNat ≤ 57 := by
  simp only [startsNumeral, Bool.or_eq_true, Bool.and_eq_true, beq_iff_eq] at h
  rcases h with hDigit | ⟨rfl | rfl, _⟩
  · exact .inr (.inr (Char.isDigit_iff_toNat.mp hDigit))
  · exact .inr (.inl rfl)
  · exact .inl rfl

/-- No name starts like a numeral. -/
theorem startsName_of_startsNumeral {c : Char} {cs : List Char}
    (h : startsNumeral (c :: cs) = true) : startsName c = false := by
  have hNumeral := toNat_of_startsNumeral h
  cases hName : startsName c with
  | false => rfl
  | true =>
      have hLetter := toNat_of_startsName hName
      omega

/-- Between the blank and the end of ASCII, no character is blank. -/
theorem isBlank_eq_false {c : Char} (above : 32 < c.toNat) (below : c.toNat < 128) :
    Text.isBlank c = false := by
  cases hBlank : Text.isBlank c with
  | false => rfl
  | true =>
      simp [Text.isBlank] at hBlank
      omega

theorem ofChar?_eq_none {c : Char} (h : ∀ m : Mark, m.char.toNat ≠ c.toNat) :
    Mark.ofChar? c = none :=
  List.find?_eq_none.mpr fun m _ hm => h m (congrArg Char.toNat (eq_of_beq hm))

theorem not_quote {c : Char} (h : c.toNat ≠ 34 ∧ c.toNat ≠ 39) :
    (decide (c = '"') || decide (c = '\'')) = false := by
  simp only [Bool.or_eq_false_iff, decide_eq_false_iff_not]
  exact ⟨fun hc => h.1 (hc ▸ rfl), fun hc => h.2 (hc ▸ rfl)⟩

theorem isBlank_of_startsName {c : Char} (h : startsName c = true) : Text.isBlank c = false := by
  have hLetter := toNat_of_startsName h
  exact isBlank_eq_false (by omega) (by omega)

theorem isBlank_of_startsNumeral {cs : List Char} (h : startsNumeral cs = true) :
    ∃ c ds, cs = c :: ds ∧ Text.isBlank c = false := by
  cases cs with
  | nil => cases h
  | cons c ds =>
      have hDigit := toNat_of_startsNumeral h
      exact ⟨c, ds, rfl, isBlank_eq_false (by omega) (by omega)⟩

section Quote

variable {quote : Char} (h : quote = '"' ∨ quote = '\'')

include h

theorem isBlank_of_quote : Text.isBlank quote = false := by
  rcases h with rfl | rfl <;> decide

theorem ofChar?_of_quote : Mark.ofChar? quote = none := by
  rcases h with rfl | rfl <;> decide

theorem ne_backslash_of_quote : quote ≠ '\\' := by
  rcases h with rfl | rfl <;> decide

end Quote

/-- Punctuation is always one token of its own. -/
theorem scan_mark (m : Mark) (integerOnly : Bool) (p : Position) (cs : List Char) :
    scan integerOnly p (m.char :: cs) = (.ok (.mark m), cs) := by
  rw [scan, Mark.ofChar?_char]

/-- A quote starts a string, which ends at the same quote. -/
theorem scan_string {quote : Char} (h : quote = '"' ∨ quote = '\'') {cs s rest : List Char}
    (hString : scanString quote cs = some (s, rest)) (integerOnly : Bool) (p : Position) :
    scan integerOnly p (quote :: cs) = (.ok (.string (String.ofList s)), rest) := by
  have hQuote : (decide (quote = '"') || decide (quote = '\'')) = true := by simpa using h
  simp only [scan, ofChar?_of_quote h, hQuote, if_true, hString]

/-- A name takes all characters that may continue it. -/
theorem scan_name {c : Char} {cs : List Char} (h : startsName c = true) (integerOnly : Bool)
    (p : Position) : scan integerOnly p (c :: cs) =
      (.ok (.name (String.ofList ((c :: cs).takeWhile continuesName))),
        (c :: cs).dropWhile continuesName) := by
  have hLetter := toNat_of_startsName h
  have hMark : Mark.ofChar? c = none := by
    refine ofChar?_eq_none fun m hm => ?_
    rw [← hm] at hLetter
    revert hLetter
    cases m <;> decide
  have hQuote := not_quote (c := c) (by omega)
  simp only [scan, hMark, hQuote, h, Bool.false_eq_true, if_false, if_true]

/-- A numeral is read as a whole before it is told whether it is a number. -/
theorem scan_of_startsNumeral {cs : List Char} (h : startsNumeral cs = true) (integerOnly : Bool)
    (p : Position) : scan integerOnly p cs =
      match ofNumeral? integerOnly (Numeral.span integerOnly cs).1 with
      | some t => (.ok t, (Numeral.span integerOnly cs).2)
      | none => (.error (.invalidNumber (Numeral.span integerOnly cs).1.text p),
          (Numeral.span integerOnly cs).2) := by
  cases cs with
  | nil => cases h
  | cons c cs =>
      have hDigit := toNat_of_startsNumeral h
      have hMark : Mark.ofChar? c = none := by
        refine ofChar?_eq_none fun m hm => ?_
        rw [← hm] at hDigit
        revert hDigit
        cases m <;> decide
      have hQuote := not_quote (c := c) (by omega)
      have hName := startsName_of_startsNumeral h
      cases hToken : ofNumeral? integerOnly (Numeral.span integerOnly (c :: cs)).1 with
      | some t =>
          simp only [scan, hMark, hQuote, hName, h, hToken, Bool.false_eq_true, if_false, if_true]
      | none =>
          simp only [scan, hMark, hQuote, hName, h, hToken, Bool.false_eq_true, if_false, if_true]

theorem scan_numeral {cs rest : List Char} {n : Numeral} {t : Token}
    (h : startsNumeral cs = true) {integerOnly : Bool}
    (hSpan : Numeral.span integerOnly cs = (n, rest)) (hToken : ofNumeral? integerOnly n = some t)
    (p : Position) : scan integerOnly p cs = (.ok t, rest) := by
  rw [scan_of_startsNumeral h, hSpan, hToken]

theorem scan_invalidNumber {cs rest : List Char} {n : Numeral} (h : startsNumeral cs = true)
    {integerOnly : Bool} (hSpan : Numeral.span integerOnly cs = (n, rest))
    (hToken : ofNumeral? integerOnly n = none) (p : Position) :
    scan integerOnly p cs = (.error (.invalidNumber n.text p), rest) := by
  rw [scan_of_startsNumeral h, hSpan, hToken]

theorem startsNumeral_of_whole {cs : List Char} {integerOnly : Bool}
    (h : (Numeral.span integerOnly cs).1.whole ≠ []) : startsNumeral cs = true := by
  have hDigits {ds : List Char} (hd : (Numeral.spanDigits ds).1 ≠ []) :
      ds.head?.any Char.isDigit = true := by
    cases ds with
    | nil => exact absurd rfl hd
    | cons d ds =>
        cases hDigit : d.isDigit with
        | true => exact hDigit
        | false => exact absurd (List.takeWhile_cons_of_neg (by simp [hDigit])) hd
  have hWhole : (Numeral.spanDigits (Numeral.spanSign cs).2).1 ≠ [] := by
    cases integerOnly <;> exact h
  unfold Numeral.spanSign at hWhole
  split at hWhole
  next ds => simp [startsNumeral, hDigits hWhole]
  next ds => simp [startsNumeral, hDigits hWhole]
  next =>
    cases cs with
    | nil => exact absurd rfl hWhole
    | cons c cs =>
        have hFirst : c.isDigit = true := hDigits hWhole
        simp [startsNumeral, hFirst]

end Token

/-- The characters spell the tokens, after a dot or not, wherever a text with the property
follows. -/
def Spells (afterDot : Bool) (next : List Char → Prop) (cs : List Char) (ts : List Token) : Prop :=
  ∀ rest us, next rest → Scans false rest us → Scans afterDot (cs ++ rest) (ts ++ us)

variable {afterDot : Bool} {next following : List Char → Prop}

/-- Blanks between tokens are left out. -/
theorem Scans.blank {c : Char} {cs : List Char} {ts : List Token} (hBlank : Text.isBlank c = true)
    (h : Scans afterDot cs ts) : Scans afterDot (c :: cs) ts := by
  have hDrop : Text.dropBlanks (c :: cs) = Text.dropBlanks cs := List.dropWhile_cons_of_pos hBlank
  cases h with
  | done blank => exact .done (hDrop.trans blank)
  | token first some more => exact .token (hDrop ▸ first) some more

/-- The first token is followed by those of the rest, and whether it is a dot decides how the rest
begins. -/
theorem Scans.head {c : Char} {cs rest : List Char} {t : Token} {ts : List Token}
    (hBlank : Text.isBlank c = false) (first : ∀ p, Token.scan afterDot p (c :: cs) = (.ok t, rest))
    (some : t ≠ .endOfInput) (more : Scans (t.isMark .dot) rest ts) :
    Scans afterDot (c :: cs) (t :: ts) := by
  have hDrop : Text.dropBlanks (c :: cs) = c :: cs :=
    List.dropWhile_cons_of_neg (by simp [hBlank])
  exact .token (fun p => by rw [hDrop]; exact first p) some more

theorem Scans.mark {m : Mark} {cs : List Char} {ts : List Token} (h : Scans (m == .dot) cs ts) :
    Scans afterDot (m.char :: cs) (.mark m :: ts) := by
  have hBlank : Text.isBlank m.char = false := by cases m <;> decide
  exact .head hBlank (Token.scan_mark m afterDot · cs) Token.noConfusion h

namespace Spells

theorem nil : Spells false next [] [] :=
  fun _ _ _ h => h

/-- Spelling one part after the other needs that the second part ends the first one. -/
theorem append {cs ds : List Char} {ts us : List Token} (h : Spells afterDot next cs ts)
    (h' : Spells false following ds us) (hNext : ∀ rest, following rest → next (ds ++ rest)) :
    Spells afterDot following (cs ++ ds) (ts ++ us) := by
  intro rest vs hRest hMore
  rw [List.append_assoc, List.append_assoc]
  exact h _ _ (hNext rest hRest) (h' _ _ hRest hMore)

/-- What is spelled before some endings is spelled before fewer of them. -/
theorem weaken {cs : List Char} {ts : List Token} (h : Spells afterDot next cs ts)
    (hNext : ∀ rest, following rest → next rest) : Spells afterDot following cs ts :=
  fun rest us hRest hMore => h rest us (hNext rest hRest) hMore

/-- A blank may stand before any part. -/
theorem blank {cs : List Char} {ts : List Token} (h : Spells afterDot next cs ts) :
    Spells afterDot next (' ' :: cs) ts :=
  fun rest us hRest hMore => .blank (by decide) (h rest us hRest hMore)

/-- A mark is spelled by its character, whatever follows. -/
theorem mark {m : Mark} {cs : List Char} {ts : List Token}
    (h : Spells (m == .dot) next cs ts) : Spells afterDot next (m.char :: cs) (.mark m :: ts) :=
  fun rest us hRest hMore => .mark (h rest us hRest hMore)

/-- A name is spelled by its characters before what ends a name. -/
theorem name {n : String} (h : Token.IsIdentifier n) :
    Spells afterDot EndsName n.toList [.name n] := by
  intro rest us hRest hMore
  obtain ⟨c, cs, hn, hFirst, hContinues⟩ := h
  have hAll : ∀ d ∈ c :: cs, Token.continuesName d = true :=
    List.forall_mem_cons.mpr ⟨Token.continuesName_of_startsName hFirst, hContinues⟩
  have hEnd : rest.takeWhile Token.continuesName = [] ∧
      rest.dropWhile Token.continuesName = rest := by
    cases rest with
    | nil => exact ⟨rfl, rfl⟩
    | cons d more =>
        have hd : Token.continuesName d = false := hRest d rfl
        exact ⟨List.takeWhile_cons_of_neg (by simp [hd]), List.dropWhile_cons_of_neg (by simp [hd])⟩
  have hTake : (c :: (cs ++ rest)).takeWhile Token.continuesName = c :: cs := by
    rw [← List.cons_append, List.takeWhile_append_of_pos hAll, hEnd.1, List.append_nil]
  have hDrop : (c :: (cs ++ rest)).dropWhile Token.continuesName = rest := by
    rw [← List.cons_append, List.dropWhile_append_of_pos hAll, hEnd.2]
  have hName : String.ofList (c :: cs) = n := by rw [← hn, String.ofList_toList]
  rw [hn, List.cons_append]
  refine .head (Token.isBlank_of_startsName hFirst) (fun p => ?_) Token.noConfusion hMore
  rw [Token.scan_name hFirst, hTake, hDrop, hName]

/-- A string between quotes, if the reader gives its characters back. -/
theorem string {quote : Char} (hQuote : quote = '"' ∨ quote = '\'') {cs s : List Char}
    (h : ∀ rest, Token.scanString quote (cs ++ rest) = some (s, rest)) :
    Spells afterDot next (quote :: cs) [.string (String.ofList s)] := by
  intro rest us _ hMore
  exact .head (Token.isBlank_of_quote hQuote) (Token.scan_string hQuote (h rest) afterDot) Token.noConfusion hMore

theorem numeral {cs : List Char} {n : Numeral} {t : Token}
    (hSpan : Numeral.span false cs = (n, [])) (whole : n.whole ≠ [])
    (hToken : Token.ofNumeral? false n = some t) (some : t ≠ .endOfInput)
    (hDot : t.isMark .dot = false) : Spells false EndsNumber cs [t] := by
  intro rest us hRest hMore
  have hFull : Numeral.span false (cs ++ rest) = (n, rest) := by
    rw [Numeral.span_append hRest, hSpan, List.nil_append]
  have hStarts : Token.startsNumeral (cs ++ rest) = true :=
    Token.startsNumeral_of_whole (by rw [hFull]; exact whole)
  have hScan := Token.scan_numeral hStarts hFull hToken
  have hMore' : Scans (t.isMark .dot) rest us := by rw [hDot]; exact hMore
  obtain ⟨c, ds, hText, hBlank⟩ := Token.isBlank_of_startsNumeral hStarts
  rw [hText] at hScan ⊢
  exact .head hBlank hScan some hMore'

end Spells

end GatedQuery
