import GatedQuery.Proofs.Scanning.Numerals
import GatedQuery.Proofs.Scanning.Places
import GatedQuery.Proofs.Scanning.Spelling

/-! The lexemes of the language, described without a scanner, and the texts that begin with none. At
every character that is not blank exactly one of them is found. -/

namespace GatedQuery

namespace Token

/-- Characters that are a name of the language. -/
def IsNameText (cs : List Char) : Prop :=
  IsIdentifier (String.ofList cs)

/-- The lexemes, after a dot or not, with what follows them and with their tokens: punctuation,
characters between two quotes, and the longest name or numeral. After a dot a numeral has neither
fraction nor exponent. -/
inductive IsLexeme (afterDot : Bool) : List Char → List Char → Token → Prop where
  | mark {rest : List Char} (m : Mark) : IsLexeme afterDot [m.char] rest (.mark m)
  | string {quote : Char} {body s rest : List Char} (quoted : quote = '"' ∨ quote = '\'')
      (inner : IsBody quote body s) :
      IsLexeme afterDot (quote :: (body ++ [quote])) rest (.string (String.ofList s))
  | name {cs rest : List Char} (longest : Longest IsNameText cs rest) :
      IsLexeme afterDot cs rest (.name (String.ofList cs))
  | numeral {n : Numeral} {cs rest : List Char} {t : Token} (spelled : n.SpelledBy afterDot cs)
      (longest : Longest (Numeral.IsSpelling afterDot) cs rest) (denotes : n.Denotes afterDot t) :
      IsLexeme afterDot cs rest t

/-- Texts that begin with no lexeme, after a dot or not, and why: a character that starts none, a
quote without one that closes it, and a numeral that is none of the 64-bit integers, if it stands after
a dot or denotes no finite float. -/
inductive IsFault (afterDot : Bool) : List Char → (Position → ScanError) → Prop where
  | character {c : Char} {cs : List Char} (visible : Text.isBlank c = false)
      (unmarked : ∀ m : Mark, c ≠ m.char) (unquoted : c ≠ '"' ∧ c ≠ '\'')
      (unnamed : startsName c = false)
      (unnumbered : ∀ ds, ds <+: c :: cs → ¬ Numeral.IsSpelling afterDot ds) :
      IsFault afterDot (c :: cs) (.unexpectedCharacter c)
  | string {quote : Char} {cs : List Char} (quoted : quote = '"' ∨ quote = '\'')
      (unclosed : ∀ body s, IsBody quote body s → ¬ body ++ [quote] <+: cs) :
      IsFault afterDot (quote :: cs) .unterminatedString
  | numeral {n : Numeral} {cs rest : List Char} (spelled : n.SpelledBy afterDot cs)
      (longest : Longest (Numeral.IsSpelling afterDot) cs rest)
      (large : n.isFractional = false → ∀ i : Int64, i.toInt ≠ Numeral.signed n.sign n.whole)
      (inexact : afterDot = true ∨ n.toFloat.isFinite = false) :
      IsFault afterDot (cs ++ rest) (.invalidNumber n.text)

/-- The characters of a name are those of the language, the first one no digit. -/
theorem startsName_of_isNameText {cs : List Char} (h : IsNameText cs) :
    ∃ c ds, cs = c :: ds ∧ startsName c = true ∧ ∀ d ∈ cs, continuesName d = true := by
  obtain ⟨c, ds, hText, hFirst, hMore⟩ := h
  rw [String.toList_ofList] at hText
  subst hText
  exact ⟨c, ds, rfl, hFirst, List.forall_mem_cons.mpr ⟨continuesName_of_startsName hFirst, hMore⟩⟩

/-- The scanner takes the longest name that the text begins with. -/
theorem longest_takeWhile {c : Char} (h : startsName c = true) (cs : List Char) :
    Longest IsNameText ((c :: cs).takeWhile continuesName) ((c :: cs).dropWhile continuesName) := by
  refine ⟨isIdentifier_takeWhile h cs, ?_⟩
  rintro ds ⟨rest, hText⟩ hName
  obtain ⟨_, _, _, _, hAll⟩ := startsName_of_isNameText hName
  rw [List.takeWhile_append_dropWhile] at hText
  rw [← hText, List.takeWhile_append_of_pos hAll, List.length_append]
  exact Nat.le_add_right ..

/-- The longest name is the one that the scanner takes. -/
theorem takeWhile_of_longest {cs rest : List Char} (h : Longest IsNameText cs rest) :
    (cs ++ rest).takeWhile continuesName = cs ∧ (cs ++ rest).dropWhile continuesName = rest := by
  obtain ⟨c, ds, rfl, hFirst, hAll⟩ := startsName_of_isNameText h.holds
  have hLength := h.longest _ (List.takeWhile_prefix continuesName)
    (isIdentifier_takeWhile hFirst (ds ++ rest))
  have hTake : (c :: ds ++ rest).takeWhile continuesName =
      c :: ds ++ rest.takeWhile continuesName := List.takeWhile_append_of_pos hAll
  rw [hTake, List.length_append] at hLength
  have hNone : rest.takeWhile continuesName = [] := List.eq_nil_of_length_eq_zero (by omega)
  rw [hTake, List.dropWhile_append_of_pos hAll, hNone, List.append_nil]
  refine ⟨rfl, ?_⟩
  have hRest := List.takeWhile_append_dropWhile (p := continuesName) (l := rest)
  rwa [hNone] at hRest

variable {afterDot : Bool}

/-- A lexeme is scanned as its token, and what follows is left. -/
theorem IsLexeme.scan {lexeme rest : List Char} {t : Token} (h : IsLexeme afterDot lexeme rest t)
    (p : Position) : Token.scan afterDot p (lexeme ++ rest) = (.ok t, rest) := by
  cases h with
  | mark m => exact scan_mark m afterDot p rest
  | @string quote body s _ quoted inner =>
      rw [List.cons_append, List.append_assoc, List.singleton_append]
      exact scan_string quoted (scanString_of_body (ne_backslash_of_quote quoted) inner rest)
        afterDot p
  | name longest =>
      obtain ⟨hTake, hDrop⟩ := takeWhile_of_longest longest
      obtain ⟨c, ds, rfl, hFirst, _⟩ := startsName_of_isNameText longest.holds
      rw [List.cons_append] at hTake hDrop ⊢
      rw [scan_name hFirst, hTake, hDrop]
  | numeral spelled longest denotes =>
      exact scan_numeral (Numeral.startsNumeral_of_spelled spelled rest)
        (Numeral.span_of_longest spelled longest) (Numeral.ofNumeral?_of_denotes denotes) p

/-- No lexeme starts with a blank. -/
theorem IsLexeme.visible {lexeme rest : List Char} {t : Token}
    (h : IsLexeme afterDot lexeme rest t) : ∃ c ds, lexeme = c :: ds ∧ Text.isBlank c = false := by
  cases h with
  | mark m => exact ⟨m.char, [], rfl, by cases m <;> decide⟩
  | string quoted => exact ⟨_, _, rfl, isBlank_of_quote quoted⟩
  | name longest =>
      obtain ⟨c, ds, rfl, hFirst, _⟩ := startsName_of_isNameText longest.holds
      exact ⟨c, ds, rfl, isBlank_of_startsName hFirst⟩
  | numeral spelled =>
      have hStarts := Numeral.startsNumeral_of_spelled spelled []
      rw [List.append_nil] at hStarts
      exact isBlank_of_startsNumeral hStarts

theorem IsFault.visible {cs : List Char} {e : Position → ScanError} (h : IsFault afterDot cs e) :
    ∃ c ds, cs = c :: ds ∧ Text.isBlank c = false := by
  cases h with
  | character visible => exact ⟨_, _, rfl, visible⟩
  | string quoted => exact ⟨_, _, rfl, isBlank_of_quote quoted⟩
  | @numeral _ _ rest spelled =>
      exact isBlank_of_startsNumeral (Numeral.startsNumeral_of_spelled spelled rest)

/-- A fault is reported at the place where it begins. -/
theorem IsFault.position {cs : List Char} {e : Position → ScanError} (h : IsFault afterDot cs e)
    (p : Position) : (e p).position = p := by
  cases h <;> rfl

/-- A text that begins with a fault fails with it. -/
theorem IsFault.scan {cs : List Char} {e : Position → ScanError} (h : IsFault afterDot cs e)
    (p : Position) : ∃ rest, Token.scan afterDot p cs = (.error (e p), rest) := by
  cases h with
  | @character c cs _ unmarked unquoted unnamed unnumbered =>
      have hMark : Mark.ofChar? c = none :=
        List.find?_eq_none.mpr fun m _ hm => unmarked m (eq_of_beq hm).symm
      have hNumeral : startsNumeral (c :: cs) = false := by
        rw [Bool.eq_false_iff]
        intro hStarts
        obtain ⟨ds, hText, hSpelled⟩ := Numeral.spelledBy_span hStarts afterDot
        exact unnumbered ds ⟨_, hText.symm⟩ ⟨_, hSpelled⟩
      refine ⟨c :: cs, ?_⟩
      simp [Token.scan, hMark, unquoted, unnamed, hNumeral]
  | @string quote cs quoted unclosed =>
      have hOpen : scanString quote cs = none := by
        refine Option.eq_none_iff_forall_ne_some.mpr fun r hr => ?_
        obtain ⟨body, rfl, hBody⟩ := body_of_scanString hr
        exact unclosed body r.1 hBody ⟨r.2, by simp⟩
      refine ⟨[], ?_⟩
      simp [Token.scan, ofChar?_of_quote quoted, quoted, hOpen]
  | @numeral n cs rest spelled longest large inexact =>
      have hNone : ofNumeral? afterDot n = none :=
        Option.eq_none_iff_forall_ne_some.mpr fun t ht =>
          (Numeral.not_denotes_iff spelled).mpr ⟨large, inexact⟩ t (Numeral.denotes_of_ofNumeral? ht)
      exact ⟨rest, scan_invalidNumber (Numeral.startsNumeral_of_spelled spelled rest)
        (Numeral.span_of_longest spelled longest) hNone p⟩

/-- What starts like a numeral is one that denotes a number, or a fault. -/
theorem numeral_or_fault {cs : List Char} (h : startsNumeral cs = true) :
    (∃ lexeme rest t, cs = lexeme ++ rest ∧ IsLexeme afterDot lexeme rest t) ∨
      ∃ e, IsFault afterDot cs e := by
  obtain ⟨lexeme, hText, spelled, longest⟩ := Numeral.longest_span h afterDot
  cases hToken : ofNumeral? afterDot (Numeral.span afterDot cs).1 with
  | some t =>
      exact .inl ⟨lexeme, _, t, hText,
        .numeral spelled longest (Numeral.denotes_of_ofNumeral? hToken)⟩
  | none =>
      obtain ⟨large, inexact⟩ := (Numeral.not_denotes_iff spelled).mp fun t ht => by
        rw [Numeral.ofNumeral?_of_denotes ht] at hToken
        cases hToken
      have hFault := IsFault.numeral spelled longest large inexact
      rw [← hText] at hFault
      exact .inr ⟨_, hFault⟩

/-- A quote starts a string that ends, or a fault. -/
theorem string_or_fault {quote : Char} (quoted : quote = '"' ∨ quote = '\'') (cs : List Char) :
    (∃ lexeme rest t, quote :: cs = lexeme ++ rest ∧ IsLexeme afterDot lexeme rest t) ∨
      ∃ e, IsFault afterDot (quote :: cs) e := by
  cases hString : scanString quote cs with
  | some r =>
      obtain ⟨body, rfl, hBody⟩ := body_of_scanString hString
      exact .inl ⟨quote :: (body ++ [quote]), r.2, _, by simp, .string quoted hBody⟩
  | none =>
      refine .inr ⟨.unterminatedString, .string quoted fun body s hBody hClosed => ?_⟩
      obtain ⟨rest, rfl⟩ := hClosed
      rw [List.append_assoc, List.singleton_append,
        scanString_of_body (ne_backslash_of_quote quoted) hBody] at hString
      cases hString

/-- A text that begins with a character that is not blank begins with a lexeme, unless it has a
fault. -/
theorem lexeme_or_fault (afterDot : Bool) {c : Char} (visible : Text.isBlank c = false)
    (cs : List Char) :
    (∃ lexeme rest t, c :: cs = lexeme ++ rest ∧ IsLexeme afterDot lexeme rest t) ∨
      ∃ e, IsFault afterDot (c :: cs) e := by
  by_cases hMark : ∃ m : Mark, c = m.char
  · obtain ⟨m, rfl⟩ := hMark
    exact .inl ⟨[m.char], cs, .mark m, rfl, .mark m⟩
  by_cases hQuote : c = '"' ∨ c = '\''
  · exact string_or_fault hQuote cs
  by_cases hName : startsName c = true
  · exact .inl ⟨_, _, _, List.takeWhile_append_dropWhile.symm, .name (longest_takeWhile hName cs)⟩
  by_cases hNumeral : startsNumeral (c :: cs) = true
  · exact numeral_or_fault hNumeral
  refine .inr ⟨.unexpectedCharacter c, .character visible (not_exists.mp hMark) (not_or.mp hQuote)
    (Bool.not_eq_true _ ▸ hName) ?_⟩
  rintro ds ⟨rest, hText⟩ ⟨n, spelled⟩
  rw [← hText] at hNumeral
  exact hNumeral (Numeral.startsNumeral_of_spelled spelled rest)

end Token

end GatedQuery
