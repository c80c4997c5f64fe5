import GatedQuery.Proofs.Scanning.Tiling

/-! A scanner goes through its text once. Every token takes a character, and no call goes back or
moves past the end, whether or not it succeeds. At the end a scanner stays where it is, so that it
comes there or fails after no more calls than the text has characters. -/

namespace GatedQuery

/-- What is left after a scan, and also after one that fails, is the end of what was there. -/
theorem Token.scan_left_suffix (integerOnly : Bool) (p : Position) (cs : List Char) :
    (Token.scan integerOnly p cs).2 <:+ cs := by
  cases hScan : Token.scan integerOnly p cs with
  | mk outcome rest =>
      cases outcome with
      | ok t => exact Token.scan_suffix hScan
      | error e =>
          cases cs with
          | nil => cases hScan
          | cons c cs =>
              simp only [Token.scan] at hScan
              split at hScan
              next => cases hScan
              next =>
                split at hScan
                next =>
                  split at hScan
                  next => cases hScan
                  next =>
                    cases hScan
                    exact List.nil_suffix
                next =>
                  split at hScan
                  next => cases hScan
                  next =>
                    split at hScan
                    next =>
                      split at hScan
                      next => cases hScan
                      next =>
                        cases hScan
                        exact ((Numeral.span_suffix _ _).trans (Numeral.spanDigits_suffix _)).trans
                          (Numeral.spanSign_suffix _)
                    next =>
                      cases hScan
                      exact List.suffix_rfl

namespace Scanner

variable {text rest : List Char} {s : Scanner}

/-- The scanner after so many calls, some of which may have failed. -/
def after (s : Scanner) : Nat → Scanner
  | 0 => s
  | calls + 1 => s.next.2.after calls

/-- A scanner whose place counts the characters of a text before those that it has left. -/
structure StandsIn (text : List Char) (s : Scanner) : Prop where
  left : s.rest <:+ text
  offset : s.position.offset + s.rest.length = text.length

theorem standsIn_ofText (s : String) : StandsIn s.toList (ofText s) :=
  ⟨List.suffix_rfl, Nat.zero_add _⟩

/-- A scanner that moves on within its text still stands in it, at the right place. -/
theorem StandsIn.moveTo (h : StandsIn text s) (suffix : rest <:+ s.rest) :
    StandsIn text (s.moveTo rest) := by
  refine ⟨suffix.trans h.left, ?_⟩
  have hLength := suffix.length_le
  have hOffset := h.offset
  simp only [Scanner.moveTo, Position.offset_past, List.length_take]
  omega

theorem dropBlanks_suffix (s : Scanner) : Text.dropBlanks s.rest <:+ s.rest :=
  List.dropWhile_suffix _

/-- What is left after a token is the end of what was left before. -/
theorem next_left_suffix (s : Scanner) : s.next.2.rest <:+ s.rest := by
  have hToken := Token.scan_left_suffix s.afterDot (s.moveTo (Text.dropBlanks s.rest)).position
    (s.moveTo (Text.dropBlanks s.rest)).rest
  unfold Scanner.next
  dsimp only
  split <;> exact hToken.trans s.dropBlanks_suffix

theorem StandsIn.next (h : StandsIn text s) : StandsIn text s.next.2 := by
  have hBlanks := h.moveTo s.dropBlanks_suffix
  have hToken := hBlanks.moveTo (Token.scan_left_suffix s.afterDot
    (s.moveTo (Text.dropBlanks s.rest)).position (s.moveTo (Text.dropBlanks s.rest)).rest)
  unfold Scanner.next
  dsimp only
  split
  · exact ⟨hToken.left, hToken.offset⟩
  · exact hToken

/-- However often a scanner is asked, it stands in its text. -/
theorem StandsIn.after (h : StandsIn text s) (calls : Nat) : StandsIn text (s.after calls) := by
  induction calls generalizing s with
  | zero => exact h
  | succ calls ih => exact ih h.next

/-- At the end of its text a scanner finds the end of the input and stays. -/
theorem next_at_end (h : s.rest = []) :
    s.next = (.ok ⟨.endOfInput, s.position⟩, { s with afterDot := false }) := by
  obtain ⟨_, p, afterDot⟩ := s
  obtain rfl := h
  exact next_blank (by simp) p afterDot

/-- At the end of the text every call gives the end of the input. -/
theorem after_at_end (h : s.rest = []) (calls : Nat) :
    (s.after calls).next.1 = .ok ⟨.endOfInput, s.position⟩ := by
  induction calls generalizing s with
  | zero => rw [after, next_at_end h]
  | succ calls ih =>
      rw [after, next_at_end h]
      exact ih h

/-- A scanner finds the end of the input only at the end of its text. -/
theorem next_endOfInput {t : PlacedToken} (h : s.next.1 = .ok t) (hEnd : t.token = .endOfInput) :
    t.position = s.next.2.position ∧ s.next.2.rest = [] := by
  obtain ⟨cs, p, afterDot⟩ := s
  rcases text_cases afterDot cs with hBlank | ⟨_, _, _, hFault⟩ | ⟨_, _, _, _, hLexeme⟩
  · rw [next_blank hBlank] at h ⊢
    cases h
    exact ⟨rfl, rfl⟩
  · rw [next_unreadable hFault] at h
    cases h
  · rw [next_lexeme hLexeme] at h
    cases h
    exact absurd hEnd hLexeme.ne_endOfInput

/-- What a call does to the place of a scanner in a text. -/
structure MovesOn (text : List Char) (s : Scanner) : Prop where
  inside : s.position.offset ≤ text.length
  left : s.rest = text.drop s.position.offset
  onward : s.position.offset ≤ s.next.2.position.offset
  token : ∀ t, s.next.1 = .ok t → t.token ≠ .endOfInput →
    s.position.offset < s.next.2.position.offset
  /-- The end of the input is found at the end of the text, at once or behind blanks. -/
  endOfInput : ∀ t, s.next.1 = .ok t → t.token = .endOfInput →
    t.position = s.next.2.position ∧ s.next.2.position.offset = text.length
  ended : s.position.offset = text.length →
    ∀ calls, (s.after calls).next.1 = .ok ⟨.endOfInput, s.position⟩

/-- Each call takes a character at least, until the text ends. -/
theorem StandsIn.movesOn (h : StandsIn text s) : MovesOn text s := by
  have hOffset := h.offset
  have hLater := h.next.offset
  have hLength := s.next_left_suffix.length_le
  have hPlace : s.position.offset = text.length - s.rest.length := by omega
  refine ⟨by omega, ?_, by omega, fun t ht hToken => ?_, fun t ht hEnd => ?_, fun hEnd => ?_⟩
  · rw [hPlace]
    exact List.suffix_iff_eq_drop.mp h.left
  · have hShorter : s.next.2.rest.length < s.rest.length := (next_ok (Prod.ext ht rfl)).2 hToken
    omega
  · obtain ⟨hSame, hRest⟩ := next_endOfInput ht hEnd
    rw [hRest, List.length_nil, Nat.add_zero] at hLater
    exact ⟨hSame, hLater⟩
  · exact after_at_end (List.eq_nil_of_length_eq_zero (by omega))

theorem movesOn_after (s : String) (calls : Nat) : MovesOn s.toList ((ofText s).after calls) :=
  ((standsIn_ofText s).after calls).movesOn

/-- After no more calls than there are characters, a scanner finds the end of the input or fails. -/
theorem exists_last_call (s : Scanner) :
    ∃ last ≤ s.rest.length,
      (∀ calls < last, ∃ t, (s.after calls).next.1 = .ok t ∧ t.token ≠ .endOfInput) ∧
      ∀ t, (s.after last).next.1 = .ok t → t.token = .endOfInput := by
  induction hLength : s.rest.length using Nat.strong_induction_on generalizing s with
  | _ length ih =>
      cases hNext : s.next with
      | mk outcome s' =>
          cases outcome with
          | error e =>
              refine ⟨0, Nat.zero_le _, fun _ hk => absurd hk (Nat.not_lt_zero _), fun t ht => ?_⟩
              rw [after, hNext] at ht
              cases ht
          | ok t =>
              by_cases hEnd : t.token = .endOfInput
              · refine ⟨0, Nat.zero_le _, fun _ hk => absurd hk (Nat.not_lt_zero _), fun u hu => ?_⟩
                rw [after, hNext] at hu
                cases hu
                exact hEnd
              · have hShorter := (next_ok hNext).2 hEnd
                obtain ⟨last, hLast, hTokens, hStop⟩ := ih _ (hLength ▸ hShorter) s' rfl
                refine ⟨last + 1, by omega, fun calls hk => ?_, ?_⟩
                · cases calls with
                  | zero => exact ⟨t, by rw [after, hNext], hEnd⟩
                  | succ calls =>
                      rw [after, hNext]
                      exact hTokens calls (Nat.lt_of_succ_lt_succ hk)
                · rw [after, hNext]
                  exact hStop

/-- The number of calls that a text needs is below the bound on them, which therefore does not
matter. -/
theorem tokensWithin_of_lt {s : String} {fuel : Nat} (hFuel : s.toList.length < fuel) :
    (ofText s).tokensWithin fuel = tokens s := by
  rcases tiles_or_breaks false s.toList .start with ⟨ts, hTiles⟩ | ⟨e, hBreaks⟩
  · exact (hTiles.tokensWithin hFuel).trans (hTiles.tokensWithin (Nat.lt_succ_self _)).symm
  · exact (hBreaks.tokensWithin hFuel).trans (hBreaks.tokensWithin (Nat.lt_succ_self _)).symm

end Scanner

end GatedQuery
