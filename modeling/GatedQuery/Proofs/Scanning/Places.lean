import GatedQuery.Proofs.Scanning.Basic
import Mathlib.Data.List.Induction

/-! Where tokens stand in a text. Scanning goes through the text from left to right and leaves nothing
out but blanks, so the offset, the line and the column of a token are those of its first character. -/

namespace GatedQuery

namespace Position

/-- The place counts the characters of the text before it: all of them, the lines that end, and those
after the last line end. -/
structure Counts (text : List Char) (p : Position) : Prop where
  inside : p.offset ≤ text.length
  line : p.line = 1 + (text.take p.offset).count '\n'
  column : p.column = 1 + ((text.take p.offset).reverse.takeWhile (· != '\n')).length

theorem line_next (p : Position) (c : Char) :
    (p.next c).line = p.line + if c = '\n' then 1 else 0 := by
  unfold next
  split <;> rfl

/-- The line of a place is the number of line feeds before it, counted from one. -/
theorem line_past (p : Position) (cs : List Char) : (p.past cs).line = p.line + cs.count '\n' := by
  induction cs generalizing p with
  | nil => rfl
  | cons c cs ih =>
      rw [past_cons, ih, line_next, List.count_cons]
      simp only [beq_iff_eq]
      omega

/-- Columns are counted from the last line end. -/
theorem column_past (cs : List Char) :
    (start.past cs).column = 1 + (cs.reverse.takeWhile (· != '\n')).length := by
  induction cs using List.reverseRec with
  | nil => rfl
  | append_singleton cs c ih =>
      rw [past_append, past_cons, past_nil, next, List.reverse_concat]
      split
      next h => simp [h]
      next h =>
        have hChar : (c != '\n') = true := bne_iff_ne.mpr h
        simp only [List.takeWhile_cons, hChar, if_true, List.length_cons, ih, Nat.add_assoc]

/-- The place behind a part of a text is counted from its characters. -/
theorem counts_past {text front rest : List Char} (h : text = front ++ rest) :
    (start.past front).Counts text := by
  have hOffset : (start.past front).offset = front.length := by simp [offset_past, start]
  have hTake : text.take (start.past front).offset = front := by rw [hOffset, h, List.take_left]
  refine ⟨?_, ?_, ?_⟩
  · rw [hOffset, h, List.length_append]
    exact Nat.le_add_right ..
  · rw [hTake, line_past]
    rfl
  · rw [hTake, column_past]

end Position

namespace Token

/-- Whether a text begins with a token, and with which, does not depend on where it stands. A failure
is at the first character. -/
theorem scan_outcome (integerOnly : Bool) (cs : List Char) :
    (∃ t rest, ∀ p, scan integerOnly p cs = (.ok t, rest)) ∨
    (∃ (e : Position → ScanError) (rest : List Char), (∀ p, (e p).position = p) ∧
      ∀ p, scan integerOnly p cs = (.error (e p), rest)) := by
  cases cs with
  | nil => exact .inl ⟨.endOfInput, [], fun _ => rfl⟩
  | cons c cs =>
      cases hMark : Mark.ofChar? c with
      | some m => exact .inl ⟨.mark m, cs, fun p => by simp only [scan, hMark]⟩
      | none =>
          by_cases hQuote : (c = '"' || c = '\'') = true
          · cases hString : scanString c cs with
            | some r =>
                exact .inl ⟨.string (String.ofList r.1), r.2,
                  fun p => by simp only [scan, hMark, if_pos hQuote, hString]⟩
            | none =>
                exact .inr ⟨.unterminatedString, [], fun _ => rfl,
                  fun p => by simp only [scan, hMark, if_pos hQuote, hString]⟩
          · by_cases hName : startsName c = true
            · exact .inl ⟨.name (String.ofList ((c :: cs).takeWhile continuesName)),
                (c :: cs).dropWhile continuesName,
                fun p => by simp only [scan, hMark, if_neg hQuote, if_pos hName]⟩
            · by_cases hNumeral : startsNumeral (c :: cs) = true
              · let n := Numeral.span integerOnly (c :: cs)
                cases hToken : ofNumeral? integerOnly n.1 with
                | some t =>
                    exact .inl ⟨t, n.2, fun p => by
                      simp only [scan, hMark, if_neg hQuote, if_neg hName, if_pos hNumeral, n, hToken]⟩
                | none =>
                    exact .inr ⟨.invalidNumber n.1.text, n.2, fun _ => rfl, fun p => by
                      simp only [scan, hMark, if_neg hQuote, if_neg hName, if_pos hNumeral, n, hToken]⟩
              · exact .inr ⟨.unexpectedCharacter c, c :: cs, fun _ => rfl, fun p => by
                  simp only [scan, hMark, if_neg hQuote, if_neg hName, if_neg hNumeral]⟩

theorem ofNumeral_ne_endOfInput {integerOnly : Bool} {n : Numeral} :
    ofNumeral? integerOnly n ≠ some .endOfInput :=
  fun h => nomatch Numeral.denotes_of_ofNumeral? h

/-- Nothing but the end of a text is the end of the input. -/
theorem scan_endOfInput {integerOnly : Bool} {p : Position} {cs rest : List Char}
    (h : scan integerOnly p cs = (.ok .endOfInput, rest)) : cs = [] := by
  rcases scan_cases h with ⟨hNil, _⟩ | ⟨_, hMark, _⟩ | ⟨_, _, _, _, _, hString⟩ |
    ⟨_, _, _, _, hName, _⟩ | ⟨_, hNumeral, _⟩
  · exact hNil
  · cases hMark
  · cases hString
  · cases hName
  · exact absurd hNumeral ofNumeral_ne_endOfInput

end Token

/-- The characters `cs`, after a dot or not, are blanks, the characters of a token and what is left
after it. -/
structure Lexeme (afterDot : Bool) (cs blanks lexeme rest : List Char) (t : Token) : Prop where
  text : cs = blanks ++ (lexeme ++ rest)
  blank : ∀ c ∈ blanks, Text.isBlank c = true
  visible : ∃ c ds, lexeme = c :: ds ∧ Text.isBlank c = false
  scans : ∀ p, Token.scan afterDot p (lexeme ++ rest) = (.ok t, rest)

/-- The characters `cs`, after a dot or not, are blanks and text that cannot be read as a token. -/
structure Unreadable (afterDot : Bool) (cs blanks ds : List Char) (e : Position → ScanError) :
    Prop where
  text : cs = blanks ++ ds
  blank : ∀ c ∈ blanks, Text.isBlank c = true
  visible : ∃ c es, ds = c :: es ∧ Text.isBlank c = false
  place : ∀ p, (e p).position = p
  fails : ∀ p, ∃ rest, Token.scan afterDot p ds = (.error (e p), rest)

/-- A text is blanks and then a character that is not blank, or the end. -/
theorem exists_blanks (cs : List Char) :
    ∃ blanks ds, cs = blanks ++ ds ∧ (∀ c ∈ blanks, Text.isBlank c = true) ∧
      (ds = [] ∨ ∃ c es, ds = c :: es ∧ Text.isBlank c = false) := by
  refine ⟨cs.takeWhile Text.isBlank, cs.dropWhile Text.isBlank,
    List.takeWhile_append_dropWhile.symm, fun c hc => List.mem_takeWhile_imp hc, ?_⟩
  have hHead := List.head?_dropWhile_not Text.isBlank cs
  cases hDrop : cs.dropWhile Text.isBlank with
  | nil => exact .inl rfl
  | cons c es =>
      rw [hDrop] at hHead
      exact .inr ⟨c, es, rfl, by simpa using hHead⟩

/-- A text is blank, or it goes on with a token or with text that cannot be read as one. -/
theorem text_cases (afterDot : Bool) (cs : List Char) :
    (∀ c ∈ cs, Text.isBlank c = true) ∨
    (∃ blanks ds e, Unreadable afterDot cs blanks ds e) ∨
    (∃ blanks lexeme rest t, Lexeme afterDot cs blanks lexeme rest t) := by
  obtain ⟨blanks, ds, rfl, hBlank, rfl | ⟨c, es, rfl, hVisible⟩⟩ := exists_blanks cs
  · rw [List.append_nil]
    exact .inl hBlank
  · rcases Token.scan_outcome afterDot (c :: es) with ⟨t, rest, hScan⟩ |
      ⟨e, rest, hPlace, hScan⟩
    · have hEnd : t ≠ .endOfInput := by
        rintro rfl
        exact List.cons_ne_nil c es (Token.scan_endOfInput (hScan .start))
      obtain ⟨lexeme, hText⟩ := Token.scan_suffix (hScan .start)
      rw [← hText] at hScan ⊢
      refine .inr (.inr ⟨blanks, lexeme, rest, t, rfl, hBlank, ?_, hScan⟩)
      cases lexeme with
      | nil => exact absurd (Token.scan_length (hScan .start) hEnd) (Nat.lt_irrefl _)
      | cons d fs =>
          obtain ⟨rfl, _⟩ := List.cons.inj hText
          exact ⟨d, fs, rfl, hVisible⟩
    · exact .inr (.inl ⟨blanks, c :: es, e, rfl, hBlank, ⟨c, es, rfl, hVisible⟩,
        hPlace, fun p => ⟨rest, hScan p⟩⟩)

/-- Only the end of the text is read as the end of the input. -/
theorem Lexeme.ne_endOfInput {afterDot : Bool} {cs blanks lexeme rest : List Char} {t : Token}
    (h : Lexeme afterDot cs blanks lexeme rest t) : t ≠ .endOfInput := by
  rintro rfl
  obtain ⟨c, ds, rfl, _⟩ := h.visible
  exact List.cons_ne_nil c _ (Token.scan_endOfInput (h.scans .start))

namespace Scanner

/-- Leaving characters out moves the place past them. -/
theorem moveTo_append {front rest : List Char} {p : Position} {afterDot : Bool} :
    (⟨front ++ rest, p, afterDot⟩ : Scanner).moveTo rest = ⟨rest, p.past front, afterDot⟩ := by
  simp [moveTo]

theorem dropBlanks_append {blanks cs : List Char} (blank : ∀ c ∈ blanks, Text.isBlank c = true)
    (visible : ∃ c ds, cs = c :: ds ∧ Text.isBlank c = false) :
    Text.dropBlanks (blanks ++ cs) = cs := by
  obtain ⟨c, ds, rfl, hVisible⟩ := visible
  unfold Text.dropBlanks
  rw [List.dropWhile_append_of_pos blank]
  exact List.dropWhile_cons_of_neg (by simp [hVisible])

/-- Before the end of the text, blanks are left out and the end is given at its place. -/
theorem next_blank {cs : List Char} (blank : ∀ c ∈ cs, Text.isBlank c = true) (p : Position)
    (afterDot : Bool) :
    (⟨cs, p, afterDot⟩ : Scanner).next =
      (.ok ⟨.endOfInput, p.past cs⟩, ⟨[], p.past cs, false⟩) := by
  have hDrop : Text.dropBlanks cs = [] := List.dropWhile_eq_nil_iff.mpr blank
  simp [next, moveTo, hDrop, Token.scan, Token.isMark]

/-- The next token is the next lexeme, at the place behind the blanks. -/
theorem next_lexeme {afterDot : Bool} {cs blanks lexeme rest : List Char} {t : Token}
    (h : Lexeme afterDot cs blanks lexeme rest t) (p : Position) :
    (⟨cs, p, afterDot⟩ : Scanner).next =
      (.ok ⟨t, p.past blanks⟩, ⟨rest, p.past (blanks ++ lexeme), t.isMark .dot⟩) := by
  obtain ⟨rfl, hBlank, ⟨c, ds, hFirst, hVisible⟩, hScans⟩ := h
  have hRest : lexeme ++ rest = c :: (ds ++ rest) := by rw [hFirst, List.cons_append]
  unfold next
  dsimp only
  rw [dropBlanks_append hBlank ⟨c, ds ++ rest, hRest, hVisible⟩, moveTo_append]
  dsimp only
  rw [hScans]
  dsimp only
  rw [moveTo_append, Position.past_append]

/-- What cannot be read is reported at the place behind the blanks. -/
theorem next_unreadable {afterDot : Bool} {cs blanks ds : List Char} {e : Position → ScanError}
    (h : Unreadable afterDot cs blanks ds e) (p : Position) :
    (⟨cs, p, afterDot⟩ : Scanner).next.1 = .error (e (p.past blanks)) := by
  obtain ⟨rfl, hBlank, hVisible, _, hFails⟩ := h
  obtain ⟨rest, hFails⟩ := hFails (p.past blanks)
  unfold next
  dsimp only
  rw [dropBlanks_append hBlank hVisible, moveTo_append]
  dsimp only
  rw [hFails]

theorem tokensWithin_error {s : Scanner} {e : ScanError} {fuel : Nat} (h : s.next.1 = .error e) :
    tokensWithin (fuel + 1) s = .error e := by
  cases hNext : s.next with
  | mk outcome s' =>
      rw [hNext] at h
      obtain rfl : outcome = .error e := h
      rw [tokensWithin, hNext]

end Scanner

/-- How characters that begin at a place split into tokens, up to the end of the input or to text that
cannot be read as a token. -/
inductive Splits : Bool → List Char → Position → Except ScanError Tokens → Prop where
  | ended {afterDot : Bool} {cs : List Char} {p : Position} (blank : ∀ c ∈ cs, Text.isBlank c = true) :
      Splits afterDot cs p (.ok [⟨.endOfInput, p.past cs⟩])
  | stuck {afterDot : Bool} {cs blanks ds : List Char} {p : Position} {e : Position → ScanError}
      (unreadable : Unreadable afterDot cs blanks ds e) :
      Splits afterDot cs p (.error (e (p.past blanks)))
  | token {afterDot : Bool} {cs blanks lexeme rest : List Char} {p : Position} {t : Token}
      {r : Except ScanError Tokens} (first : Lexeme afterDot cs blanks lexeme rest t)
      (more : Splits (t.isMark .dot) rest (p.past (blanks ++ lexeme)) r) :
      Splits afterDot cs p (r.map (⟨t, p.past blanks⟩ :: ·))

/-- With fuel for the characters that are left, the loop splits the text as the relation says. The
induction is on the fuel. -/
theorem splits_tokensWithin {fuel : Nat} {cs : List Char} (hFuel : cs.length < fuel) (p : Position)
    (afterDot : Bool) : Splits afterDot cs p (Scanner.tokensWithin fuel ⟨cs, p, afterDot⟩) := by
  induction fuel generalizing cs p afterDot with
  | zero => exact absurd hFuel (Nat.not_lt_zero _)
  | succ fuel ih =>
      rcases text_cases afterDot cs with hBlank | ⟨blanks, ds, e, hUnreadable⟩ |
        ⟨blanks, lexeme, rest, t, hLexeme⟩
      · rw [Scanner.tokensWithin, Scanner.next_blank hBlank]
        exact .ended hBlank
      · rw [Scanner.tokensWithin_error (Scanner.next_unreadable hUnreadable p)]
        exact .stuck hUnreadable
      · rw [Scanner.tokensWithin_token (Scanner.next_lexeme hLexeme p) hLexeme.ne_endOfInput]
        refine .token hLexeme (ih ?_ _ _)
        obtain ⟨c, ds, hVisible, _⟩ := hLexeme.visible
        have hLength := congrArg List.length hLexeme.text
        rw [hVisible, List.length_append, List.length_append, List.length_cons] at hLength
        omega

/-- Splitting a text into tokens goes through it from its first character to its end, or to the first
text that cannot be read. -/
theorem splits_tokens (s : String) : Splits false s.toList .start (tokens s) :=
  splits_tokensWithin (Nat.lt_succ_self _) .start false

/-- Offsets at which a token of the characters begins, or text that cannot be read as one, or the end
of the input. -/
inductive Landmark : Bool → List Char → Nat → Prop where
  | endOfInput {afterDot : Bool} {cs : List Char} (blank : ∀ c ∈ cs, Text.isBlank c = true) :
      Landmark afterDot cs cs.length
  | unreadable {afterDot : Bool} {cs blanks ds : List Char} {e : Position → ScanError}
      (first : Unreadable afterDot cs blanks ds e) : Landmark afterDot cs blanks.length
  | token {afterDot : Bool} {cs blanks lexeme rest : List Char} {t : Token}
      (first : Lexeme afterDot cs blanks lexeme rest t) : Landmark afterDot cs blanks.length
  | later {afterDot : Bool} {cs blanks lexeme rest : List Char} {t : Token} {n : Nat}
      (first : Lexeme afterDot cs blanks lexeme rest t) (more : Landmark (t.isMark .dot) rest n) :
      Landmark afterDot cs ((blanks ++ lexeme).length + n)

/-- A place is true of a text if it counts the characters before it and something to read begins
there. -/
structure Position.TrueOf (text : List Char) (p : Position) : Prop where
  counts : p.Counts text
  landmark : Landmark false text p.offset

/-- A place is that of a landmark in characters that begin at `p`. -/
def Stands (afterDot : Bool) (cs : List Char) (p q : Position) : Prop :=
  ∃ front rest, cs = front ++ rest ∧ Landmark afterDot cs front.length ∧ q = p.past front

namespace Stands

/-- A place at which something stands in a text is a true place of the text. -/
theorem trueOf {text : List Char} {q : Position} (h : Stands false text .start q) :
    q.TrueOf text := by
  obtain ⟨front, rest, hText, hLandmark, rfl⟩ := h
  refine ⟨Position.counts_past hText, ?_⟩
  rwa [Position.offset_past, Position.start, Nat.zero_add]

/-- The end of the input stands behind the last blanks. -/
theorem endOfInput {afterDot : Bool} {cs : List Char} (blank : ∀ c ∈ cs, Text.isBlank c = true)
    (p : Position) : Stands afterDot cs p (p.past cs) :=
  ⟨cs, [], (List.append_nil cs).symm, .endOfInput blank, rfl⟩

theorem unreadable {afterDot : Bool} {cs blanks ds : List Char} {e : Position → ScanError}
    (h : Unreadable afterDot cs blanks ds e) (p : Position) :
    Stands afterDot cs p (p.past blanks) :=
  ⟨blanks, ds, h.text, .unreadable h, rfl⟩

theorem token {afterDot : Bool} {cs blanks lexeme rest : List Char} {t : Token}
    (h : Lexeme afterDot cs blanks lexeme rest t) (p : Position) :
    Stands afterDot cs p (p.past blanks) :=
  ⟨blanks, lexeme ++ rest, h.text, .token h, rfl⟩

/-- What stands in the rest of a text stands in the text. -/
theorem later {afterDot : Bool} {cs blanks lexeme rest : List Char} {t : Token} {p q : Position}
    (h : Lexeme afterDot cs blanks lexeme rest t)
    (more : Stands (t.isMark .dot) rest (p.past (blanks ++ lexeme)) q) : Stands afterDot cs p q := by
  obtain ⟨front, after, hRest, hLandmark, rfl⟩ := more
  refine ⟨blanks ++ lexeme ++ front, after, ?_, ?_, (Position.past_append ..).symm⟩
  · rw [h.text, hRest]
    simp
  · rw [List.length_append]
    exact .later h hLandmark

end Stands

namespace Splits

/-- Every token stands where its place says. -/
theorem stands_of_ok {afterDot : Bool} {cs : List Char} {p : Position} {ts : Tokens}
    (h : Splits afterDot cs p (.ok ts)) : ∀ t ∈ ts, Stands afterDot cs p t.position := by
  generalize hr : Except.ok ts = r at h
  induction h generalizing ts with
  | ended blank =>
      cases hr
      exact List.forall_mem_singleton.mpr (.endOfInput blank _)
  | stuck => cases hr
  | @token _ _ _ _ _ _ _ r first _ ih =>
      cases r with
      | error e => cases hr
      | ok us =>
          cases hr
          exact List.forall_mem_cons.mpr ⟨.token first _, fun t ht => .later first (ih rfl t ht)⟩

/-- The problem stands where its place says. -/
theorem stands_of_error {afterDot : Bool} {cs : List Char} {p : Position} {e : ScanError}
    (h : Splits afterDot cs p (.error e)) : Stands afterDot cs p e.position := by
  generalize hr : Except.error e = r at h
  induction h with
  | ended => cases hr
  | stuck unreadable =>
      cases hr
      rw [unreadable.place]
      exact .unreadable unreadable _
  | @token _ _ _ _ _ _ _ r first _ ih =>
      cases r with
      | ok us => cases hr
      | error e =>
          cases hr
          exact .later first (ih rfl)

/-- Every token takes at least one character, so the next one is further on. -/
theorem increasing {afterDot : Bool} {cs : List Char} {p : Position} {ts : Tokens}
    (h : Splits afterDot cs p (.ok ts)) :
    (∀ t ∈ ts, p.offset ≤ t.position.offset) ∧
      ts.Pairwise fun t u => t.position.offset < u.position.offset := by
  generalize hr : Except.ok ts = r at h
  induction h generalizing ts with
  | ended blank =>
      cases hr
      refine ⟨List.forall_mem_singleton.mpr ?_, List.pairwise_singleton _ _⟩
      rw [Position.offset_past]
      exact Nat.le_add_right ..
  | stuck => cases hr
  | @token _ _ blanks lexeme _ p _ r first _ ih =>
      cases r with
      | error e => cases hr
      | ok us =>
          cases hr
          obtain ⟨hAfter, hIncreasing⟩ := ih rfl
          obtain ⟨c, ds, rfl, _⟩ := first.visible
          simp only [Position.offset_past, List.length_append, List.length_cons] at hAfter
          refine ⟨List.forall_mem_cons.mpr ⟨?_, fun u hu => ?_⟩, List.pairwise_cons.mpr
            ⟨fun u hu => ?_, hIncreasing⟩⟩
          · rw [Position.offset_past]
            exact Nat.le_add_right ..
          · have := hAfter u hu
            omega
          · have := hAfter u hu
            rw [Position.offset_past]
            omega

end Splits

/-- The tokens of a text stand one after another. -/
theorem tokens_increasing {s : String} {ts : Tokens} (h : tokens s = .ok ts) :
    ts.Pairwise fun t u => t.position.offset < u.position.offset :=
  (h ▸ splits_tokens s : Splits false s.toList .start (.ok ts)).increasing.2

theorem trueOf_of_tokens {s : String} {ts : Tokens} (h : tokens s = .ok ts) {t : PlacedToken}
    (ht : t ∈ ts) : t.position.TrueOf s.toList :=
  ((h ▸ splits_tokens s : Splits false s.toList .start (.ok ts)).stands_of_ok t ht).trueOf

theorem trueOf_of_scanError {s : String} {e : ScanError} (h : tokens s = .error e) :
    e.position.TrueOf s.toList :=
  (h ▸ splits_tokens s : Splits false s.toList .start (.error e)).stands_of_error.trueOf

end GatedQuery
