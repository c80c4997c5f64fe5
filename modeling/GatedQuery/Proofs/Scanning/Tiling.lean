import GatedQuery.Proofs.Scanning.Lexemes

/-! The tokens of a text are those of the lexemes that it is made of. A text that is not made of
lexemes and blanks has a first place where no lexeme begins, and the failure is the one there. -/

namespace GatedQuery

/-- Characters, after a dot or not, that are blanks and lexemes one after the other. The first of them
stands at a place, which gives every token its own, and after the last lexeme comes the end of the
input. -/
inductive Tiles : Bool → List Char → Position → Tokens → Prop where
  | ended {afterDot : Bool} {cs : List Char} {p : Position} (blank : ∀ c ∈ cs, Text.isBlank c = true) :
      Tiles afterDot cs p [⟨.endOfInput, p.past cs⟩]
  | lexeme {afterDot : Bool} {blanks lexeme rest : List Char} {p : Position} {t : Token} {ts : Tokens}
      (blank : ∀ c ∈ blanks, Text.isBlank c = true) (first : Token.IsLexeme afterDot lexeme rest t)
      (more : Tiles (t.isMark .dot) rest (p.past (blanks ++ lexeme)) ts) :
      Tiles afterDot (blanks ++ (lexeme ++ rest)) p (⟨t, p.past blanks⟩ :: ts)

/-- Characters, after a dot or not, that are blanks and lexemes one after the other up to a text that
begins with no lexeme. The failure stands at the first character of this text. -/
inductive Breaks : Bool → List Char → Position → ScanError → Prop where
  | here {afterDot : Bool} {blanks cs : List Char} {p : Position} {e : Position → ScanError}
      (blank : ∀ c ∈ blanks, Text.isBlank c = true) (fault : Token.IsFault afterDot cs e) :
      Breaks afterDot (blanks ++ cs) p (e (p.past blanks))
  | later {afterDot : Bool} {blanks lexeme rest : List Char} {p : Position} {t : Token} {e : ScanError}
      (blank : ∀ c ∈ blanks, Text.isBlank c = true) (first : Token.IsLexeme afterDot lexeme rest t)
      (more : Breaks (t.isMark .dot) rest (p.past (blanks ++ lexeme)) e) :
      Breaks afterDot (blanks ++ (lexeme ++ rest)) p e

variable {afterDot : Bool} {blanks cs : List Char}

/-- A lexeme stays one behind blanks. -/
theorem Token.IsLexeme.after_blanks {lexeme rest : List Char} {t : Token}
    (h : Token.IsLexeme afterDot lexeme rest t) (blank : ∀ c ∈ blanks, Text.isBlank c = true) :
    Lexeme afterDot (blanks ++ (lexeme ++ rest)) blanks lexeme rest t :=
  ⟨rfl, blank, h.visible, h.scan⟩

theorem Token.IsFault.after_blanks {e : Position → ScanError} (h : Token.IsFault afterDot cs e)
    (blank : ∀ c ∈ blanks, Text.isBlank c = true) :
    Unreadable afterDot (blanks ++ cs) blanks cs e :=
  ⟨rfl, blank, h.visible, h.position, h.scan⟩

theorem Token.IsLexeme.length {lexeme rest : List Char} {t : Token}
    (h : Token.IsLexeme afterDot lexeme rest t) (blanks : List Char) :
    rest.length < (blanks ++ (lexeme ++ rest)).length := by
  obtain ⟨c, ds, rfl, _⟩ := h.visible
  simp only [List.length_append, List.length_cons]
  omega

/-- A tiling is what the loop computes, as every tile takes a character. The induction is on the
tiling. -/
theorem Tiles.tokensWithin {p : Position} {ts : Tokens} (h : Tiles afterDot cs p ts) {fuel : Nat}
    (hFuel : cs.length < fuel) : Scanner.tokensWithin fuel ⟨cs, p, afterDot⟩ = .ok ts := by
  induction h generalizing fuel with
  | ended blank =>
      obtain ⟨fuel, rfl⟩ := Nat.exists_eq_add_one_of_ne_zero (Nat.ne_zero_of_lt hFuel)
      rw [Scanner.tokensWithin, Scanner.next_blank blank]
  | lexeme blank first _ ih =>
      obtain ⟨fuel, rfl⟩ := Nat.exists_eq_add_one_of_ne_zero (Nat.ne_zero_of_lt hFuel)
      have hLexeme := first.after_blanks blank
      rw [Scanner.tokensWithin_token (Scanner.next_lexeme hLexeme _) hLexeme.ne_endOfInput,
        ih (Nat.lt_of_lt_of_le (first.length _) (Nat.le_of_lt_succ hFuel))]
      rfl

/-- A tiling that breaks is where the loop stops. -/
theorem Breaks.tokensWithin {p : Position} {e : ScanError} (h : Breaks afterDot cs p e) {fuel : Nat}
    (hFuel : cs.length < fuel) : Scanner.tokensWithin fuel ⟨cs, p, afterDot⟩ = .error e := by
  induction h generalizing fuel with
  | here blank fault =>
      obtain ⟨fuel, rfl⟩ := Nat.exists_eq_add_one_of_ne_zero (Nat.ne_zero_of_lt hFuel)
      exact Scanner.tokensWithin_error (Scanner.next_unreadable (fault.after_blanks blank) _)
  | later blank first _ ih =>
      obtain ⟨fuel, rfl⟩ := Nat.exists_eq_add_one_of_ne_zero (Nat.ne_zero_of_lt hFuel)
      have hLexeme := first.after_blanks blank
      rw [Scanner.tokensWithin_token (Scanner.next_lexeme hLexeme _) hLexeme.ne_endOfInput,
        ih (Nat.lt_of_lt_of_le (first.length _) (Nat.le_of_lt_succ hFuel))]
      rfl

/-- Every text is tiled, or tiled up to a lexeme that is broken. The induction is on its length. -/
theorem tiles_or_breaks (afterDot : Bool) (cs : List Char) (p : Position) :
    (∃ ts, Tiles afterDot cs p ts) ∨ ∃ e, Breaks afterDot cs p e := by
  induction hLength : cs.length using Nat.strong_induction_on generalizing afterDot cs p with
  | _ n ih =>
      obtain ⟨blanks, ds, rfl, hBlank, rfl | ⟨c, es, rfl, hVisible⟩⟩ := exists_blanks cs
      · rw [List.append_nil]
        exact .inl ⟨_, .ended hBlank⟩
      · rcases Token.lexeme_or_fault afterDot hVisible es with
          ⟨lexeme, rest, t, hText, first⟩ | ⟨e, fault⟩
        · rw [hText] at hLength ⊢
          have hShorter : rest.length < n := hLength ▸ first.length blanks
          rcases ih _ hShorter (t.isMark .dot) rest (p.past (blanks ++ lexeme)) rfl with
            ⟨ts, hTiles⟩ | ⟨e, hBreaks⟩
          · exact .inl ⟨_, .lexeme hBlank first hTiles⟩
          · exact .inr ⟨_, .later hBlank first hBreaks⟩
        · exact .inr ⟨_, .here hBlank fault⟩

end GatedQuery
