import GatedQuery.Proofs.Grammar.Basic
import GatedQuery.Token.Scan
import Mathlib.Data.List.TakeWhile

/-! Splitting a text into tokens. Which tokens a text has depends on its characters alone, and every
token but the end of the input takes at least one of them. -/

namespace GatedQuery

namespace Numeral

theorem spanDigits_suffix (cs : List Char) : (spanDigits cs).2 <:+ cs :=
  List.dropWhile_suffix _

/-- A sign is taken off the front, or nothing is. -/
theorem spanSign_suffix (cs : List Char) : (spanSign cs).2 <:+ cs := by
  unfold spanSign
  split
  · exact List.suffix_cons ..
  · exact List.suffix_cons ..
  · exact List.suffix_rfl

theorem spanFraction_suffix (cs : List Char) : (spanFraction cs).2 <:+ cs := by
  unfold spanFraction
  split
  · split
    · exact (spanDigits_suffix _).trans (List.suffix_cons ..)
    · exact List.suffix_rfl
  · exact List.suffix_rfl

theorem spanExponent_suffix (cs : List Char) : (spanExponent cs).2 <:+ cs := by
  cases cs with
  | nil => exact List.suffix_rfl
  | cons e cs =>
      have hDigits := (spanDigits_suffix (spanSign cs).2).trans (spanSign_suffix cs)
      unfold spanExponent
      dsimp only
      split
      · exact hDigits.trans (List.suffix_cons ..)
      · exact List.suffix_rfl

/-- After the sign of a numeral comes a digit. -/
theorem head?_spanSign {cs : List Char} (h : Token.startsNumeral cs = true) :
    (spanSign cs).2.head?.any Char.isDigit = true := by
  unfold spanSign
  split
  next cs => simpa [Token.startsNumeral] using h
  next cs => simpa [Token.startsNumeral] using h
  next hMinus hPlus =>
    cases cs with
    | nil => cases h
    | cons c cs =>
        have hNotMinus : c ≠ '-' := fun hc => hMinus cs (by rw [hc])
        have hNotPlus : c ≠ '+' := fun hc => hPlus cs (by rw [hc])
        simpa [Token.startsNumeral, hNotMinus, hNotPlus] using h

/-- The part of a numeral before its fraction. -/
theorem spanWhole_length {cs : List Char} (h : Token.startsNumeral cs = true) :
    (spanDigits (spanSign cs).2).2.length < cs.length := by
  have hDigit := head?_spanSign h
  refine Nat.lt_of_lt_of_le ?_ (spanSign_suffix cs).length_le
  cases hRest : (spanSign cs).2 with
  | nil =>
      rw [hRest] at hDigit
      cases hDigit
  | cons d ds =>
      rw [hRest] at hDigit
      have hDrop : (spanDigits (d :: ds)).2 = (spanDigits ds).2 := List.dropWhile_cons_of_pos hDigit
      rw [hDrop]
      exact Nat.lt_succ_of_le (spanDigits_suffix ds).length_le

/-- A numeral takes its digits at least, and leaves the end of the text. -/
theorem span_suffix (integerOnly : Bool) (cs : List Char) :
    (span integerOnly cs).2 <:+ (spanDigits (spanSign cs).2).2 := by
  unfold span
  cases integerOnly with
  | true => exact List.suffix_rfl
  | false => exact (spanExponent_suffix _).trans (spanFraction_suffix _)

/-- What starts like a numeral is one of at least one character. -/
theorem span_length {integerOnly : Bool} {cs : List Char} (h : Token.startsNumeral cs = true) :
    (span integerOnly cs).2.length < cs.length :=
  Nat.lt_of_le_of_lt (span_suffix integerOnly cs).length_le (spanWhole_length h)

/-- Digits are read as the 64-bit integer that they denote, if it is one. -/
theorem toInt64?_eq_some_iff {n : Numeral} {i : Int64} :
    n.toInt64? = some i ↔ i.toInt = signed n.sign n.whole := by
  have hMin : Int64.minValue.toInt = -2 ^ 63 := rfl
  have hMax : Int64.maxValue.toInt = 2 ^ 63 - 1 := rfl
  simp only [toInt64?, Bool.and_eq_true, decide_eq_true_eq, Option.ite_none_right_eq_some,
    Option.some.injEq]
  constructor
  · rintro ⟨⟨hLow, hHigh⟩, rfl⟩
    exact Int64.toInt_ofInt_of_le (by omega) (by omega)
  · intro hValue
    rw [← hValue]
    exact ⟨⟨Int64.minValue_le_toInt i, Int64.toInt_le i⟩, Int64.ofInt_toInt i⟩

/-- The token that a numeral stands for: the integer that it denotes, if it has neither fraction nor
exponent and the integer has 64 bits, or else a float, which has to be finite. With `integerOnly` a
float needs a fraction or an exponent. -/
inductive Denotes (integerOnly : Bool) (n : Numeral) : Token → Prop where
  | integer {i : Int64} (plain : n.isFractional = false) (value : i.toInt = signed n.sign n.whole) :
      Denotes integerOnly n (.integer i)
  | float (inexact : n.isFractional = true ∨
        integerOnly = false ∧ ∀ i : Int64, i.toInt ≠ signed n.sign n.whole)
      (finite : n.toFloat.isFinite = true) : Denotes integerOnly n (.float n.toFloat)

/-- A numeral gives the token that it denotes. -/
theorem ofNumeral?_of_denotes {integerOnly : Bool} {n : Numeral} {t : Token}
    (h : n.Denotes integerOnly t) : Token.ofNumeral? integerOnly n = some t := by
  cases h with
  | integer plain value =>
      simp only [Token.ofNumeral?, plain, toInt64?_eq_some_iff.mpr value, Bool.false_eq_true,
        if_false]
  | float inexact finite =>
      rcases inexact with hFractional | ⟨rfl, hNone⟩
      · simp only [Token.ofNumeral?, hFractional, finite, if_true]
      · have hLarge : n.toInt64? = none :=
          Option.eq_none_iff_forall_ne_some.mpr fun i hi => hNone i (toInt64?_eq_some_iff.mp hi)
        simp only [Token.ofNumeral?, hLarge, finite, Bool.false_eq_true, if_false, if_true, ite_self]

/-- What a numeral gives is what it denotes: an integer that fits, or a finite float. -/
theorem denotes_of_ofNumeral? {integerOnly : Bool} {n : Numeral} {t : Token}
    (h : Token.ofNumeral? integerOnly n = some t) : n.Denotes integerOnly t := by
  have hFloat (inexact : n.isFractional = true ∨
      integerOnly = false ∧ ∀ i : Int64, i.toInt ≠ signed n.sign n.whole)
      (hSome : (if n.toFloat.isFinite then some (Token.float n.toFloat) else none) = some t) :
      n.Denotes integerOnly t := by
    obtain ⟨hFinite, hToken⟩ := Option.ite_none_right_eq_some.mp hSome
    cases hToken
    exact .float inexact hFinite
  unfold Token.ofNumeral? at h
  dsimp only at h
  split at h
  next hFractional => exact hFloat (.inl hFractional) h
  next hPlain =>
    rw [Bool.not_eq_true] at hPlain
    split at h
    next i hInteger =>
      cases h
      exact .integer hPlain (toInt64?_eq_some_iff.mp hInteger)
    next hLarge =>
      obtain ⟨hNotOnly, hSome⟩ := Option.ite_none_left_eq_some.mp h
      refine hFloat (.inr ⟨Bool.not_eq_true _ ▸ hNotOnly, fun i hi => ?_⟩) hSome
      exact Option.eq_none_iff_forall_ne_some.mp hLarge i (toInt64?_eq_some_iff.mpr hi)

end Numeral

namespace Token

theorem scanString_quote (quote : Char) (cs : List Char) :
    scanString quote (quote :: cs) = some ([], cs) := by
  rw [scanString.eq_def]
  exact if_pos rfl

/-- A backslash takes the character behind it along. -/
theorem scanString_escape {quote : Char} (h : quote ≠ '\\') (c : Char) (cs : List Char) :
    scanString quote ('\\' :: c :: cs) =
      (scanString quote cs).map fun r => (escaped c :: r.1, r.2) := by
  rw [scanString.eq_def]
  exact (if_neg h.symm).trans (if_pos rfl)

theorem scanString_plain {quote c : Char} (hQuote : c ≠ quote) (hEscape : c ≠ '\\')
    (cs : List Char) :
    scanString quote (c :: cs) = (scanString quote cs).map fun r => (c :: r.1, r.2) := by
  rw [scanString.eq_def]
  exact (if_neg hQuote).trans (if_neg hEscape)

/-- What stands between the quotes of a string, and the characters of the string. No quote and no
backslash stands for itself there, unless after a backslash. -/
inductive IsBody (quote : Char) : List Char → List Char → Prop where
  | nil : IsBody quote [] []
  | plain {c : Char} {cs s : List Char} (unquoted : c ≠ quote) (unescaped : c ≠ '\\')
      (more : IsBody quote cs s) : IsBody quote (c :: cs) (c :: s)
  | escape {c : Char} {cs s : List Char} (more : IsBody quote cs s) :
      IsBody quote ('\\' :: c :: cs) (escaped c :: s)

/-- A body and its closing quote are read as the string that the body spells. -/
theorem scanString_of_body {quote : Char} (hQuote : quote ≠ '\\') {body s : List Char}
    (h : IsBody quote body s) (rest : List Char) :
    scanString quote (body ++ quote :: rest) = some (s, rest) := by
  induction h with
  | nil => exact scanString_quote quote rest
  | plain unquoted unescaped _ ih =>
      rw [List.cons_append, scanString_plain unquoted unescaped, ih, Option.map_some]
  | escape _ ih =>
      rw [List.cons_append, List.cons_append, scanString_escape hQuote, ih, Option.map_some]

/-- A string that is read has a body in front of its closing quote. The induction follows the
reader. -/
theorem body_of_scanString {quote : Char} {cs s rest : List Char}
    (h : scanString quote cs = some (s, rest)) :
    ∃ body, cs = body ++ quote :: rest ∧ IsBody quote body s := by
  induction cs using scanString.induct quote generalizing s with
  | case1 => cases h
  | case2 cs =>
      rw [scanString_quote] at h
      cases h
      exact ⟨[], rfl, .nil⟩
  | case3 hQuote =>
      rw [scanString.eq_def] at h
      simp [hQuote] at h
  | case4 d ds hQuote ih =>
      rw [scanString_escape fun h => hQuote h.symm] at h
      obtain ⟨⟨s, rest⟩, hInner, hResult⟩ := Option.map_eq_some_iff.mp h
      cases hResult
      obtain ⟨body, rfl, hBody⟩ := ih hInner
      exact ⟨'\\' :: d :: body, rfl, .escape hBody⟩
  | case5 d ds hQuote hEscape ih =>
      rw [scanString_plain hQuote hEscape] at h
      obtain ⟨⟨s, rest⟩, hInner, hResult⟩ := Option.map_eq_some_iff.mp h
      cases hResult
      obtain ⟨body, rfl, hBody⟩ := ih hInner
      exact ⟨d :: body, rfl, .plain hQuote hEscape hBody⟩

/-- A string ends with its quote, so something is taken. -/
theorem scanString_suffix {quote : Char} {cs s rest : List Char}
    (h : scanString quote cs = some (s, rest)) : ∃ c ds, cs = c :: ds ∧ rest <:+ ds := by
  obtain ⟨body, rfl, _⟩ := body_of_scanString h
  cases body with
  | nil => exact ⟨quote, rest, rfl, List.suffix_rfl⟩
  | cons c body =>
      exact ⟨c, body ++ quote :: rest, rfl, (List.suffix_cons ..).trans (List.suffix_append ..)⟩

theorem scanString_length {quote : Char} {cs s rest : List Char}
    (h : scanString quote cs = some (s, rest)) : rest.length < cs.length := by
  obtain ⟨c, ds, rfl, hRest⟩ := scanString_suffix h
  exact Nat.lt_succ_of_le hRest.length_le

/-- How a text splits at its head, told apart by its first character. -/
theorem scan_cases {integerOnly : Bool} {p : Position} {cs rest : List Char} {t : Token}
    (h : scan integerOnly p cs = (.ok t, rest)) :
    (cs = [] ∧ t = .endOfInput ∧ rest = []) ∨
    (∃ m, t = .mark m ∧ cs = m.char :: rest) ∨
    (∃ quote ds s, cs = quote :: ds ∧ scanString quote ds = some (s, rest) ∧
      t = .string (String.ofList s)) ∨
    (∃ c ds, cs = c :: ds ∧ startsName c = true ∧
      t = .name (String.ofList (cs.takeWhile continuesName)) ∧ rest = cs.dropWhile continuesName) ∨
    (startsNumeral cs = true ∧ ofNumeral? integerOnly (Numeral.span integerOnly cs).1 = some t ∧
      rest = (Numeral.span integerOnly cs).2) := by
  cases cs with
  | nil =>
      cases h
      exact .inl ⟨rfl, rfl, rfl⟩
  | cons c cs =>
      simp only [scan] at h
      split at h
      next m hMark =>
        cases h
        refine .inr (.inl ⟨m, rfl, ?_⟩)
        have hChar := List.find?_some hMark
        rw [eq_of_beq hChar]
      next =>
        split at h
        next =>
          split at h
          next s rest hString =>
            cases h
            exact .inr (.inr (.inl ⟨c, cs, s, rfl, hString, rfl⟩))
          next => cases h
        next =>
          split at h
          next hName =>
            cases h
            exact .inr (.inr (.inr (.inl ⟨c, cs, rfl, hName, rfl, rfl⟩)))
          next =>
            split at h
            next hNumeral =>
              split at h
              next t hToken =>
                cases h
                exact .inr (.inr (.inr (.inr ⟨hNumeral, hToken, rfl⟩)))
              next => cases h
            next => cases h

/-- What can start a name can also continue one. -/
theorem continuesName_of_startsName {c : Char} (h : startsName c = true) :
    continuesName c = true := by
  simp only [startsName, Bool.or_eq_true] at h
  rcases h with hAlpha | hUnderscore
  · simp [continuesName, Char.isAlphanum, hAlpha]
  · simp [continuesName, hUnderscore]

/-- Every token but the end of the input takes a character. -/
theorem scan_length {integerOnly : Bool} {p : Position} {cs rest : List Char} {t : Token}
    (h : scan integerOnly p cs = (.ok t, rest)) (some : t ≠ .endOfInput) :
    rest.length < cs.length := by
  rcases scan_cases h with ⟨_, rfl, _⟩ | ⟨m, _, rfl⟩ | ⟨quote, ds, s, rfl, hString, _⟩ |
    ⟨c, ds, rfl, hName, _, rfl⟩ | ⟨hNumeral, _, rfl⟩
  · exact absurd rfl some
  · exact Nat.lt_succ_self _
  · exact Nat.lt_succ_of_lt (scanString_length hString)
  · rw [List.dropWhile_cons_of_pos (continuesName_of_startsName hName)]
    exact Nat.lt_succ_of_le (List.dropWhile_suffix _).length_le
  · exact Numeral.span_length hNumeral

/-- What is left of a text is its end. -/
theorem scan_suffix {integerOnly : Bool} {p : Position} {cs rest : List Char} {t : Token}
    (h : scan integerOnly p cs = (.ok t, rest)) : rest <:+ cs := by
  rcases scan_cases h with ⟨rfl, _, rfl⟩ | ⟨m, _, rfl⟩ | ⟨quote, ds, s, rfl, hString, _⟩ |
    ⟨_, _, _, _, _, rfl⟩ | ⟨_, _, rfl⟩
  · exact List.suffix_rfl
  · exact List.suffix_cons ..
  · obtain ⟨c, es, rfl, hRest⟩ := scanString_suffix hString
    exact (hRest.trans (List.suffix_cons ..)).trans (List.suffix_cons ..)
  · exact List.dropWhile_suffix _
  · exact ((Numeral.span_suffix _ _).trans (Numeral.spanDigits_suffix _)).trans
      (Numeral.spanSign_suffix _)

/-- Names of the language: a letter or an underscore, and then also digits. -/
def IsIdentifier (s : String) : Prop :=
  ∃ c cs, s.toList = c :: cs ∧ startsName c = true ∧ ∀ d ∈ cs, continuesName d = true

theorem isIdentifier_of_toList {s : String} {c : Char} {cs : List Char} (h : s.toList = c :: cs)
    (first : startsName c = true) (more : cs.all continuesName = true) : IsIdentifier s :=
  ⟨c, cs, h, first, List.all_eq_true.mp more⟩

/-- What a scanner can know about a token: its name is one of the language, and its float is
finite. -/
def Scannable : Token → Prop
  | name n => IsIdentifier n
  | float x => x.isFinite = true
  | _ => True

/-- What is taken as a name is an identifier. -/
theorem isIdentifier_takeWhile {c : Char} (h : startsName c = true) (cs : List Char) :
    IsIdentifier (String.ofList ((c :: cs).takeWhile continuesName)) := by
  refine ⟨c, cs.takeWhile continuesName, ?_, h, fun d hd => List.mem_takeWhile_imp hd⟩
  rw [String.toList_ofList, List.takeWhile_cons_of_pos (continuesName_of_startsName h)]

theorem scannable_ofNumeral {integerOnly : Bool} {n : Numeral} {t : Token}
    (h : ofNumeral? integerOnly n = some t) : t.Scannable := by
  cases Numeral.denotes_of_ofNumeral? h with
  | integer => trivial
  | float _ finite => exact finite

/-- Names that are scanned are identifiers, and floats are finite. -/
theorem scannable_of_scan {integerOnly : Bool} {p : Position} {cs rest : List Char} {t : Token}
    (h : scan integerOnly p cs = (.ok t, rest)) : t.Scannable := by
  rcases scan_cases h with ⟨_, rfl, _⟩ | ⟨m, rfl, _⟩ | ⟨quote, ds, s, _, _, rfl⟩ |
    ⟨c, ds, rfl, hName, rfl, _⟩ | ⟨_, hToken, _⟩
  · trivial
  · trivial
  · trivial
  · exact isIdentifier_takeWhile hName ds
  · exact scannable_ofNumeral hToken

end Token

namespace Scanner

/-- A token that is not the end of the input is followed by the tokens of what is left. -/
theorem tokensWithin_token {s s' : Scanner} {t : Token} {p : Position} {fuel : Nat}
    (h : s.next = (.ok ⟨t, p⟩, s')) (some : t ≠ .endOfInput) :
    tokensWithin (fuel + 1) s = (tokensWithin fuel s').map (⟨t, p⟩ :: ·) := by
  rw [tokensWithin, h]
  cases t with
  | endOfInput => exact absurd rfl some
  | _ => rfl

theorem next_ok {s s' : Scanner} {t : PlacedToken} (h : s.next = (.ok t, s')) :
    t.token.Scannable ∧ (t.token ≠ .endOfInput → s'.rest.length < s.rest.length) := by
  unfold next at h
  dsimp only at h
  split at h
  next k hScan =>
    cases h
    have hFirst : Token.scan s.afterDot (s.moveTo (Text.dropBlanks s.rest)).position
        (Text.dropBlanks s.rest) = (.ok k, _) := Prod.ext hScan rfl
    refine ⟨Token.scannable_of_scan hFirst, fun some => ?_⟩
    have hLength := Token.scan_length hFirst some
    have hBlank : (Text.dropBlanks s.rest).length ≤ s.rest.length :=
      (List.dropWhile_suffix _).length_le
    exact Nat.lt_of_lt_of_le hLength hBlank
  next => cases h

/-- The tokens of a text end with the end of the input. -/
theorem tokensWithin_ok {fuel : Nat} {s : Scanner} {ts : List PlacedToken}
    (hFuel : s.rest.length < fuel) (h : s.tokensWithin fuel = .ok ts) :
    (∀ t ∈ ts, t.token.Scannable) ∧ Ended ts := by
  induction fuel generalizing s ts with
  | zero => exact absurd hFuel (Nat.not_lt_zero _)
  | succ fuel ih =>
      cases hNext : s.next with
      | mk outcome s' =>
          cases outcome with
          | error e =>
              rw [tokensWithin, hNext] at h
              cases h
          | ok t =>
              obtain ⟨hScannable, hLength⟩ := next_ok hNext
              by_cases hEnd : t.token = .endOfInput
              · obtain ⟨_, p⟩ := t
                cases hEnd
                rw [tokensWithin, hNext] at h
                cases h
                exact ⟨List.forall_mem_singleton.mpr hScannable, [], p, rfl,
                  fun t ht => absurd ht List.not_mem_nil⟩
              · rw [tokensWithin_token hNext hEnd] at h
                cases hMore : s'.tokensWithin fuel with
                | error e =>
                    rw [hMore] at h
                    cases h
                | ok ts' =>
                    rw [hMore] at h
                    cases h
                    have hShorter := hLength hEnd
                    obtain ⟨hAll, before, p, rfl, hBefore⟩ := ih (by omega) hMore
                    exact ⟨List.forall_mem_cons.mpr ⟨hScannable, hAll⟩, t :: before, p, rfl,
                      List.forall_mem_cons.mpr ⟨hEnd, hBefore⟩⟩

end Scanner

/-- The tokens of a text can all be scanned, and they end with the end of the input. -/
theorem tokens_ok {s : String} {ts : List PlacedToken} (h : tokens s = .ok ts) :
    (∀ t ∈ ts, t.token.Scannable) ∧ Ended ts :=
  Scanner.tokensWithin_ok (Nat.lt_succ_self _) h

/-- Characters that split into tokens, after a dot or not. -/
inductive Scans : Bool → List Char → List Token → Prop where
  | done {afterDot : Bool} {cs : List Char} (blank : Text.dropBlanks cs = []) :
      Scans afterDot cs [.endOfInput]
  | token {afterDot : Bool} {cs rest : List Char} {t : Token} {ts : List Token}
      (first : ∀ p, Token.scan afterDot p (Text.dropBlanks cs) = (.ok t, rest))
      (some : t ≠ .endOfInput) (more : Scans (t.isMark .dot) rest ts) : Scans afterDot cs (t :: ts)

/-- A text has no more tokens than characters, the end of the input aside. -/
theorem Scans.length {afterDot : Bool} {cs : List Char} {ts : List Token}
    (h : Scans afterDot cs ts) : ts.length ≤ cs.length + 1 := by
  induction h with
  | done => simp
  | @token _ cs _ _ _ first some _ ih =>
      have hFirst := Token.scan_length (first .start) some
      have hBlank : (Text.dropBlanks cs).length ≤ cs.length := (List.dropWhile_suffix _).length_le
      simp only [List.length_cons]
      omega

/-- With enough fuel the loop gives these tokens, at some places. -/
theorem Scans.tokensWithin {afterDot : Bool} {cs : List Char} {ts : List Token}
    (h : Scans afterDot cs ts) (p : Position) {fuel : Nat} (hFuel : ts.length ≤ fuel) :
    ∃ placed, Scanner.tokensWithin fuel ⟨cs, p, afterDot⟩ = .ok placed ∧
      placed.map PlacedToken.token = ts := by
  induction h generalizing p fuel with
  | @done afterDot cs blank =>
      obtain ⟨fuel, rfl⟩ : ∃ n, fuel = n + 1 := ⟨fuel - 1, by simp at hFuel; omega⟩
      have hNext : Scanner.tokensWithin (fuel + 1) ⟨cs, p, afterDot⟩ =
          .ok [⟨.endOfInput, p.past (cs.take (cs.length - (Text.dropBlanks cs).length))⟩] := by
        simp only [Scanner.tokensWithin, Scanner.next, Scanner.moveTo, blank, Token.scan]
      exact ⟨_, hNext, rfl⟩
  | @token afterDot cs rest t ts first some _ ih =>
      obtain ⟨fuel, rfl⟩ : ∃ n, fuel = n + 1 := ⟨fuel - 1, by simp at hFuel; omega⟩
      let q := p.past (cs.take (cs.length - (Text.dropBlanks cs).length))
      let moved : Scanner := ⟨Text.dropBlanks cs, q, afterDot⟩
      have hNext : Scanner.next ⟨cs, p, afterDot⟩ =
          (.ok ⟨t, q⟩, { moved.moveTo rest with afterDot := t.isMark .dot }) := by
        unfold Scanner.next
        simp only [Scanner.moveTo, first]
        rfl
      obtain ⟨placed, hMore, hTokens⟩ :=
        ih (moved.moveTo rest).position (Nat.le_of_succ_le_succ hFuel)
      refine ⟨⟨t, q⟩ :: placed, ?_, by rw [List.map_cons, hTokens]⟩
      rw [Scanner.tokensWithin_token hNext some]
      exact congrArg (Except.map _) hMore

/-- Tokens of a text, whatever their places are. -/
theorem tokens_of_scans {s : String} {ts : List Token} (h : Scans false s.toList ts) :
    ∃ placed, tokens s = .ok placed ∧ placed.map PlacedToken.token = ts :=
  h.tokensWithin .start h.length

end GatedQuery
