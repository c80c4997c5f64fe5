import GatedQuery.Proofs.Canonical.Tokens
import GatedQuery.Proofs.Query.Nodes
import GatedQuery.Proofs.Scanning.Numerals
import GatedQuery.Proofs.Scanning.Spelling

/-! The text that is written for a query splits into the tokens of the query, if the texts of its
chains do. The text of a float is not looked into: it is enough that it has a fraction or an exponent
and reads back as the float. -/

namespace GatedQuery

variable {afterDot : Bool} {next : List Char → Prop}

/-- The characters of a literal between its quotes stand for those of the text. -/
theorem Token.isBody_literalChar (s : List Char) :
    IsBody '\'' (s.flatMap Text.literalChar) s := by
  induction s with
  | nil => exact .nil
  | cons c s ih =>
      have hEscaped (d : Char) (hd : escaped d = c) (hText : Text.literalChar c = ['\\', d]) :
          IsBody '\'' ((c :: s).flatMap Text.literalChar) (c :: s) := by
        rw [List.flatMap_cons, hText, ← hd]
        exact .escape ih
      by_cases hQuote : c = '\''
      · exact hEscaped '\'' (by rw [hQuote]; rfl) (by rw [hQuote]; rfl)
      by_cases hEscape : c = '\\'
      · exact hEscaped '\\' (by rw [hEscape]; rfl) (by rw [hEscape]; rfl)
      by_cases hLine : c = '\n'
      · exact hEscaped 'n' (by rw [hLine]; rfl) (by rw [hLine]; rfl)
      by_cases hTab : c = '\t'
      · exact hEscaped 't' (by rw [hTab]; rfl) (by rw [hTab]; rfl)
      by_cases hReturn : c = '\r'
      · exact hEscaped 'r' (by rw [hReturn]; rfl) (by rw [hReturn]; rfl)
      have hText : Text.literalChar c = [c] := by
        simp only [Text.literalChar, hQuote, hEscape, hLine, hTab, hReturn, if_false]
      rw [List.flatMap_cons, hText]
      exact .plain hQuote hEscape ih

/-- A string is scanned as itself, whatever follows its closing quote. -/
theorem spells_string (s : String) :
    Spells afterDot next (Text.literal s).toList [.string s] := by
  have hInner (rest : List Char) : Token.scanString '\''
      ((s.toList.flatMap Text.literalChar ++ ['\'']) ++ rest) = some (s.toList, rest) := by
    rw [List.append_assoc, List.singleton_append]
    exact Token.scanString_of_body (by decide) (Token.isBody_literalChar s.toList) rest
  have hSpells : Spells afterDot next ('\'' :: _) [.string (String.ofList s.toList)] :=
    .string (.inr rfl) hInner
  rw [Text.literal, String.toList_ofList]
  rwa [String.ofList_toList] at hSpells

/-- A text before which an integer ends. After a dot neither a fraction nor an exponent is read. -/
structure EndsInteger (afterDot : Bool) (rest : List Char) : Prop where
  digit : ∀ c ∈ rest.head?, c.isDigit = false
  fraction : afterDot = false → Numeral.spanFraction rest = (none, rest)
  exponent : afterDot = false → Numeral.spanExponent rest = (none, rest)

theorem endsInteger_cons {c : Char} (digit : c.isDigit = false) (point : c ≠ '.')
    (letter : c ≠ 'e' ∧ c ≠ 'E') (more : List Char) : EndsInteger afterDot (c :: more) := by
  refine ⟨?_, fun _ => ?_, fun _ => ?_⟩
  · rintro d ⟨⟩
    exact digit
  · unfold Numeral.spanFraction
    split
    next h => exact absurd (List.cons.inj h).1 point
    next => rfl
  · simp [Numeral.spanExponent, letter]

/-- What ends a number of any kind ends an integer. -/
theorem EndsNumber.endsInteger {rest : List Char} (h : EndsNumber rest) :
    EndsInteger afterDot rest := by
  obtain ⟨m, more, hDot, rfl⟩ := h
  cases m <;> first
    | exact absurd rfl hDot
    | exact endsInteger_cons (by decide) (by decide) (by decide) more

/-- The scanner takes the digits of an integer and no more. -/
theorem Numeral.span_integer {sign : Option Char} {ss ds rest : List Char} (signed : IsSign sign ss)
    (digits : IsDigits ds) (ends : EndsInteger afterDot rest) :
    span afterDot (ss ++ (ds ++ rest)) = (⟨sign, ds, none, none⟩, rest) := by
  have hSign := spanSign_of_spelled signed (digits.head rest)
  have hNone : rest.takeWhile Char.isDigit = [] ∧ rest.dropWhile Char.isDigit = rest := by
    cases rest with
    | nil => exact ⟨rfl, rfl⟩
    | cons c more =>
        have hDigit : ¬ c.isDigit = true := by simp [ends.digit c rfl]
        exact ⟨List.takeWhile_cons_of_neg hDigit, List.dropWhile_cons_of_neg hDigit⟩
  have hDigits : spanDigits (ds ++ rest) = (ds, rest) := by
    refine Prod.ext ?_ ?_
    · exact (List.takeWhile_append_of_pos digits.digits).trans (by rw [hNone.1, List.append_nil])
    · exact (List.dropWhile_append_of_pos digits.digits).trans hNone.2
  cases afterDot with
  | true => simp only [span, hSign, hDigits, if_true]
  | false =>
      simp only [span, hSign, hDigits, ends.fraction, ends.exponent, Bool.false_eq_true, if_false]

/-- A numeral without fraction and exponent is an integer, if it fits. -/
theorem Token.ofNumeral?_whole {sign : Option Char} {ds : List Char} {n : Int64}
    (h : Numeral.signed sign ds = n.toInt) :
    ofNumeral? afterDot ⟨sign, ds, none, none⟩ = some (.integer n) :=
  Numeral.ofNumeral?_of_denotes (.integer rfl h.symm)

/-- A sign and digits are scanned as the integer that they denote. -/
theorem spells_digits {sign : Option Char} {ss ds : List Char} {n : Int64}
    (signed : Numeral.IsSign sign ss) (digits : Numeral.IsDigits ds)
    (value : Numeral.signed sign ds = n.toInt) :
    Spells afterDot (EndsInteger afterDot) (ss ++ ds) [.integer n] := by
  intro rest us hRest hMore
  have hSpelled : Numeral.SpelledBy true ⟨sign, ds, none, none⟩ (ss ++ (ds ++ ([] ++ []))) :=
    .mk signed digits .none .none fun _ => ⟨rfl, rfl⟩
  have hStarts := Numeral.startsNumeral_of_spelled hSpelled rest
  rw [List.append_nil, List.append_nil, List.append_assoc] at hStarts
  have hScan := Token.scan_numeral hStarts (Numeral.span_integer signed digits hRest)
    (Token.ofNumeral?_whole value)
  obtain ⟨c, more, hText, hBlank⟩ := Token.isBlank_of_startsNumeral hStarts
  rw [List.append_assoc]
  rw [hText] at hScan ⊢
  exact .head hBlank hScan Token.noConfusion hMore

def Numeral.signOf (n : Int64) : Option Char :=
  if n.toInt < 0 then some '-' else none

/-- An integer is written as its sign and its digits. -/
theorem Numeral.exists_decimal (n : Int64) :
    ∃ ss, (Text.decimal n).toList = ss ++ Nat.toDigits 10 n.toInt.natAbs ∧ IsSign (signOf n) ss ∧
      signed (signOf n) (Nat.toDigits 10 n.toInt.natAbs) = n.toInt := by
  unfold Text.decimal signOf
  cases hn : n.toInt with
  | ofNat m =>
      have hPlus : ¬ Int.ofNat m < 0 := Int.not_lt.mpr (Int.natCast_nonneg m)
      rw [if_neg hPlus]
      refine ⟨[], Nat.toList_repr, .none, ?_⟩
      rw [signed, if_neg (by decide), Nat.ofDigitChars_ten_toDigits]
      rfl
  | negSucc m =>
      rw [if_pos (Int.negSucc_lt_zero m)]
      refine ⟨['-'], ?_, .minus, ?_⟩
      · rw [Int.natAbs_negSucc, ← Nat.toList_repr]
        exact String.toList_append
      · rw [signed, if_pos rfl, Nat.ofDigitChars_ten_toDigits]
        rfl

/-- The decimal text of an integer is scanned as the integer. -/
theorem spells_decimal (n : Int64) :
    Spells afterDot (EndsInteger afterDot) (Text.decimal n).toList [.integer n] := by
  obtain ⟨ss, hText, hSign, hValue⟩ := Numeral.exists_decimal n
  rw [hText]
  exact spells_digits hSign (Numeral.isDigits_toDigits _) hValue

/-- The text of a finite float is scanned as the float that it is read back as. -/
theorem spells_float {x : Float} (h : (Literal.float x).WellFormed)
    (hText : (Literal.float x).ReadsBack) :
    Spells false EndsNumber (queryFloat.write x).toList [.float x] := by
  obtain ⟨n, hNumeral, hFraction, rfl⟩ := hText
  have hSpan : Numeral.span false (queryFloat.write n.toFloat).toList = (n, []) ∧ n.whole ≠ [] := by
    unfold Numeral.ofText? at hNumeral
    split at hNumeral
    next m hm =>
      split at hNumeral
      · cases hNumeral
      next hWhole =>
        cases hNumeral
        exact ⟨hm, by simpa using hWhole⟩
    next => cases hNumeral
  have hFinite : n.toFloat.isFinite = true := h
  have hToken : Token.ofNumeral? false n = some (.float n.toFloat) :=
    Numeral.ofNumeral?_of_denotes (.float (.inl hFraction) hFinite)
  exact .numeral hSpan.1 hSpan.2 hToken Token.noConfusion rfl

/-- Every literal that can be written is scanned as its token. -/
theorem spells_literal {v : Literal} (h : v.WellFormed) (hText : v.ReadsBack) :
    Spells false EndsNumber v.canonical.toList [v.token] := by
  have hWord {w : String} (hw : Token.IsIdentifier w) :
      Spells false EndsNumber w.toList [.name w] :=
    Spells.weaken (.name hw) fun _ => EndsNumber.endsName
  cases v with
  | null => exact hWord (Token.isIdentifier_of_toList rfl (by decide) (by decide))
  | boolean b =>
      cases b with
      | false => exact hWord (Token.isIdentifier_of_toList rfl (by decide) (by decide))
      | true => exact hWord (Token.isIdentifier_of_toList rfl (by decide) (by decide))
  | integer n => exact (spells_decimal n).weaken fun _ => EndsNumber.endsInteger
  | float x => exact spells_float h hText
  | string s => exact spells_string s

/-- Texts with commas between them are scanned as their tokens with commas between them. -/
theorem spells_commaSeparated {α : Type} {textOf : α → String} {tokensOf : α → List Token}
    {xs : List α} (comma : ∀ rest, next (',' :: rest))
    (parts : ∀ x ∈ xs, Spells false next (textOf x).toList (tokensOf x)) :
    Spells false next (Text.commaSeparated (xs.map textOf)).toList
      (Token.separated (xs.map tokensOf)) := by
  induction xs with
  | nil => exact .nil
  | cons x xs ih =>
      obtain ⟨hx, hxs⟩ := List.forall_mem_cons.mp parts
      cases xs with
      | nil => exact hx
      | cons y ys =>
          have hRest : Spells false next
              (',' :: ' ' :: (Text.commaSeparated ((y :: ys).map textOf)).toList)
              (.mark .comma :: Token.separated ((y :: ys).map tokensOf)) :=
            .mark (m := .comma) (.blank (ih hxs))
          have hText : (Text.commaSeparated ((x :: y :: ys).map textOf)).toList = (textOf x).toList ++
              (',' :: ' ' :: (Text.commaSeparated ((y :: ys).map textOf)).toList) := by
            simp [Text.commaSeparated]
          rw [hText]
          exact hx.append hRest fun rest _ => comma _

theorem spells_argument {a : Argument} (h : a.WellFormed) (hText : a.value.ReadsBack) :
    Spells false EndsNumber a.canonical.toList a.tokens := by
  cases a with
  | positional v => exact spells_literal h.value hText
  | named n v =>
      have hValue : Spells false EndsNumber (':' :: ' ' :: v.canonical.toList)
          [.mark .colon, v.token] := .mark (m := .colon) (.blank (spells_literal h.value hText))
      have hCanonical : (Argument.named n v).canonical.toList =
          n.toList ++ (':' :: ' ' :: v.canonical.toList) := by
        simp [Argument.canonical]
      rw [hCanonical]
      exact Spells.append (.name (h.name n rfl)) hValue fun rest _ => endsName_mark .colon _

/-- A name, or a call with its arguments, is scanned as its tokens. -/
theorem spells_segment {s : Step} (h : s.WellFormed) (named : s.name?.isSome = true)
    (hText : ∀ v ∈ s.literals, v.ReadsBack) :
    Spells afterDot EndsName s.canonical.toList s.tokens := by
  cases s with
  | member n p => exact .name (h.name n rfl)
  | call n args p =>
      have hArguments : Spells false EndsNumber
          (Text.commaSeparated (args.map Argument.canonical)).toList
          (Token.separated (args.map Argument.tokens)) :=
        spells_commaSeparated (fun rest => endsNumber_mark (m := .comma) (by decide) rest)
          fun a ha => spells_argument (h.arguments a ha) (hText _ (List.mem_map_of_mem ha))
      have hClose : Spells false EndsName [')'] [.mark .rightParen] :=
        .mark (m := .rightParen) .nil
      have hInner := hArguments.append hClose fun rest _ =>
        endsNumber_mark (m := .rightParen) (by decide) rest
      have hOpen : Spells false EndsName
          ('(' :: ((Text.commaSeparated (args.map Argument.canonical)).toList ++ [')']))
          (.mark .leftParen :: (Token.separated (args.map Argument.tokens) ++
            [.mark .rightParen])) := .mark (m := .leftParen) hInner
      have hCanonical : (Step.call n args p).canonical.toList = n.toList ++
          ('(' :: ((Text.commaSeparated (args.map Argument.canonical)).toList ++ [')'])) := by
        simp [Step.canonical]
      rw [hCanonical]
      exact Spells.append (.name (h.name n rfl)) hOpen fun rest _ => endsName_mark .leftParen _
  | index i p => cases named
  | slice start stop step p => cases named

/-- The text of an index or a slice, without brackets; a step with a name has none. -/
def Step.subscript : Step → String
  | .index i _ => Text.decimal i
  | .slice start stop step _ =>
    let stride := if step.isSome then ":" ++ bound step else ""
    bound start ++ ":" ++ bound stop ++ stride
  | _ => ""

theorem Step.canonical_of_unnamed {s : Step} (unnamed : s.name?.isSome = false) :
    s.canonical = "[" ++ s.subscript ++ "]" := by
  cases s with
  | member n p => cases unnamed
  | call n args p => cases unnamed
  | index i p => rfl
  | slice start stop step p => simp [canonical, subscript, String.append_assoc]

/-- What may follow the text of an index or a slice: an integer at its end must end there. -/
def Step.EndsBefore (afterDot : Bool) : Step → List Char → Prop
  | .index _ _, rest => EndsInteger afterDot rest
  | .slice _ stop step _, rest => stop.isSome = true ∨ step.isSome = true → EndsInteger false rest
  | _, _ => True

/-- The bounds of a slice after its first colon. The second colon is written only if there is a
step. -/
theorem spells_bounds {stop step : Option Int64}
    (ends : ∀ rest, next rest → stop.isSome = true ∨ step.isSome = true → EndsInteger false rest) :
    Spells false next ((Step.bound stop).toList ++
        (if step.isSome then ":" ++ Step.bound step else "").toList)
      (Step.boundTokens stop ++ Step.strideTokens step) := by
  cases step with
  | none =>
      cases stop with
      | none => exact .nil
      | some n =>
          have hLast : Spells false next (Text.decimal n).toList [.integer n] :=
            (spells_decimal n).weaken fun rest hRest => ends rest hRest (.inl rfl)
          simpa [Step.bound, Step.boundTokens, Step.strideTokens] using hLast
  | some m =>
      have hLast : Spells false next (Text.decimal m).toList [.integer m] :=
        (spells_decimal m).weaken fun rest hRest => ends rest hRest (.inr rfl)
      have hStride : Spells false next (':' :: (Text.decimal m).toList)
          [.mark .colon, .integer m] := .mark (m := .colon) hLast
      have hText : (if (some m).isSome then ":" ++ Step.bound (some m) else "").toList =
          ':' :: (Text.decimal m).toList := by
        simp [Step.bound]
      rw [hText]
      cases stop with
      | none => exact hStride
      | some n =>
          exact (spells_decimal n).append hStride fun rest _ =>
            (endsNumber_mark (m := .colon) (by decide) _).endsInteger

/-- An index or a slice is scanned as its tokens; behind a dot it must not be followed by what would
make its last number a float. -/
theorem spells_subscript {s : Step} (unnamed : s.name?.isSome = false) :
    Spells afterDot (s.EndsBefore afterDot) s.subscript.toList s.subscriptTokens := by
  cases s with
  | member n p => cases unnamed
  | call n args p => cases unnamed
  | index i p => exact spells_decimal i
  | slice start stop step p =>
      let following := (Step.slice start stop step p).EndsBefore afterDot
      have hBounds : Spells false following _ _ := spells_bounds fun rest hRest => hRest
      have hColon {d : Bool} : Spells d following (':' :: _) (.mark .colon :: _) :=
        .mark (m := .colon) hBounds
      have hText : (Step.slice start stop step p).subscript.toList = (Step.bound start).toList ++
          (':' :: ((Step.bound stop).toList ++
            (if step.isSome then ":" ++ Step.bound step else "").toList)) := by
        simp [Step.subscript, String.append_assoc]
      rw [hText]
      cases start with
      | none => exact hColon
      | some n =>
          exact (spells_decimal n).append hColon fun rest _ =>
            (endsNumber_mark (m := .colon) (by decide) _).endsInteger

theorem Step.endsBefore_mark {s : Step} {m : Mark} (h : m ≠ .dot) (more : List Char) :
    s.EndsBefore afterDot (m.char :: more) := by
  have hEnds {d : Bool} : EndsInteger d (m.char :: more) := (endsNumber_mark h more).endsInteger
  cases s with
  | member n p => trivial
  | call n args p => trivial
  | index i p => exact hEnds
  | slice start stop step p => exact fun _ => hEnds

theorem spells_brackets {s : Step} (unnamed : s.name?.isSome = false) :
    Spells false next s.canonical.toList s.tokens := by
  have hClose : Spells false next [']'] [.mark .rightBracket] := .mark (m := .rightBracket) .nil
  have hInner : Spells false next (s.subscript.toList ++ [']'])
      (s.subscriptTokens ++ [.mark .rightBracket]) :=
    (spells_subscript unnamed).append hClose fun rest _ =>
      Step.endsBefore_mark (m := .rightBracket) (by decide) rest
  have hText : s.canonical.toList = '[' :: (s.subscript.toList ++ [']']) := by
    rw [Step.canonical_of_unnamed unnamed]
    simp
  rw [hText, Step.tokens_of_unnamed unnamed]
  exact Spells.mark (m := .leftBracket) hInner

/-- Steps that follow another one begin with a dot or a bracket. -/
theorem endsName_canonicalTail (ss : List Step) {rest : List Char} (h : EndsName rest) :
    EndsName ((Step.canonicalTail ss).toList ++ rest) := by
  cases ss with
  | nil => exact h
  | cons s ss =>
      have hMark : ∃ (m : Mark) (more : List Char),
          (Step.canonicalTail (s :: ss)).toList = m.char :: more := by
        cases s <;> simp only [Step.canonicalTail, Step.name?, Step.canonical, Option.isSome_some,
          Option.isSome_none, Bool.false_eq_true, if_true, if_false, String.toList_append,
          List.append_assoc]
        · exact ⟨.dot, _, rfl⟩
        · exact ⟨.dot, _, rfl⟩
        · exact ⟨.leftBracket, _, rfl⟩
        · exact ⟨.leftBracket, _, rfl⟩
      obtain ⟨m, more, hText⟩ := hMark
      rw [hText]
      exact endsName_mark m _

/-- Further steps are scanned as their tokens, as a dot or a bracket ends the step before. -/
theorem spells_tail {ss : List Step} (h : ∀ s ∈ ss, s.WellFormed)
    (hText : ∀ s ∈ ss, ∀ v ∈ s.literals, v.ReadsBack) :
    Spells false EndsName (Step.canonicalTail ss).toList (Step.tailTokens ss) := by
  induction ss with
  | nil => exact .nil
  | cons s ss ih =>
      obtain ⟨hs, hss⟩ := List.forall_mem_cons.mp h
      obtain ⟨hsText, hssText⟩ := List.forall_mem_cons.mp hText
      have hTail := ih hss hssText
      rw [Step.canonicalTail, Step.tailTokens, String.toList_append, String.toList_append]
      cases hNamed : s.name?.isSome with
      | true =>
          have hStep : Spells false EndsName ('.' :: s.canonical.toList) (.mark .dot :: s.tokens) :=
            .mark (m := .dot) (spells_segment hs hNamed hsText)
          exact hStep.append hTail fun rest hRest => endsName_canonicalTail ss hRest
      | false =>
          have hStep : Spells false EndsName s.canonical.toList s.tokens := spells_brackets hNamed
          exact hStep.append hTail fun rest hRest => endsName_canonicalTail ss hRest

/-- A chain is scanned as its tokens. -/
theorem spells_chain {ss : List Step} (named : Step.StartsNamed ss) (h : ∀ s ∈ ss, s.WellFormed)
    (hText : ∀ s ∈ ss, ∀ v ∈ s.literals, v.ReadsBack) :
    Spells false EndsName (Step.canonicalChain ss).toList (Step.chainTokens ss) := by
  obtain ⟨s, ss, rfl, hNamed⟩ := named
  obtain ⟨hs, hss⟩ := List.forall_mem_cons.mp h
  obtain ⟨hsText, hssText⟩ := List.forall_mem_cons.mp hText
  rw [Step.canonicalChain, Step.chainTokens, String.toList_append]
  exact (spells_segment hs hNamed hsText).append (spells_tail hss hssText) fun rest hRest =>
    endsName_canonicalTail ss hRest

/-- A text before which a chain ends: it begins with a blank or with a mark other than a dot. -/
def EndsChain (rest : List Char) : Prop :=
  EndsNumber rest ∨ ∃ more, rest = ' ' :: more

theorem endsChain_mark {m : Mark} (h : m ≠ .dot) (more : List Char) : EndsChain (m.char :: more) :=
  .inl (endsNumber_mark h more)

/-- What ends a chain ends a name. -/
theorem EndsChain.endsName {rest : List Char} (h : EndsChain rest) : EndsName rest := by
  rcases h with hNumber | ⟨more, rfl⟩
  · exact hNumber.endsName
  · exact endsName_cons (by decide) more

theorem EndsChain.endsInteger {rest : List Char} (h : EndsChain rest) :
    EndsInteger afterDot rest := by
  rcases h with hNumber | ⟨more, rfl⟩
  · exact hNumber.endsInteger
  · exact endsInteger_cons (by decide) (by decide) (by decide) more

/-- A style in which the texts of chains that meet a condition are made of their tokens. -/
structure ChainStyle.Spelled (style : ChainStyle) (condition : List Step → Prop) : Prop where
  nil : style.text [] = "" ∧ style.tokens [] = []
  chain : ∀ {ss : List Step}, Step.StartsNamed ss → (∀ s ∈ ss, s.WellFormed) →
    (∀ s ∈ ss, ∀ v ∈ s.literals, v.ReadsBack) → condition ss →
      Spells false EndsChain (style.text ss).toList (style.tokens ss)

/-- The canonical text of a chain spells its tokens, without any condition on its steps. -/
theorem canonical_spelled : ChainStyle.canonical.Spelled fun _ => True :=
  ⟨⟨rfl, rfl⟩, fun named wellFormed hText _ =>
    (spells_chain named wellFormed hText).weaken fun _ => EndsChain.endsName⟩

section

variable {style : ChainStyle} {condition : List Step → Prop} (spelled : style.Spelled condition)

include spelled

/-- An alias and a chain are scanned as their tokens. -/
theorem spells_head {h : Head} (wellFormed : h.WellFormed) (hText : ∀ v ∈ h.literals, v.ReadsBack)
    (hChain : condition h.chain) :
    Spells false EndsChain (style.headText h).toList (style.headTokens h) := by
  have hChain := spelled.chain wellFormed.named wellFormed.steps (fun s hs v hv =>
    hText v (List.mem_flatMap.mpr ⟨s, hs, hv⟩)) hChain
  rw [ChainStyle.headText, ChainStyle.headTokens, String.toList_append]
  cases hLabel : h.label with
  | none => exact hChain
  | some a =>
      have hColon : Spells false EndsChain (':' :: ' ' :: (style.text h.chain).toList)
          (.mark .colon :: style.tokens h.chain) := .mark (m := .colon) (.blank hChain)
      have hWritten : (a ++ ": ").toList ++ (style.text h.chain).toList =
          a.toList ++ (':' :: ' ' :: (style.text h.chain).toList) := by
        simp
      have hName : Spells false EndsName a.toList [.name a] := .name (wellFormed.label a hLabel)
      rw [hWritten]
      exact hName.append hColon fun rest _ => endsName_mark .colon _

theorem head_of_empty {h : Head} (empty : h.Empty) :
    style.headText h = "" ∧ style.headTokens h = [] := by
  obtain ⟨hLabel, hChain⟩ := empty
  rw [ChainStyle.headText, ChainStyle.headTokens, hLabel, hChain, spelled.nil.1, spelled.nil.2]
  exact ⟨rfl, rfl⟩

theorem spells_anyHead {inList : Bool} {h : Head}
    (head : h.WellFormed ∨ inList = true ∧ h.Empty) (hText : ∀ v ∈ h.literals, v.ReadsBack)
    (hChain : condition h.chain) :
    Spells false EndsChain (style.headText h).toList (style.headTokens h) := by
  rcases head with wellFormed | ⟨_, empty⟩
  · exact spells_head spelled wellFormed hText hChain
  · rw [(head_of_empty spelled empty).1, (head_of_empty spelled empty).2]
    exact .nil

omit spelled in
/-- Resources with commas between them are scanned as their tokens. -/
theorem spells_parts {parts : List Resource}
    (h : ∀ r ∈ parts, Spells false EndsChain (style.resourceText r).toList (style.resourceTokens r)) :
    Spells false EndsChain (style.listText parts).toList (style.listTokens parts) := by
  rw [ChainStyle.listText_eq_commaSeparated, ChainStyle.listTokens_eq_separated]
  exact spells_commaSeparated (fun rest => endsChain_mark (m := .comma) (by decide) rest) h

omit spelled in
/-- The children of an object in braces, with blanks around them if there are any. -/
theorem spells_children {children : List Resource}
    (h : ∀ r ∈ children,
      Spells false EndsChain (style.resourceText r).toList (style.resourceTokens r)) :
    Spells false next
      (if children.isEmpty then "\x7b\x7d"
        else "\x7b " ++ style.listText children ++ " \x7d").toList
      (.mark .leftBrace :: (style.listTokens children ++ [.mark .rightBrace])) := by
  have hClose : Spells false next ['\x7d'] [.mark .rightBrace] := .mark (m := .rightBrace) .nil
  cases children with
  | nil =>
      rw [if_pos List.isEmpty_nil]
      exact Spells.mark (m := .leftBrace) hClose
  | cons r rs =>
      have hInner := (spells_parts h).append hClose.blank fun rest _ => .inr ⟨_, rfl⟩
      have hWritten : (if (r :: rs).isEmpty then "\x7b\x7d"
          else "\x7b " ++ style.listText (r :: rs) ++ " \x7d").toList =
          '\x7b' :: ' ' :: ((style.listText (r :: rs)).toList ++ [' ', '\x7d']) := by
        simp
      rw [hWritten]
      exact Spells.mark (m := .leftBrace) hInner.blank

/-- A list is scanned as its tokens if its parts are. -/
theorem spells_list {inList : Bool} {h : Head} {body : List Resource}
    (head : h.WellFormed ∨ inList = true ∧ h.Empty) (hHeadText : ∀ v ∈ h.literals, v.ReadsBack)
    (hChain : condition h.chain)
    (parts : ∀ r ∈ body,
      Spells false EndsChain (style.resourceText r).toList (style.resourceTokens r)) :
    Spells false next (style.resourceText (.list h body)).toList
      (style.resourceTokens (.list h body)) := by
  have hClose : Spells false next [']'] [.mark .rightBracket] := .mark (m := .rightBracket) .nil
  have hInner := (spells_parts parts).append hClose fun rest _ =>
    endsChain_mark (m := .rightBracket) (by decide) _
  have hOpen : Spells false next ('[' :: _) (.mark .leftBracket :: _) :=
    .mark (m := .leftBracket) hInner
  have hWritten : (style.resourceText (.list h body)).toList =
      (style.headText h).toList ++ ('[' :: ((style.listText body).toList ++ [']'])) := by
    simp [ChainStyle.resourceText]
  rw [hWritten]
  exact (spells_anyHead spelled head hHeadText hChain).append hOpen fun rest _ =>
    endsChain_mark (m := .leftBracket) (by decide) _

/-- An object has a blank between its chain and its brace, and none when it has no chain. -/
theorem spells_object {inList : Bool} {h : Head} {children : List Resource}
    (head : h.WellFormed ∨ inList = true ∧ h.Empty) (hHeadText : ∀ v ∈ h.literals, v.ReadsBack)
    (hChain : condition h.chain)
    (parts : ∀ r ∈ children,
      Spells false EndsChain (style.resourceText r).toList (style.resourceTokens r)) :
    Spells false next (style.resourceText (.object h children)).toList
      (style.resourceTokens (.object h children)) := by
  have hChildren : Spells false next _ _ := spells_children parts
  rw [ChainStyle.resourceText, String.toList_append, String.toList_append, List.append_assoc]
  rcases head with wellFormed | ⟨_, empty⟩
  · obtain ⟨s, ss, hSteps, _⟩ := wellFormed.named
    have hBlank : (if h.chain.isEmpty then "" else " ").toList = [' '] := by
      simp [hSteps]
    rw [hBlank]
    exact (spells_head spelled wellFormed hHeadText hChain).append hChildren.blank fun rest _ =>
      .inr ⟨_, rfl⟩
  · have hBlank : (if h.chain.isEmpty then "" else " ").toList = [] := by
      rw [empty.2]
      rfl
    have hTokens : style.resourceTokens (.object h children) =
        .mark .leftBrace :: (style.listTokens children ++ [.mark .rightBrace]) := by
      rw [ChainStyle.resourceTokens, Resource.head, (head_of_empty spelled empty).2]
      rfl
    rw [hBlank, (head_of_empty spelled empty).1, hTokens]
    exact hChildren

/-- Every resource that can be written is scanned as its tokens. The induction is on the tree. -/
theorem spells_resource {inList : Bool} {r : Resource} (wellFormed : r.WellFormed inList)
    (hText : ∀ v ∈ r.literals, v.ReadsBack) (hChains : ∀ n ∈ r.nodes, condition n.head.chain) :
    Spells false EndsChain (style.resourceText r).toList (style.resourceTokens r) := by
  have hChain := hChains r r.mem_nodes_self
  induction r using Resource.induct generalizing inList with
  | field h =>
      cases wellFormed with
      | field head =>
          have hTokens : style.resourceTokens (.field h) = style.headTokens h := List.append_nil _
          rw [hTokens]
          exact spells_head spelled head hText hChain
  | list h body ih =>
      cases wellFormed with
      | list head _ parts =>
          obtain ⟨hHeadText, hBodyText⟩ := List.forall_mem_append.mp hText
          rw [Resource.literalsAll_eq_flatMap] at hBodyText
          apply spells_list spelled head hHeadText hChain
          intro r hr
          have hNodes : ∀ n ∈ r.nodes, condition n.head.chain :=
            fun n hn => hChains n (Resource.mem_nodes_list hr hn)
          exact ih r hr (parts r hr) (fun v hv => hBodyText v (List.mem_flatMap.mpr ⟨r, hr, hv⟩))
            hNodes (hNodes r r.mem_nodes_self)
  | object h children ih =>
      cases wellFormed with
      | object head _ parts =>
          obtain ⟨hHeadText, hChildrenText⟩ := List.forall_mem_append.mp hText
          rw [Resource.literalsAll_eq_flatMap] at hChildrenText
          apply spells_object spelled head hHeadText hChain
          intro r hr
          have hNodes : ∀ n ∈ r.nodes, condition n.head.chain :=
            fun n hn => hChains n (Resource.mem_nodes_object hr hn)
          exact ih r hr (parts r hr)
            (fun v hv => hChildrenText v (List.mem_flatMap.mpr ⟨r, hr, hv⟩)) hNodes
            (hNodes r r.mem_nodes_self)

/-- The text of a query splits into its tokens. -/
theorem scans_query {q : Query} (wellFormed : q.WellFormed) (hText : ∀ v ∈ q.literals, v.ReadsBack)
    (hChains : ∀ n ∈ q.nodes, condition n.head.chain) :
    Scans false (style.queryText q).toList (style.queryTokens q) := by
  obtain ⟨hHeadText, hPartsText⟩ := List.forall_mem_append.mp hText
  rw [Resource.literalsAll_eq_flatMap] at hPartsText
  have hParts : ∀ r ∈ q.children,
      Spells false EndsChain (style.resourceText r).toList (style.resourceTokens r) := by
    intro r hr
    exact spells_resource spelled (wellFormed.parts r hr)
      (fun v hv => hPartsText v (List.mem_flatMap.mpr ⟨r, hr, hv⟩))
      fun n hn => hChains n (Resource.mem_nodes_object hr hn)
  have hHead : q.head.WellFormed ∨ false = true ∧ q.head.Empty := .inl wellFormed.head
  have hRoot : Spells false (fun _ => True) _ _ :=
    spells_object spelled hHead hHeadText (hChains q.root q.root.mem_nodes_self) hParts
  have hQuery := hRoot [] [.endOfInput] trivial (.done rfl)
  rw [List.append_nil] at hQuery
  exact hQuery

end

theorem Resource.canonicalList_eq_commaSeparated (rs : List Resource) :
    canonicalList rs = Text.commaSeparated (rs.map canonical) := by
  induction rs with
  | nil => rfl
  | cons r rs ih =>
      cases rs with
      | nil => rfl
      | cons s rs =>
          rw [canonicalList, ih]
          rfl

/-- With indexes and slices in brackets the text of a query is the canonical one. -/
theorem canonical_resourceText (r : Resource) : ChainStyle.canonical.resourceText r = r.canonical := by
  have hParts {parts : List Resource}
      (ih : ∀ r ∈ parts, ChainStyle.canonical.resourceText r = r.canonical) :
      ChainStyle.canonical.listText parts = Resource.canonicalList parts := by
    rw [ChainStyle.listText_eq_commaSeparated, Resource.canonicalList_eq_commaSeparated,
      List.map_congr_left ih]
  induction r using Resource.induct with
  | field h => rfl
  | list h body ih =>
      rw [ChainStyle.resourceText, hParts ih]
      rfl
  | object h children ih =>
      rw [ChainStyle.resourceText, hParts ih]
      rfl

/-- The canonical text of a query splits into its tokens. -/
theorem scans_canonical {q : Query} (wellFormed : q.WellFormed)
    (hText : ∀ v ∈ q.literals, v.ReadsBack) : Scans false q.canonical.toList q.tokens := by
  have hScans := scans_query canonical_spelled wellFormed hText fun _ _ => trivial
  rw [ChainStyle.queryText, canonical_resourceText] at hScans
  exact hScans

end GatedQuery
