import GatedQuery.Proofs.Grammar.Conditions
import GatedQuery.Proofs.Grammar.Reads

/-! Readers read only what the grammar derives, and only trees that repeat nothing they must not. This
holds on tokens that end with the end of the input, as no reader moves past it. -/

namespace GatedQuery

open Grammar Reading TokenStream

theorem Token.isMark_iff {m : Mark} {t : Token} : t.isMark m = true ↔ t = .mark m := by
  cases t with
  | mark m' => exact beq_iff_eq.trans (by rw [Token.mark.injEq])
  | _ => exact ⟨fun h => Bool.noConfusion h, fun h => Token.noConfusion h⟩

/-- Moving on drops the current token, as it is not the end of the input. -/
theorem Ended.advance {t : PlacedToken} {us : Tokens} (h : Ended (t :: us))
    (some : t.token ≠ .endOfInput) : (ofTokens (t :: us)).advance = ofTokens us := by
  obtain ⟨u, vs, rfl⟩ := (h.tail some).exists_cons
  rfl

/-- A current token other than the end of the input has others after it. -/
theorem Ended.exists_token {ts : Tokens} {k : Token} (h : Ended ts)
    (current : (ofTokens ts).current.token = k) (some : k ≠ .endOfInput) :
    ∃ p us, ts = ⟨k, p⟩ :: us ∧ Ended us ∧ (ofTokens ts).advance = ofTokens us := by
  obtain ⟨⟨_, p⟩, us, rfl⟩ := h.exists_cons
  obtain rfl := current
  exact ⟨p, us, rfl, h.tail some, h.advance some⟩

/-- A current mark is the first of the tokens, so that the end is still to come behind it. -/
theorem Ended.exists_mark {ts : Tokens} {m : Mark} (h : Ended ts)
    (current : (ofTokens ts).current.token.isMark m = true) :
    ∃ p us, ts = ⟨.mark m, p⟩ :: us ∧ Ended us ∧ (ofTokens ts).advance = ofTokens us :=
  h.exists_token (Token.isMark_iff.mp current) Token.noConfusion

namespace Reading

/-- A reader that finds only what `derives` says, and leaves the tokens that follow it. -/
def Finds {α : Type} (m : Reading α) (derives : Tokens → Tokens → α → Prop) : Prop :=
  ∀ ts x s, Ended ts → Reads m (ofTokens ts) x s →
    ∃ rest, s = ofTokens rest ∧ Ended rest ∧ derives ts rest x

section Separated

variable {α : Type} {item : Tokens → Tokens → α → Prop} {read : List α → Reading α} {close : Mark}
  {between : Expectation} {before xs : List α} {fuel : Nat} {s : TokenStream}

/-- A list that is closed has the items that were read before. -/
theorem reads_separated_closed {t : TokenStream} (h : t.current.token.isMark close = true)
    (hReads : Reads (separated close between read fuel before) t xs s) :
    xs = before ∧ s = t.advance := by
  cases fuel with
  | zero => exact absurd hReads reads_unexpected
  | succ fuel =>
      rcases reads_separated_succ.mp hReads with ⟨_, hEnd⟩ | ⟨hOther, _⟩
      · exact hEnd
      · rw [h] at hOther
        cases hOther

/-- What a list reader finds, when every item that is added to the items before it keeps an
invariant of them. -/
theorem exists_separated_of_reads {invariant : List α → Prop}
    (finds : ∀ before, invariant before →
      Finds (read before) fun ts rest x => item ts rest x ∧ invariant (before ++ [x]))
    (hBefore : invariant before) {ts : Tokens} (ended : Ended ts)
    (h : Reads (separated close between read fuel before) (ofTokens ts) xs s) :
    ∃ rest ys, s = ofTokens rest ∧ Ended rest ∧ xs = before ++ ys ∧ Separated item close ts rest ys ∧
      invariant xs := by
  induction fuel generalizing before ts with
  | zero => exact absurd h reads_unexpected
  | succ fuel ih =>
      rcases reads_separated_succ.mp h with ⟨hClose, rfl, rfl⟩ | ⟨_, x, t, hItem, hRest⟩
      · obtain ⟨⟨_, p⟩, us, rfl⟩ := ended.exists_cons
        obtain rfl := Token.isMark_iff.mp hClose
        refine ⟨us, [], ended.advance Token.noConfusion, ended.tail Token.noConfusion,
          (List.append_nil _).symm, .nil, hBefore⟩
      · obtain ⟨us, rfl, hEnded, hHead, hAdded⟩ := finds before hBefore ts x t ended hItem
        obtain ⟨⟨k, p⟩, us, rfl⟩ := hEnded.exists_cons
        rcases hRest with ⟨hClose, hMore⟩ | ⟨_, hComma, hMore⟩
        · obtain ⟨rfl, rfl⟩ := reads_separated_closed hClose hMore
          obtain rfl := Token.isMark_iff.mp hClose
          exact ⟨us, [x], hEnded.advance Token.noConfusion, hEnded.tail Token.noConfusion, rfl,
            .last hHead, hAdded⟩
        · obtain rfl := Token.isMark_iff.mp hComma
          rw [hEnded.advance Token.noConfusion] at hMore
          obtain ⟨rest, ys, rfl, hRest, rfl, hTail, hAll⟩ :=
            ih hAdded (hEnded.tail Token.noConfusion) hMore
          exact ⟨rest, x :: ys, rfl, hRest, by simp, .cons hHead hTail, hAll⟩

/-- A list that is read is derived from its tokens. The invariant carries what is known of the items
so far. -/
theorem finds_list {invariant : List α → Prop}
    (finds : ∀ before, invariant before →
      Finds (read before) fun ts rest x => item ts rest x ∧ invariant (before ++ [x]))
    (hNone : invariant []) :
    Finds (list close between read) fun ts rest xs => Separated item close ts rest xs ∧
      invariant xs := by
  intro ts xs s ended h
  obtain ⟨rest, ys, rfl, hRest, rfl, hList, hAll⟩ :=
    exists_separated_of_reads finds hNone ended (reads_list.mp h)
  exact ⟨rest, rfl, hRest, hList, hAll⟩

end Separated

theorem ordered_nil : Argument.Ordered [] :=
  ⟨.nil, .nil⟩

/-- A positional argument may follow positional ones only. -/
theorem ordered_positional {before : List Argument} (ordered : Argument.Ordered before)
    (unnamed : (before.any fun b => b.name?.isSome) = false) (v : Literal) :
    Argument.Ordered (before ++ [.positional v]) := by
  constructor
  · refine List.pairwise_append.mpr ⟨ordered.namesLast, List.pairwise_singleton _ _, ?_⟩
    intro b hb a _ _
    simpa using List.any_eq_false.mp unnamed b hb
  · rw [List.filterMap_append]
    exact (List.append_nil _).symm ▸ ordered.distinct

/-- A named argument may follow any others of which none has its name. -/
theorem ordered_named {before : List Argument} (ordered : Argument.Ordered before) {n : String}
    (new : (before.any fun b => b.name? == some n) = false) (v : Literal) :
    Argument.Ordered (before ++ [.named n v]) := by
  constructor
  · refine List.pairwise_append.mpr ⟨ordered.namesLast, List.pairwise_singleton _ _, ?_⟩
    intro b _ a ha hNone
    obtain rfl := List.mem_singleton.mp ha
    cases hNone
  · rw [List.filterMap_append]
    refine List.nodup_append.mpr ⟨ordered.distinct, List.pairwise_singleton _ _, ?_⟩
    intro m hm k hk hSame
    obtain ⟨b, hb, hName⟩ := List.mem_filterMap.mp hm
    obtain rfl := List.mem_singleton.mp hk
    apply List.any_eq_false.mp new b hb
    rw [hName, hSame, beq_self_eq_true]

/-- Literals are tokens of the text. -/
theorem literal_ne_endOfInput {t : Token} {v : Literal} (h : IsLiteral t v) :
    t ≠ .endOfInput := by
  rintro rfl
  cases h

theorem sign_of_isSign {t : Token} (h : isSign t = true) :
    t = .mark .colon ∨ t = .mark .equals := by
  rw [isSign, Bool.or_eq_true] at h
  exact h.imp Token.isMark_iff.mp Token.isMark_iff.mp

/-- An argument that is read is derived, and keeps the arguments in order. -/
theorem finds_argument {before : List Argument} (ordered : Argument.Ordered before) :
    Finds (argument before) fun ts rest a => IsArgument ts rest a ∧
      Argument.Ordered (before ++ [a]) := by
  intro ts a s ended h
  obtain ⟨⟨k, p⟩, us, rfl⟩ := ended.exists_cons
  rcases reads_argument.mp h with ⟨n, hName, hSign, hNew, v, hValue, rfl, rfl⟩ |
    ⟨_, hUnnamed, v, hValue, rfl, rfl⟩
  · obtain rfl : k = .name n := hName
    have hUs := ended.tail Token.noConfusion
    rw [ended.advance Token.noConfusion] at hValue ⊢
    obtain ⟨sign, vs, rfl⟩ := hUs.exists_cons
    have hMarked : sign.token = .mark .colon ∨ sign.token = .mark .equals := sign_of_isSign hSign
    have hSignNot : sign.token ≠ .endOfInput := by rcases hMarked with hm | hm <;> simp [hm]
    have hVs := hUs.tail hSignNot
    rw [hUs.advance hSignNot] at hValue ⊢
    obtain ⟨t, rest, rfl⟩ := hVs.exists_cons
    have hNot : t.token ≠ .endOfInput := literal_ne_endOfInput hValue
    exact ⟨rest, hVs.advance hNot, hVs.tail hNot, .named hMarked hValue,
      ordered_named ordered hNew v⟩
  · have hNot : k ≠ .endOfInput := literal_ne_endOfInput hValue
    exact ⟨us, ended.advance hNot, ended.tail hNot, .positional hValue,
      ordered_positional ordered hUnnamed v⟩

/-- A name or a call that is read is derived, and its arguments are in order. -/
theorem finds_segment :
    Finds segment fun ts rest x => Segment ts rest x ∧ x.Admissible := by
  intro ts x s ended h
  obtain ⟨⟨k, p⟩, us, rfl⟩ := ended.exists_cons
  obtain ⟨n, hName, hRest⟩ := reads_segment.mp h
  obtain rfl : k = .name n := hName
  have hUs := ended.tail Token.noConfusion
  rw [ended.advance Token.noConfusion] at hRest
  rcases hRest with ⟨hOpen, args, t, hArguments, rfl, rfl⟩ | ⟨_, rfl, rfl⟩
  · obtain ⟨⟨k, q⟩, vs, rfl⟩ := hUs.exists_cons
    obtain rfl := Token.isMark_iff.mp hOpen
    rw [hUs.advance Token.noConfusion] at hArguments
    obtain ⟨rest, rfl, hRest, hList, hOrdered⟩ :=
      finds_list (fun _ => finds_argument) ordered_nil vs args s (hUs.tail Token.noConfusion)
        hArguments
    exact ⟨rest, rfl, hRest, .call hList, hOrdered⟩
  · exact ⟨us, rfl, hUs, .member, trivial⟩

theorem finds_integer : Finds integer? Bound := by
  intro ts b s ended h
  obtain ⟨⟨k, p⟩, us, rfl⟩ := ended.exists_cons
  rcases reads_integer.mp h with ⟨n, hInteger, rfl, rfl⟩ | ⟨_, rfl, rfl⟩
  · obtain rfl : k = .integer n := hInteger
    exact ⟨us, ended.advance Token.noConfusion, ended.tail Token.noConfusion, .some⟩
  · exact ⟨_, rfl, ended, .none⟩

/-- What is found after the first bound of a slice. -/
theorem finds_slice (start : Option Int64) (p : Position) :
    Finds (slice start p) fun ts rest x => ∃ q us vs stop step, ts = ⟨.mark .colon, q⟩ :: us ∧
      Bound us vs stop ∧ Stride vs rest step ∧ step ≠ some 0 ∧ x = .slice start stop step p := by
  intro ts x s ended h
  obtain ⟨⟨k, q⟩, us, rfl⟩ := ended.exists_cons
  obtain ⟨hColon, stop, t, hStop, hRest⟩ := reads_slice.mp h
  obtain rfl := Token.isMark_iff.mp hColon
  rw [ended.advance Token.noConfusion] at hStop
  obtain ⟨vs, rfl, hVs, hSecond⟩ := finds_integer us stop t (ended.tail Token.noConfusion) hStop
  rcases hRest with ⟨hStride, step, u, hStep, hMoves, rfl, rfl⟩ | ⟨_, rfl, rfl⟩
  · obtain ⟨⟨k, r⟩, ws, rfl⟩ := hVs.exists_cons
    obtain rfl := Token.isMark_iff.mp hStride
    rw [hVs.advance Token.noConfusion] at hStep
    obtain ⟨rest, rfl, hRest, hThird⟩ :=
      finds_integer ws step s (hVs.tail Token.noConfusion) hStep
    exact ⟨rest, rfl, hRest, q, us, _, stop, step, rfl, hSecond, .some hThird, hMoves, rfl⟩
  · exact ⟨vs, rfl, hVs, q, us, vs, stop, none, rfl, hSecond, .none, by simp, rfl⟩

/-- What is found in brackets or after a dot, other than a name. -/
theorem exists_subscript_of_reads {ts : Tokens} {x : Step} {s : TokenStream} (ended : Ended ts)
    (h : ReadsSubscript (ofTokens ts) x s) :
    ∃ rest, s = ofTokens rest ∧ Ended rest ∧ Subscript ts rest x ∧ x.Admissible := by
  obtain ⟨⟨k, p⟩, us, rfl⟩ := ended.exists_cons
  rcases h with ⟨i, hInteger, hRead⟩ | ⟨hColon, hRead⟩
  · obtain rfl : k = .integer i := hInteger
    have hUs := ended.tail Token.noConfusion
    have hRest := reads_indexOrSlice.mp hRead
    rw [ended.advance Token.noConfusion] at hRest
    rcases hRest with ⟨_, hSlice⟩ | ⟨_, rfl, rfl⟩
    · obtain ⟨rest, rfl, hRest, q, vs, ws, stop, step, rfl, hSecond, hThird, hMoves, rfl⟩ :=
        finds_slice _ _ us x s hUs hSlice
      exact ⟨rest, rfl, hRest, .slice .some hSecond hThird, hMoves⟩
    · exact ⟨us, rfl, hUs, .index, trivial⟩
  · obtain rfl : k = .mark .colon := hColon
    obtain ⟨rest, rfl, hRest, q, vs, ws, stop, step, hTs, hSecond, hThird, hMoves, rfl⟩ :=
      finds_slice _ _ _ x s ended hRead
    cases hTs
    exact ⟨rest, rfl, hRest, .slice .none hSecond hThird, hMoves⟩

/-- A step after a dot or in brackets, and the steps after it. -/
theorem exists_tail_of_step {ts us : Tokens} {x : Step} {fuel : Nat} {before xs : List Step}
    {s : TokenStream}
    (ih : ∀ {before us}, Ended us → Reads (steps fuel before) (ofTokens us) xs s →
      ∃ rest ss, s = ofTokens rest ∧ Ended rest ∧ xs = before ++ ss ∧ Tail us rest ss ∧
        ∀ y ∈ ss, y.Admissible)
    (ended : Ended us) (hRest : Reads (steps fuel (before ++ [x])) (ofTokens us) xs s)
    (admissible : x.Admissible) (hTail : ∀ {rest ss}, Tail us rest ss → Tail ts rest (x :: ss)) :
    ∃ rest ss, s = ofTokens rest ∧ Ended rest ∧ xs = before ++ ss ∧ Tail ts rest ss ∧
      ∀ y ∈ ss, y.Admissible := by
  obtain ⟨rest, ss, rfl, hEnded, rfl, hMore, hAll⟩ := ih ended hRest
  exact ⟨rest, x :: ss, rfl, hEnded, by simp, hTail hMore,
    List.forall_mem_cons.mpr ⟨admissible, hAll⟩⟩

/-- The steps that the loop over a chain reads are derived and admissible. The induction is on the
fuel, as the loop is. -/
theorem exists_tail_of_reads {fuel : Nat} {before xs : List Step} {ts : Tokens} {s : TokenStream}
    (ended : Ended ts) (h : Reads (steps fuel before) (ofTokens ts) xs s) :
    ∃ rest ss, s = ofTokens rest ∧ Ended rest ∧ xs = before ++ ss ∧ Tail ts rest ss ∧
      ∀ y ∈ ss, y.Admissible := by
  induction fuel generalizing before ts with
  | zero => exact absurd h reads_unexpected
  | succ fuel ih =>
      obtain ⟨⟨k, p⟩, us, rfl⟩ := ended.exists_cons
      rcases reads_steps_succ.mp h with ⟨hDot, x, t, hStep, hRest⟩ |
        ⟨_, ⟨hOpen, x, t, hStep, hRest⟩ | ⟨_, rfl, rfl⟩⟩
      · obtain rfl := Token.isMark_iff.mp hDot
        rw [ended.advance Token.noConfusion] at hStep
        have hUs := ended.tail Token.noConfusion
        rcases reads_dottedStep.mp hStep with ⟨_, _, hSegment⟩ | hSubscript
        · obtain ⟨vs, rfl, hVs, hHead, admissible⟩ := finds_segment us x t hUs hSegment
          exact exists_tail_of_step ih hVs hRest admissible (.named hHead)
        · obtain ⟨vs, rfl, hVs, hHead, admissible⟩ := exists_subscript_of_reads hUs hSubscript
          exact exists_tail_of_step ih hVs hRest admissible (.dotted hHead)
      · obtain rfl := Token.isMark_iff.mp (Bool.and_eq_true_iff.mp hOpen).1
        rw [ended.advance Token.noConfusion] at hStep
        obtain ⟨u, hSubscript, hClose, rfl⟩ := reads_bracketStep.mp hStep
        obtain ⟨vs, rfl, hVs, hHead, admissible⟩ :=
          exists_subscript_of_reads (ended.tail Token.noConfusion) hSubscript
        obtain ⟨⟨k, q⟩, ws, rfl⟩ := hVs.exists_cons
        obtain rfl := Token.isMark_iff.mp hClose
        rw [hVs.advance Token.noConfusion] at hRest
        exact exists_tail_of_step ih (hVs.tail Token.noConfusion) hRest admissible (.bracket hHead)
      · exact ⟨_, [], rfl, ended, (List.append_nil _).symm, .nil,
          fun y hy => absurd hy List.not_mem_nil⟩

/-- A chain that is read is derived, and all its steps are admissible. -/
theorem finds_chain : Finds chain fun ts rest ss => Chain ts rest ss ∧ ∀ y ∈ ss, y.Admissible := by
  intro ts xs s ended h
  obtain ⟨x, t, hSegment, hRest⟩ := reads_chain.mp h
  obtain ⟨us, rfl, hUs, hHead, admissible⟩ := finds_segment ts x t ended hSegment
  obtain ⟨rest, ss, rfl, hEnded, rfl, hTail, hAll⟩ := exists_tail_of_reads hUs hRest
  exact ⟨rest, rfl, hEnded, .cons hHead hTail, List.forall_mem_cons.mpr ⟨admissible, hAll⟩⟩

/-- What follows the head of a resource: its block, or else something that opens none. -/
inductive AfterHead (h : Head) : Tokens → Tokens → Resource → Prop where
  | block {ts rest : Tokens} {r : Resource} (inner : Block ts rest h r) : AfterHead h ts rest r
  | none {t : PlacedToken} {us : Tokens} (bracket : t.token.isMark .leftBracket = false)
      (brace : t.token.isMark .leftBrace = false) : AfterHead h (t :: us) (t :: us) (.field h)

def FindsBody (body : Head → Reading Resource) : Prop :=
  ∀ h, (∀ s ∈ h.chain, s.Admissible) →
    Finds (body h) fun ts rest r => AfterHead h ts rest r ∧ r.Admissible

/-- What is found of a resource that starts with a name, when its body is found. -/
theorem finds_named {body : Head → Reading Resource} (finds : FindsBody body) :
    Finds (named body) fun ts rest r => Named Block ts rest r ∧ r.Admissible := by
  intro ts r s ended h
  obtain ⟨label, t, hLabel, chain, u, hChain, hBody⟩ := reads_named.mp h
  obtain ⟨⟨k, p⟩, ts, rfl⟩ := ended.exists_cons
  have hHead : ∃ us, u = ofTokens us ∧ Ended us ∧ IsHead (⟨k, p⟩ :: ts) us ⟨label, chain, p⟩ ∧
      ∀ y ∈ chain, y.Admissible := by
    rcases reads_label.mp hLabel with ⟨n, hName, hColon, rfl, rfl⟩ | ⟨_, rfl, rfl⟩
    · obtain rfl : k = .name n := hName
      have hTs := ended.tail Token.noConfusion
      rw [ended.advance Token.noConfusion] at hChain
      obtain ⟨⟨k, q⟩, vs, rfl⟩ := hTs.exists_cons
      obtain rfl : k = .mark .colon := Token.isMark_iff.mp hColon
      rw [hTs.advance Token.noConfusion] at hChain
      obtain ⟨us, rfl, hUs, hSteps, hAll⟩ :=
        finds_chain vs chain u (hTs.tail Token.noConfusion) hChain
      exact ⟨us, rfl, hUs, .labelled hSteps, hAll⟩
    · obtain ⟨us, rfl, hUs, hSteps, hAll⟩ := finds_chain _ chain u ended hChain
      exact ⟨us, rfl, hUs, .plain hSteps, hAll⟩
  obtain ⟨us, rfl, hUs, hHead, hAll⟩ := hHead
  obtain ⟨rest, rfl, hRest, hAfter, admissible⟩ := finds ⟨label, chain, p⟩ hAll us r s hUs hBody
  refine ⟨rest, rfl, hRest, ?_, admissible⟩
  cases hAfter with
  | block inner => exact .block hHead inner
  | none => exact .field hHead

/-- Resources with different keys, all of them admissible. -/
structure Children (rs : List Resource) : Prop where
  keys : Resource.DistinctKeys rs
  parts : ∀ r ∈ rs, r.Admissible

/-- Keys stay distinct with a child whose key no other one has. -/
theorem distinctKeys_concat {rs : List Resource} (h : Resource.DistinctKeys rs) {r : Resource}
    (new : ∀ key, r.key? = some key → ∀ x ∈ rs, x.key? ≠ some key) :
    Resource.DistinctKeys (rs ++ [r]) := by
  rw [Resource.DistinctKeys, List.filterMap_append]
  refine List.nodup_append.mpr ⟨h, ?_, ?_⟩
  · cases hKey : r.key? <;> simp [hKey]
  · intro key hx key' hr hSame
    obtain ⟨x, hMember, hKey⟩ := List.mem_filterMap.mp hx
    obtain ⟨y, hy, hKey'⟩ := List.mem_filterMap.mp hr
    obtain rfl := List.mem_singleton.mp hy
    exact new key' hKey' x hMember (hSame ▸ hKey)

/-- The children so far and one more that is admissible and has a key of its own. -/
theorem Children.concat {rs : List Resource} (h : Children rs) {r : Resource}
    (admissible : r.Admissible) (new : ∀ key, r.key? = some key → ∀ x ∈ rs, x.key? ≠ some key) :
    Children (rs ++ [r]) where
  keys := distinctKeys_concat h.keys new
  parts := List.forall_mem_append.mpr ⟨h.parts, List.forall_mem_singleton.mpr admissible⟩

/-- A child that is read is derived, and may stand among the others. -/
theorem finds_child {body : Head → Reading Resource} (finds : FindsBody body)
    {before : List Resource} (hBefore : Children before) :
    Finds (child body before) fun ts rest r => Named Block ts rest r ∧ Children (before ++ [r]) := by
  intro ts r s ended h
  obtain ⟨hRead, hNew⟩ := reads_child.mp h
  obtain ⟨rest, rfl, hRest, hNamed, admissible⟩ := finds_named finds ts r s ended hRead
  exact ⟨rest, rfl, hRest, hNamed, hBefore.concat admissible hNew⟩

/-- An item that is read is derived; items may repeat each other's keys. -/
theorem finds_item {body : Head → Reading Resource} (finds : FindsBody body)
    {before : List Resource} (hBefore : ∀ r ∈ before, r.Admissible) :
    Finds (item body before) fun ts rest r => Item Block ts rest r ∧
      ∀ x ∈ before ++ [r], x.Admissible := by
  intro ts r s ended h
  have hAll (admissible : r.Admissible) : ∀ x ∈ before ++ [r], x.Admissible :=
    List.forall_mem_append.mpr ⟨hBefore, List.forall_mem_singleton.mpr admissible⟩
  rcases reads_item.mp h with ⟨hOpen, hRead⟩ | ⟨_, hRead⟩
  · obtain ⟨rest, rfl, hRest, hAfter, admissible⟩ :=
      finds _ (fun s hs => absurd hs List.not_mem_nil) ts r s ended hRead
    cases hAfter with
    | block inner =>
        obtain ⟨t, us, rfl⟩ := ended.exists_cons
        exact ⟨rest, rfl, hRest, .bare inner, hAll admissible⟩
    | @none t us bracket brace =>
        rcases hOpen with hOpen | hOpen
        · exact absurd (Token.isMark_iff.mpr hOpen) (Bool.not_eq_true _ ▸ brace)
        · exact absurd (Token.isMark_iff.mpr hOpen) (Bool.not_eq_true _ ▸ bracket)
  · obtain ⟨rest, rfl, hRest, hNamed, admissible⟩ := finds_named finds ts r s ended hRead
    exact ⟨rest, rfl, hRest, .named hNamed, hAll admissible⟩

theorem children_nil : Children [] :=
  ⟨.nil, fun _ hr => absurd hr List.not_mem_nil⟩

/-- A body that is read is derived from its tokens. The induction is on the depth. -/
theorem finds_body (depth : Nat) : FindsBody (Reading.body depth) := by
  induction depth with
  | zero =>
      intro h steps ts r s _ hRead
      exact absurd hRead reads_unexpected
  | succ depth ih =>
      intro h steps ts r s ended hRead
      obtain ⟨⟨k, p⟩, us, rfl⟩ := ended.exists_cons
      rcases reads_body_succ.mp hRead with ⟨hOpen, hSome, items, t, hItems, rfl, rfl⟩ |
        ⟨hBracket, ⟨hOpen, children, t, hChildren, rfl, rfl⟩ | ⟨hBrace, rfl, rfl⟩⟩
      · obtain rfl := Token.isMark_iff.mp hOpen
        rw [ended.advance Token.noConfusion] at hSome hItems
        obtain ⟨rest, rfl, hRest, hList, hAll⟩ :=
          finds_list (fun _ => finds_item ih) (fun r hr => absurd hr List.not_mem_nil) us items s
            (ended.tail Token.noConfusion) hItems
        have hItems : items ≠ [] := by
          rintro rfl
          cases hList
          cases hSome
        exact ⟨rest, rfl, hRest, .block (.list hItems hList), .list steps hAll⟩
      · obtain rfl := Token.isMark_iff.mp hOpen
        rw [ended.advance Token.noConfusion] at hChildren
        obtain ⟨rest, rfl, hRest, hList, hAll⟩ :=
          finds_list (fun _ => finds_child ih) children_nil us children s
            (ended.tail Token.noConfusion) hChildren
        exact ⟨rest, rfl, hRest, .block (.object hList), .object steps hAll.keys hAll.parts⟩
      · exact ⟨_, rfl, ended, .none hBracket hBrace, .field steps⟩

/-- Whatever is read as a query derives as that query and is admissible. -/
theorem isQuery_of_reads {ts : Tokens} {q : Query} {s : TokenStream} (ended : Ended ts)
    (h : Reads query (ofTokens ts) q s) : IsQuery ts q ∧ q.Admissible := by
  obtain ⟨steps, t, hSteps, hOpen, children, u, hChildren, hEnd, rfl, rfl⟩ := reads_query.mp h
  obtain ⟨us, rfl, hUs, hChain, hAll⟩ := finds_chain ts steps t ended hSteps
  obtain ⟨⟨k, p⟩, us, rfl⟩ := hUs.exists_cons
  obtain rfl := Token.isMark_iff.mp hOpen
  rw [hUs.advance Token.noConfusion] at hChildren
  obtain ⟨rest, rfl, hRest, hList, hParts⟩ :=
    finds_list (fun _ => finds_child (finds_body _)) children_nil us children u
      (hUs.tail Token.noConfusion) hChildren
  obtain ⟨t, ts, rfl⟩ := ended.exists_cons
  obtain ⟨before, q, rfl, hBefore⟩ := hRest
  cases before with
  | nil => exact ⟨.mk hChain hList, hAll, hParts.keys, hParts.parts⟩
  | cons v before => exact absurd hEnd (hBefore v List.mem_cons_self)

end Reading

end GatedQuery
