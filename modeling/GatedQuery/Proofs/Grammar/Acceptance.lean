import GatedQuery.Proofs.Grammar.Commas
import GatedQuery.Proofs.Grammar.Soundness
import GatedQuery.Proofs.Grammar.Unambiguous

/-! What is read as a query. A list of tokens is read exactly if it derives from the grammar as a query
that repeats nothing it must not, and then as that query. -/

namespace GatedQuery

open Reading TokenStream

namespace Grammar

/-- A query derives from tokens with the end of the input after them, which may be the last one. -/
def Derives (ts : Tokens) (q : Query) : Prop :=
  ∃ front p, (ts = front ∨ ts = front ++ [⟨.endOfInput, p⟩]) ∧
    (∀ t ∈ front, t.token ≠ .endOfInput) ∧ IsQuery (front ++ [⟨.endOfInput, p⟩]) q

/-- The place of the end of the input does not matter. -/
theorem IsQuery.finish {front : Tokens} {p : Position} {q : Query}
    (h : IsQuery (front ++ [⟨.endOfInput, p⟩]) q) (r : Position) :
    IsQuery (front ++ [⟨.endOfInput, r⟩]) q :=
  isQuery_recomma h (Recomma.append front .finish)

/-- Tokens have one front before the end of the input. -/
theorem front_unique {ts front front' : Tokens} {p p' : Position}
    (h : ts = front ∨ ts = front ++ [⟨.endOfInput, p⟩])
    (h' : ts = front' ∨ ts = front' ++ [⟨.endOfInput, p'⟩])
    (hFront : ∀ t ∈ front, t.token ≠ .endOfInput) (hFront' : ∀ t ∈ front', t.token ≠ .endOfInput) :
    front = front' := by
  rcases h with rfl | rfl <;> rcases h' with h' | h'
  · exact h'
  · exact absurd rfl (hFront ⟨.endOfInput, p'⟩ (by simp [h']))
  · exact absurd rfl (hFront' ⟨.endOfInput, p⟩ (by simp [← h']))
  · exact (List.append_inj' h' rfl).1

/-- The grammar is unambiguous: tokens derive one query at most. -/
theorem Derives.unique {ts : Tokens} {q q' : Query} (h : Derives ts q) (h' : Derives ts q') :
    q = q' := by
  obtain ⟨front, p, hTs, hFront, hQuery⟩ := h
  obtain ⟨front', p', hTs', hFront', hQuery'⟩ := h'
  obtain rfl := front_unique hTs hTs' hFront hFront'
  exact isQuery_unique hQuery (hQuery'.finish p)

/-- What stands after a token in tokens that derive. -/
theorem Derives.split {before after : Tokens} {t : PlacedToken} {q : Query}
    (h : Derives (before ++ t :: after) q) (hToken : t.token ≠ .endOfInput) :
    ∃ middle p, (after = middle ∨ after = middle ++ [⟨.endOfInput, p⟩]) ∧
      (∀ u ∈ before ++ middle, u.token ≠ .endOfInput) ∧
      IsQuery (before ++ t :: (middle ++ [⟨.endOfInput, p⟩])) q := by
  obtain ⟨front, p, hTs, hFront, hQuery⟩ := h
  rcases hTs with rfl | hTs
  · refine ⟨after, p, .inl rfl, fun u hu => hFront u ?_, by simpa using hQuery⟩
    rw [List.mem_append] at hu ⊢
    exact hu.imp_right (List.mem_cons_of_mem t)
  · rcases List.eq_nil_or_concat after with rfl | ⟨middle, u, rfl⟩
    · obtain ⟨_, hLast⟩ := List.append_inj' hTs rfl
      cases hLast
      exact absurd rfl hToken
    · rw [List.concat_eq_append, ← List.cons_append, ← List.append_assoc] at hTs
      obtain ⟨rfl, hLast⟩ := List.append_inj' hTs rfl
      cases hLast
      refine ⟨middle, p, .inr (List.concat_eq_append ..), fun u hu => hFront u ?_,
        by simpa using hQuery⟩
      rw [List.mem_append] at hu ⊢
      exact hu.imp_right (List.mem_cons_of_mem t)

/-- The end of the input may be there already. If not, it is added. -/
theorem derives_of_middle {before middle after : Tokens} {p : Position} {q : Query}
    (hAfter : after = middle ∨ after = middle ++ [⟨.endOfInput, p⟩])
    (hFront : ∀ t ∈ before ++ middle, t.token ≠ .endOfInput)
    (hQuery : IsQuery (before ++ (middle ++ [⟨.endOfInput, p⟩])) q) :
    Derives (before ++ after) q := by
  refine ⟨before ++ middle, p, ?_, hFront, by simpa using hQuery⟩
  rcases hAfter with rfl | rfl
  · exact .inl rfl
  · exact .inr (List.append_assoc ..).symm

/-- After a comma another item follows, or the end of a list, where the comma can be left out. -/
theorem Derives.after_comma {before after : Tokens} {p : Position} {q : Query}
    (h : Derives (before ++ ⟨.mark .comma, p⟩ :: after) q) :
    ∃ t rest, after = t :: rest ∧
      (t.token.Closes ∧ Derives (before ++ after) q ∨ t.token.StartsItem) := by
  obtain ⟨middle, r, hAfter, hFront, hQuery⟩ := h.split (by simp)
  obtain ⟨t, rest, hCons, hNext⟩ := hQuery.commasLead before p _ rfl
  have hSome : ∃ us, middle = t :: us := by
    cases middle with
    | nil =>
        cases hCons
        rcases hNext with hNext | hNext <;> cases hNext
    | cons u us =>
        cases hCons
        exact ⟨us, rfl⟩
  obtain ⟨us, rfl⟩ := hSome
  have hHead : ∃ rest, after = t :: rest := by
    rcases hAfter with rfl | rfl
    · exact ⟨us, rfl⟩
    · exact ⟨us ++ [⟨.endOfInput, r⟩], rfl⟩
  obtain ⟨rest, hRest⟩ := hHead
  refine ⟨t, rest, hRest, hNext.imp_left fun hCloses => ⟨hCloses, ?_⟩⟩
  exact derives_of_middle hAfter hFront
    (isQuery_recomma hQuery (Recomma.append before (.drop hCloses (Recomma.refl _ _))))

/-- Before the end of a list, a comma can stand after an item. -/
theorem Derives.add_comma {before after : Tokens} {t : PlacedToken} {q : Query}
    (h : Derives (before ++ t :: after) q) (hCloses : t.token.Closes) (hItem : EndsItem before)
    (p : Position) : Derives (before ++ ⟨.mark .comma, p⟩ :: t :: after) q := by
  have hToken : t.token ≠ .endOfInput := by
    intro hEnd
    rw [hEnd] at hCloses
    cases hCloses
  obtain ⟨middle, r, hAfter, hFront, hQuery⟩ := h.split hToken
  have hAdded := isQuery_recomma hQuery
    (Recomma.append before (.add (p := p) (by simpa using hItem) hCloses (Recomma.refl _ _)))
  have hTokens : ∀ u ∈ before ++ ⟨.mark .comma, p⟩ :: t :: middle, u.token ≠ .endOfInput := by
    simp only [List.forall_mem_append, List.forall_mem_cons] at hFront ⊢
    exact ⟨hFront.1, by simp, hToken, hFront.2⟩
  have hAfter' : ⟨.mark .comma, p⟩ :: t :: after = ⟨.mark .comma, p⟩ :: t :: middle ∨
      ⟨.mark .comma, p⟩ :: t :: after = ⟨.mark .comma, p⟩ :: t :: middle ++ [⟨.endOfInput, r⟩] :=
    hAfter.imp (congrArg fun rest => ⟨.mark .comma, p⟩ :: t :: rest)
      (congrArg fun rest => ⟨.mark .comma, p⟩ :: t :: rest)
  exact derives_of_middle hAfter' hTokens hAdded

end Grammar

open Grammar

/-- Tokens in a stream, with the end of the input after them. -/
theorem exists_front {ts : Tokens} (interior : ∀ t ∈ ts.dropLast, t.token ≠ .endOfInput) :
    ∃ front p, (ts = front ∨ ts = front ++ [⟨.endOfInput, p⟩]) ∧
      (∀ t ∈ front, t.token ≠ .endOfInput) ∧ ofList ts = ofTokens (front ++ [⟨.endOfInput, p⟩]) := by
  rcases List.eq_nil_or_concat ts with rfl | ⟨before, t, rfl⟩
  · exact ⟨[], .start, .inl rfl, by simp, rfl⟩
  · rw [List.concat_eq_append] at interior ⊢
    rw [List.dropLast_concat] at interior
    by_cases hEnd : t.token = .endOfInput
    · obtain ⟨token, p⟩ := t
      obtain rfl : token = .endOfInput := hEnd
      exact ⟨before, p, .inr rfl, interior, ofList_ended before p⟩
    · refine ⟨before ++ [t], t.position, .inl rfl, ?_, ofList_concat before hEnd⟩
      exact List.forall_mem_append.mpr ⟨interior, List.forall_mem_singleton.mpr hEnd⟩

/-- Reading gives exactly the derived query, provided that its nodes are admissible. The end of the
input stands nowhere but at the end. -/
theorem readQuery_ok_iff_derives {ts : Tokens}
    (interior : ∀ t ∈ ts.dropLast, t.token ≠ .endOfInput) (q : Query) :
    (ofList ts).readQuery.1 = .ok q ↔ Derives ts q ∧ q.Admissible := by
  obtain ⟨front, p, hTs, hFront, hStream⟩ := exists_front interior
  rw [hStream]
  constructor
  · intro h
    obtain ⟨hQuery, hAdmissible⟩ := isQuery_of_reads ⟨front, p, rfl, hFront⟩ (Prod.ext h rfl)
    exact ⟨⟨front, p, hTs, hFront, hQuery⟩, hAdmissible⟩
  · rintro ⟨⟨front', p', hTs', hFront', hQuery⟩, hAdmissible⟩
    obtain rfl := front_unique hTs hTs' hFront hFront'
    obtain ⟨rest, hReads⟩ := reads_query_of (hQuery.finish p) hAdmissible
    exact congrArg Prod.fst hReads

/-- The reader accepts exactly its grammar. Tokens with the end of the input nowhere but perhaps at
their end are read as a query exactly if they derive as that query and it repeats nothing that it must
not. No tokens derive as two queries. A comma that no item follows stands before a brace, a bracket or
a parenthesis that ends a list, where it makes no difference, and it can stand wherever such a mark
follows an item. -/
theorem readQuery_exact (ts : Tokens) (interior : ∀ t ∈ ts.dropLast, t.token ≠ .endOfInput) :
    (∀ q, (ofList ts).readQuery.1 = .ok q ↔ Derives ts q ∧ q.Admissible) ∧
      (∀ q q', Derives ts q → Derives ts q' → q = q') ∧
      (∀ before p after q, ts = before ++ ⟨.mark .comma, p⟩ :: after → Derives ts q →
        ∃ t rest, after = t :: rest ∧
          (t.token.Closes ∧ Derives (before ++ after) q ∨ t.token.StartsItem)) ∧
      (∀ before t after p q, ts = before ++ t :: after → t.token.Closes → EndsItem before →
        Derives ts q → Derives (before ++ ⟨.mark .comma, p⟩ :: t :: after) q) := by
  refine ⟨readQuery_ok_iff_derives interior, fun q q' h h' => h.unique h', ?_, ?_⟩
  · rintro before p after q rfl h
    exact h.after_comma
  · rintro before t after p q rfl hCloses hItem h
    exact h.add_comma hCloses hItem p

/-- The tokens of `Me \x7b first: tasks.0 \x7b id, \x7d \x7d`, all at one place. -/
def firstTaskTokens : Tokens :=
  [.name "Me", .mark .leftBrace, .name "first", .mark .colon, .name "tasks", .mark .dot, .integer 0,
    .mark .leftBrace, .name "id", .mark .comma, .mark .rightBrace, .mark .rightBrace].map (⟨·, .start⟩)

def firstTaskQuery : Query where
  head := ⟨none, [.member "Me" .start], .start⟩
  children := [.object ⟨some "first", [.member "tasks" .start, .index 0 .start], .start⟩
    [.field ⟨none, [.member "id" .start], .start⟩]]

/-- The query is derived from its tokens by rules of the grammar alone, without a reader. -/
theorem derives_firstTask : Derives firstTaskTokens firstTaskQuery := by
  refine ⟨firstTaskTokens, .start, .inl rfl, by simp [firstTaskTokens], ?_⟩
  exact .mk (.cons .member .nil)
    (.last (.block (.labelled (.cons .member (.dotted .index .nil)))
      (.object (.cons (.field (.plain (.cons .member .nil))) .nil))))

theorem firstTaskQuery_admissible : firstTaskQuery.Admissible := by
  have hId : Resource.Admissible (.field ⟨none, [.member "id" .start], .start⟩) :=
    .field (List.forall_mem_singleton.mpr trivial)
  refine ⟨List.forall_mem_singleton.mpr trivial, List.pairwise_singleton _ _,
    List.forall_mem_singleton.mpr (.object ?_ (List.pairwise_singleton _ _)
      (List.forall_mem_singleton.mpr hId))⟩
  exact List.forall_mem_cons.mpr ⟨trivial, List.forall_mem_singleton.mpr trivial⟩

theorem readQuery_exact_firstTask :
    (∀ t ∈ firstTaskTokens.dropLast, t.token ≠ .endOfInput) ∧
      (ofList firstTaskTokens).readQuery.1 = .ok firstTaskQuery := by
  have hInterior : ∀ t ∈ firstTaskTokens.dropLast, t.token ≠ .endOfInput := by
    simp [firstTaskTokens]
  exact ⟨hInterior, ((readQuery_exact firstTaskTokens hInterior).1 firstTaskQuery).mpr
    ⟨derives_firstTask, firstTaskQuery_admissible⟩⟩

end GatedQuery
