import GatedQuery.Proofs.Grammar.Fails
import GatedQuery.Proofs.Grammar.Places
import GatedQuery.Proofs.Grammar.Soundness

/-! Where readers fail. Every problem is at the place of a token that was there to read, and a repeated
key is read after the one that it repeats. -/

namespace GatedQuery

open Grammar Reading TokenStream

/-- A problem at one of the places, which are in the order of the text. What a repeated key repeats is
before it. -/
structure QueryError.Within (places : List Position) (e : QueryError) : Prop where
  position : e.position ∈ places
  first : ∀ key p first, e = .duplicateKey key p first → [first, p].Sublist places

namespace QueryError.Within

variable {places places' : List Position} {e : QueryError}

/-- A problem within some places is within any places that contain them in order. -/
theorem mono (h : e.Within places) (sublist : places.Sublist places') : e.Within places' :=
  ⟨sublist.subset h.position, fun key p first he => (h.first key p first he).trans sublist⟩

/-- A problem other than a repeated key. -/
theorem single (position : e.position ∈ places)
    (other : ∀ key p first, e ≠ .duplicateKey key p first) : e.Within places :=
  ⟨position, fun key p first he => absurd he (other key p first)⟩

end QueryError.Within

namespace Reading

variable {α : Type} {ts : Tokens} {e : QueryError} {s : TokenStream}

/-- A reader whose problems are at tokens that it is given, or repeat what is at one of the places
`front` before them. -/
def Refuses (front : List Position) (m : Reading α) : Prop :=
  ∀ ts e s, Ended ts → Fails m (ofTokens ts) e s → e.Within (front ++ ts.places)

/-- A reader that leaves tokens that it is given. -/
def Leaves (m : Reading α) : Prop :=
  Finds m fun ts rest _ => rest.places.Sublist ts.places

/-- A reader that starts at the front of the tokens fails within them. -/
theorem Refuses.within {m : Reading α} (h : Refuses [] m) (ended : Ended ts)
    (hFails : Fails m (ofTokens ts) e s) : e.Within ts.places :=
  h ts e s ended hFails

/-- A problem further on. -/
theorem Refuses.later {m : Reading α} {us : Tokens} (h : Refuses [] m) (ended : Ended us)
    (sublist : us.places.Sublist ts.places) (hFails : Fails m (ofTokens us) e s) :
    e.Within ts.places :=
  (h.within ended hFails).mono sublist

theorem places_tail (t : PlacedToken) (us : Tokens) : us.places.Sublist (Tokens.places (t :: us)) :=
  List.sublist_cons_self ..

/-- The current token is one of the tokens, at the latest their end. -/
theorem mem_places_current (ended : Ended ts) : (ofTokens ts).current.position ∈ ts.places := by
  obtain ⟨t, us, rfl⟩ := ended.exists_cons
  exact List.mem_cons_self

/-- A complaint about the current token is placed within the tokens. -/
theorem within_of_unexpected {expected : Expectation} (ended : Ended ts)
    (h : e = .unexpected expected (ofTokens ts).current.token (ofTokens ts).current.position) :
    e.Within ts.places := by
  rw [h]
  exact .single (mem_places_current ended) (by simp)

theorem refuses_unexpected (expected : Expectation) :
    Refuses [] (unexpected expected : Reading α) := by
  intro ts e s ended h
  exact within_of_unexpected ended (fails_unexpected.mp h).1

/-- A missing mark is reported at a token of the input. -/
theorem refuses_take (m : Mark) (expected : Expectation) : Refuses [] (take m expected) := by
  intro ts e s ended h
  obtain ⟨_, hHere, _⟩ := fails_take.mp h
  exact within_of_unexpected ended hHere

section Separated

variable {item : Tokens → Tokens → α → Prop} {read : List α → Reading α} {close : Mark}
  {between : Expectation} {before : List α} {front : List Position} {fuel : Nat}

/-- Where a list fails, when every item can only repeat what is at the places of items before it. -/
theorem within_of_separated {invariant : List α → Prop} (placesOf : α → List Position)
    (finds : ∀ before, invariant before →
      Finds (read before) fun ts rest x => item ts rest x ∧ invariant (before ++ [x]))
    (covers : ∀ ts rest x, item ts rest x → Covers ts rest (placesOf x) [])
    (refuses : ∀ before front, invariant before → (∀ x ∈ before, placesOf x ⊆ front) →
      Refuses front (read before))
    (hBefore : invariant before) (hFront : ∀ x ∈ before, placesOf x ⊆ front) (ended : Ended ts)
    (h : Fails (separated close between read fuel before) (ofTokens ts) e s) :
    e.Within (front ++ ts.places) := by
  induction fuel generalizing before front ts with
  | zero =>
      exact ((refuses_unexpected between).within ended h).mono (List.sublist_append_right ..)
  | succ fuel ih =>
      obtain ⟨_, hItem | ⟨x, t, hRead, hMore⟩⟩ := fails_separated_succ.mp h
      · exact refuses before front hBefore hFront ts e s ended hItem
      · obtain ⟨us, rfl, hUs, hHead, hAdded⟩ := finds before hBefore ts x t ended hRead
        obtain ⟨taken, rfl, _, hTaken⟩ := covers _ _ _ hHead
        have hPlaces : front ++ (taken ++ us : Tokens).places =
            front ++ Tokens.places taken ++ us.places := by
          rw [Tokens.places, List.map_append, List.append_assoc]
          rfl
        have hFront' : ∀ y ∈ before ++ [x], placesOf y ⊆ front ++ Tokens.places taken := by
          refine List.forall_mem_append.mpr ⟨fun y hy => ?_, List.forall_mem_singleton.mpr ?_⟩
          · exact List.subset_append_of_subset_left _ (hFront y hy)
          · exact List.subset_append_of_subset_right _ hTaken
        rw [hPlaces]
        rcases hMore with ⟨_, hMore⟩ | ⟨_, hTake | ⟨hComma, hMore⟩⟩
        · exact ih hAdded hFront' hUs hMore
        · exact ((refuses_take _ _).within hUs hTake).mono (List.sublist_append_right ..)
        · obtain ⟨_, vs, rfl, hVs, hAdvance⟩ := hUs.exists_mark hComma
          rw [hAdvance] at hMore
          exact (ih hAdded hFront' hVs hMore).mono (List.Sublist.append_left (places_tail _ _) _)

/-- A list fails in an item or between items. The places of the items before count as seen, since an
item may be compared with them. -/
theorem refuses_list {invariant : List α → Prop} (placesOf : α → List Position)
    (finds : ∀ before, invariant before →
      Finds (read before) fun ts rest x => item ts rest x ∧ invariant (before ++ [x]))
    (covers : ∀ ts rest x, item ts rest x → Covers ts rest (placesOf x) [])
    (refuses : ∀ before front, invariant before → (∀ x ∈ before, placesOf x ⊆ front) →
      Refuses front (read before))
    (hNone : invariant []) : Refuses [] (list close between read) := by
  intro ts e s ended h
  exact within_of_separated placesOf finds covers refuses hNone
    (fun x hx => absurd hx List.not_mem_nil) ended (fails_list.mp h)

end Separated

theorem refuses_literal : Refuses [] literal := by
  intro ts e s ended h
  obtain ⟨_, hHere, _⟩ := fails_literal.mp h
  exact within_of_unexpected ended hHere

/-- A positional argument that comes too late is reported at its own place. -/
theorem within_of_positional {before : List Argument} {p : Position} (ended : Ended ts)
    (hPlace : p ∈ ts.places) (h : Fails (argument.positional before p) (ofTokens ts) e s) :
    e.Within ts.places := by
  rcases fails_positional.mp h with ⟨_, rfl, _⟩ | ⟨_, hLiteral⟩
  · exact .single hPlace (by simp)
  · exact refuses_literal.within ended hLiteral

/-- A repeated name is reported at the name, which is one of the tokens. -/
theorem refuses_argument (before : List Argument) : Refuses [] (argument before) := by
  intro ts e s ended h
  rcases fails_argument.mp h with ⟨n, hName, hSign, ⟨_, rfl, _⟩ | ⟨_, hLiteral⟩⟩ | ⟨_, hPositional⟩
  · exact .single (mem_places_current ended) (by simp)
  · obtain ⟨_, us, rfl, hUs, hAdvance⟩ := ended.exists_token hName Token.noConfusion
    obtain ⟨sign, vs, rfl⟩ := hUs.exists_cons
    have hNot : sign.token ≠ .endOfInput := by
      have hMarked : sign.token = .mark .colon ∨ sign.token = .mark .equals := sign_of_isSign hSign
      rcases hMarked with hMark | hMark <;> simp [hMark]
    rw [hAdvance, hUs.advance hNot] at hLiteral
    exact refuses_literal.later (hUs.tail hNot) ((places_tail _ _).trans (places_tail _ _)) hLiteral
  · exact within_of_positional ended (mem_places_current ended) hPositional

/-- A call fails within its arguments. -/
theorem refuses_segment : Refuses [] segment := by
  intro ts e s ended h
  rcases fails_segment.mp h with ⟨n, hName, hOpen, hArguments⟩ | ⟨_, hHere, _⟩
  · obtain ⟨_, us, rfl, hUs, hAdvance⟩ := ended.exists_token hName Token.noConfusion
    rw [hAdvance] at hOpen hArguments
    obtain ⟨_, vs, rfl, hVs, hAdvance⟩ := hUs.exists_mark hOpen
    rw [hAdvance] at hArguments
    have hList : Refuses [] (list .rightParen .commaOrParen argument) :=
      refuses_list (fun _ => []) (fun _ => finds_argument) (fun _ _ _ ha => ha.covers)
        (fun before front _ _ ts e s hTs ha =>
          ((refuses_argument before).within hTs ha).mono (List.sublist_append_right ..)) ordered_nil
    exact hList.later hVs ((places_tail _ _).trans (places_tail _ _)) hArguments
  · exact within_of_unexpected ended hHere

/-- A step of zero is reported at the number, which is one of the tokens. -/
theorem refuses_slice (start : Option Int64) (p : Position) : Refuses [] (slice start p) := by
  intro ts e s ended h
  rcases fails_slice.mp h with hTake | ⟨hColon, stop, t, hStop, hStride, step, u, _, _, rfl, _⟩
  · exact (refuses_take _ _).within ended hTake
  · obtain ⟨_, us, rfl, hUs, hAdvance⟩ := ended.exists_mark hColon
    rw [hAdvance] at hStop
    obtain ⟨vs, rfl, hVs, hSecond⟩ := finds_integer us stop t hUs hStop
    obtain ⟨_, ws, rfl, hWs, hAdvance⟩ := hVs.exists_mark hStride
    rw [hAdvance]
    refine .single ?_ (by simp)
    have hLater := (places_tail _ ws).trans hSecond.covers.sublist
    exact (hLater.trans (places_tail _ us)).subset (mem_places_current hWs)

theorem within_of_subscript (ended : Ended ts) (h : FailsSubscript (ofTokens ts) e s) :
    e.Within ts.places := by
  rcases h with ⟨i, hInteger, hIndex⟩ | ⟨_, hSlice⟩
  · obtain ⟨_, hSlice⟩ := fails_indexOrSlice.mp hIndex
    obtain ⟨_, us, rfl, hUs, hAdvance⟩ := ended.exists_token hInteger Token.noConfusion
    rw [hAdvance] at hSlice
    exact (refuses_slice _ _).later hUs (places_tail _ _) hSlice
  · exact (refuses_slice _ _).within ended hSlice

/-- Whatever is wrong behind a dot is reported at a token of the step. -/
theorem refuses_dottedStep : Refuses [] dottedStep := by
  intro ts e s ended h
  rcases fails_dottedStep.mp h with ⟨_, _, hSegment⟩ | hSubscript | ⟨_, _, _, hHere, _⟩
  · exact refuses_segment.within ended hSegment
  · exact within_of_subscript ended hSubscript
  · exact within_of_unexpected ended hHere

theorem refuses_bracketStep : Refuses [] bracketStep := by
  intro ts e s ended h
  rcases fails_bracketStep.mp h with hSubscript | ⟨_, _, hHere, _⟩ | ⟨x, t, hRead, hTake⟩
  · exact within_of_subscript ended hSubscript
  · exact within_of_unexpected ended hHere
  · obtain ⟨us, rfl, hUs, hHead, _⟩ := exists_subscript_of_reads ended hRead
    exact (refuses_take _ _).later hUs hHead.covers.sublist hTake

/-- A step behind a dot is a part of the tokens, and leaves the rest. -/
theorem leaves_dottedStep : Leaves dottedStep := by
  intro ts x s ended h
  rcases reads_dottedStep.mp h with ⟨_, _, hSegment⟩ | hSubscript
  · obtain ⟨us, rfl, hUs, hHead, _⟩ := finds_segment ts x s ended hSegment
    exact ⟨us, rfl, hUs, hHead.covers.sublist⟩
  · obtain ⟨us, rfl, hUs, hHead, _⟩ := exists_subscript_of_reads ended hSubscript
    exact ⟨us, rfl, hUs, hHead.covers.sublist⟩

theorem leaves_bracketStep : Leaves bracketStep := by
  intro ts x s ended h
  obtain ⟨t, hSubscript, hClose, rfl⟩ := reads_bracketStep.mp h
  obtain ⟨us, rfl, hUs, hHead, _⟩ := exists_subscript_of_reads ended hSubscript
  obtain ⟨_, vs, rfl, hVs, hAdvance⟩ := hUs.exists_mark hClose
  exact ⟨vs, hAdvance, hVs, (places_tail _ _).trans hHead.covers.sublist⟩

/-- The loop over a chain fails in one of its steps. The induction is on the fuel. -/
theorem refuses_steps (fuel : Nat) (before : List Step) : Refuses [] (steps fuel before) := by
  induction fuel generalizing before with
  | zero => exact refuses_unexpected .step
  | succ fuel ih =>
      intro ts e s ended h
      rcases fails_steps_succ.mp h with ⟨hDot, hStep⟩ | ⟨_, hOpen, hStep⟩
      · obtain ⟨_, us, rfl, hUs, hAdvance⟩ := ended.exists_mark hDot
        rw [hAdvance] at hStep
        rcases hStep with hStep | ⟨x, t, hRead, hMore⟩
        · exact refuses_dottedStep.later hUs (places_tail _ _) hStep
        · obtain ⟨vs, rfl, hVs, hSublist⟩ := leaves_dottedStep us x t hUs hRead
          exact (ih _).later hVs (hSublist.trans (places_tail _ _)) hMore
      · obtain ⟨_, us, rfl, hUs, hAdvance⟩ := ended.exists_mark (Bool.and_eq_true_iff.mp hOpen).1
        rw [hAdvance] at hStep
        rcases hStep with hStep | ⟨x, t, hRead, hMore⟩
        · exact refuses_bracketStep.later hUs (places_tail _ _) hStep
        · obtain ⟨vs, rfl, hVs, hSublist⟩ := leaves_bracketStep us x t hUs hRead
          exact (ih _).later hVs (hSublist.trans (places_tail _ _)) hMore

/-- A chain fails in its first name or in the loop over its other steps. -/
theorem refuses_chain : Refuses [] chain := by
  intro ts e s ended h
  rcases fails_chain.mp h with hSegment | ⟨x, t, hRead, hMore⟩
  · exact refuses_segment.within ended hSegment
  · obtain ⟨us, rfl, hUs, hHead, _⟩ := finds_segment ts x t ended hRead
    exact (refuses_steps _ _).later hUs hHead.covers.sublist hMore

theorem leaves_label : Leaves label? := by
  intro ts label s ended h
  rcases reads_label.mp h with ⟨n, hName, hColon, rfl, rfl⟩ | ⟨_, rfl, rfl⟩
  · obtain ⟨_, us, rfl, hUs, hAdvance⟩ := ended.exists_token hName Token.noConfusion
    obtain ⟨u, us, rfl⟩ := hUs.exists_cons
    obtain ⟨_, vs, hCons, hVs, hNext⟩ := hUs.exists_mark hColon
    cases hCons
    refine ⟨us, ?_, hVs, (places_tail _ _).trans (places_tail _ _)⟩
    rw [hAdvance, hNext]
  · exact ⟨ts, rfl, ended, .refl _⟩

variable {body : Head → Reading Resource}

/-- A resource fails within its head or within its body. -/
theorem refuses_named (refuses : ∀ h, Refuses [] (body h)) : Refuses [] (named body) := by
  intro ts e s ended h
  obtain ⟨label, t, hLabel, hChain⟩ := fails_named.mp h
  obtain ⟨us, rfl, hUs, hSublist⟩ := leaves_label ts label t ended hLabel
  rcases hChain with hChain | ⟨chain, u, hRead, hBody⟩
  · exact refuses_chain.later hUs hSublist hChain
  · obtain ⟨vs, rfl, hVs, hSteps, _⟩ := finds_chain us chain u hUs hRead
    exact (refuses _).later hVs (hSteps.covers.sublist.trans hSublist) hBody

/-- The place of a resource is the place of one of its tokens. -/
theorem covers_named {rest : Tokens} {r : Resource} (h : Named Block ts rest r) :
    Covers ts rest [r.position] [] :=
  (h.covers (block_covers r)).weaken
    (by rw [Resource.nodes_eq_cons]; exact List.cons_subset_cons _ (List.nil_subset _))
    (List.nil_sublist _)

/-- What a repeated key repeats is before it. -/
theorem refuses_child (finds : FindsBody body) (refuses : ∀ h, Refuses [] (body h))
    {before : List Resource} {front : List Position}
    (hFront : ∀ r ∈ before, [r.position] ⊆ front) : Refuses front (child body before) := by
  intro ts e s ended h
  rcases fails_child.mp h with hNamed | ⟨r, key, first, hRead, _, hFirst, rfl⟩
  · exact ((refuses_named refuses).within ended hNamed).mono (List.sublist_append_right ..)
  · obtain ⟨rest, rfl, _, hNamed, _⟩ := finds_named finds ts r s ended hRead
    obtain ⟨taken, rfl, _, hTaken⟩ := covers_named hNamed
    have hPlace : r.position ∈ (taken ++ rest : Tokens).places := by
      rw [Tokens.places, List.map_append]
      exact List.mem_append_left _ (hTaken _ List.mem_cons_self)
    have hBefore : first.position ∈ front :=
      hFront first (List.mem_of_find?_eq_some hFirst) List.mem_cons_self
    refine ⟨List.mem_append_right _ hPlace, ?_⟩
    rintro _ _ _ ⟨⟩
    exact (List.singleton_sublist.mpr hBefore).append (List.singleton_sublist.mpr hPlace)

/-- An item fails within its tokens, or at the token that should have started one. -/
theorem refuses_item (refuses : ∀ h, Refuses [] (body h)) (before : List Resource) :
    Refuses [] (item body before) := by
  intro ts e s ended h
  rcases fails_item.mp h with ⟨_, hBody⟩ | ⟨_, hNamed⟩ | ⟨_, _, _, hHere, _⟩
  · exact (refuses _).within ended hBody
  · exact (refuses_named refuses).within ended hNamed
  · exact within_of_unexpected ended hHere

/-- A child with the key of an earlier one is reported at a place after that of the earlier one. -/
theorem refuses_children (finds : FindsBody body) (refuses : ∀ h, Refuses [] (body h)) :
    Refuses [] (list .rightBrace .commaOrBrace (child body)) :=
  refuses_list (fun r => [r.position]) (fun _ => finds_child finds) (fun _ _ _ => covers_named)
    (fun _ _ _ => refuses_child finds refuses) children_nil

theorem refuses_items (finds : FindsBody body) (refuses : ∀ h, Refuses [] (body h)) :
    Refuses [] (list .rightBracket .commaOrBracket (item body)) :=
  refuses_list (fun _ => []) (fun _ => finds_item finds)
    (fun _ _ r h => (h.covers (block_covers r)).weaken (List.nil_subset _) (List.nil_sublist _))
    (fun before _ _ _ _ _ _ ended h =>
      ((refuses_item refuses before).within ended h).mono (List.sublist_append_right ..))
    (fun _ hr => absurd hr List.not_mem_nil)

/-- A body fails within its tokens at every depth. The induction is on the depth. -/
theorem refuses_body (depth : Nat) (h : Head) : Refuses [] (Reading.body depth h) := by
  induction depth generalizing h with
  | zero => exact refuses_unexpected .listItem
  | succ depth ih =>
      intro ts e s ended hFails
      rcases fails_body_succ.mp hFails with ⟨hOpen, hItems⟩ | ⟨_, hOpen, hChildren⟩
      · obtain ⟨_, us, rfl, hUs, hAdvance⟩ := ended.exists_mark hOpen
        rw [hAdvance] at hItems
        rcases hItems with ⟨_, hHere⟩ | ⟨_, hItems⟩
        · exact (refuses_unexpected .listItem).later hUs (places_tail _ _) hHere
        · exact (refuses_items (finds_body depth) ih).later hUs (places_tail _ _) hItems
      · obtain ⟨_, us, rfl, hUs, hAdvance⟩ := ended.exists_mark hOpen
        rw [hAdvance] at hChildren
        exact (refuses_children (finds_body depth) ih).later hUs (places_tail _ _) hChildren

/-- A query fails within its tokens. -/
theorem refuses_query : Refuses [] query := by
  intro ts e s ended h
  rcases fails_query.mp h with hChain | ⟨steps, t, hRead, hRest⟩
  · exact refuses_chain.within ended hChain
  · obtain ⟨us, rfl, hUs, hSteps, _⟩ := finds_chain ts steps t ended hRead
    have hSublist := hSteps.covers.sublist
    rcases hRest with hTake | ⟨hOpen, hChildren⟩
    · exact (refuses_take _ _).later hUs hSublist hTake
    · obtain ⟨_, vs, rfl, hVs, hAdvance⟩ := hUs.exists_mark hOpen
      rw [hAdvance] at hChildren
      have hLater := (places_tail _ vs).trans hSublist
      rcases hChildren with hChildren | ⟨children, u, hRead, _, hHere, _⟩
      · exact (refuses_children (finds_body _) (refuses_body _)).later hVs hLater hChildren
      · obtain ⟨ws, rfl, hWs, hList, _⟩ :=
          finds_list (fun _ => finds_child (finds_body _)) children_nil vs children u hVs hRead
        have hCovers := parts_cover hList fun r _ _ _ hChild => hChild.covers (block_covers r)
        exact (within_of_unexpected hWs hHere).mono (hCovers.sublist.trans hLater)

end Reading

/-- Whatever is wrong with tokens is wrong at the place of one of them. -/
theorem within_of_readQuery {ts : Tokens} {e : QueryError} (ended : Ended ts)
    (h : (ofTokens ts).readQuery.1 = .error e) : e.Within ts.places :=
  refuses_query.within ended (Prod.ext h rfl)

end GatedQuery
