import GatedQuery.Proofs.Grammar.Acceptance
import GatedQuery.Proofs.Grammar.Confinement

/-! Streams of several queries. One stream can hold any number of queries, each with the end of the
input after it. They are read one after another, and each of them is read as if it were alone. -/

namespace GatedQuery

open Grammar TokenStream

/-- Tokens the last of which is the end of the input. It may stand before as well. -/
def Terminated (ts : Tokens) : Prop :=
  ∃ p, ts.getLast? = some ⟨.endOfInput, p⟩

namespace Terminated

variable {ts us : Tokens}

/-- Tokens that are terminated have an end of the input. -/
theorem mem (h : Terminated ts) : ∃ t ∈ ts, t.token = .endOfInput := by
  obtain ⟨p, hLast⟩ := h
  exact ⟨_, List.mem_of_getLast? hLast, rfl⟩

theorem getLast?_eq (suffix : us <:+ ts) (some : us ≠ []) : us.getLast? = ts.getLast? := by
  obtain ⟨front, rfl⟩ := suffix
  simp [List.getLast?_append, List.getLast?_eq_some_getLast some]

/-- What is left of terminated tokens is terminated. -/
theorem of_suffix (h : Terminated ts) (suffix : us <:+ ts) (some : us ≠ []) : Terminated us := by
  obtain ⟨p, hLast⟩ := h
  exact ⟨p, (getLast?_eq suffix some).trans hLast⟩

end Terminated

namespace TokenStream

/-- The stream that is left after so many queries have been read from it or have failed to be read.
-/
def after (s : TokenStream) : Nat → TokenStream
  | 0 => s
  | count + 1 => s.readQuery.2.after count

theorem all_ofTokens {ts : Tokens} (h : ts ≠ []) : (ofTokens ts).all = ts := by
  obtain ⟨t, us, rfl⟩ := List.exists_cons_of_ne_nil h
  rfl

/-- A stream is given by all its tokens. -/
theorem ofTokens_all (s : TokenStream) : ofTokens s.all = s := rfl

/-- Moving on never brings tokens back. -/
theorem all_advance_suffix (s : TokenStream) : s.advance.all <:+ s.all := by
  obtain ⟨t, us⟩ := s
  cases us with
  | nil => exact List.suffix_refl _
  | cons u us => exact List.suffix_cons t _

/-- Reading a query leaves a part of the stream, whether or not it succeeds. -/
theorem readQuery_suffix {s : TokenStream} (h : Terminated s.all) : s.readQuery.2.all <:+ s.all := by
  obtain ⟨front, more, hAll, hFront⟩ := exists_ended_prefix h.mem
  have hRun := readQuery_append hFront more
  rw [← hAll, ofTokens_all] at hRun
  rw [hAll]
  generalize (ofTokens front).readQuery = r at hRun
  generalize s.readQuery = r' at hRun
  cases hRun with
  | @ok q p left =>
      obtain ⟨before, rfl⟩ := left
      refine (all_advance_suffix _).trans ⟨before, ?_⟩
      simp [all]
  | error left ended =>
      obtain ⟨before, rfl⟩ := left
      obtain ⟨t, us, rfl⟩ := ended.exists_cons
      refine ⟨before, ?_⟩
      simp [all]

/-- However many queries were read, what is left is the end of what there was. -/
theorem after_suffix {s : TokenStream} (h : Terminated s.all) (count : Nat) :
    (s.after count).all <:+ s.all := by
  induction count generalizing s with
  | zero => exact List.suffix_refl _
  | succ count ih =>
      have hStep := readQuery_suffix h
      exact (ih (h.of_suffix hStep (List.cons_ne_nil _ _))).trans hStep

end TokenStream

/-- Tokens of queries and the places of the ends of the input after them, in one list. -/
def Tokens.joined (parts : List (Tokens × Position)) : Tokens :=
  parts.flatMap fun part => part.1 ++ [⟨.endOfInput, part.2⟩]

namespace TokenStream

/-- What is left behind the end of a query at the place `p`. The end of the last query stays. -/
def behind (p : Position) (parts : List (Tokens × Position)) : TokenStream :=
  (ofTokens (⟨.endOfInput, p⟩ :: Tokens.joined parts)).advance

/-- In front of the parts that are left stands the next one, with its end of the input. -/
theorem behind_cons (p : Position) (part : Tokens × Position) (parts : List (Tokens × Position)) :
    behind p (part :: parts) =
      ofTokens (part.1 ++ [⟨.endOfInput, part.2⟩] ++ Tokens.joined parts) :=
  ofTokens_advance (by simp [Tokens.joined])

/-- Parts that are joined are read from the front. -/
theorem ofList_joined (parts : List (Tokens × Position)) :
    ofList (Tokens.joined parts) = behind .start parts := by
  rcases List.eq_nil_or_concat parts with rfl | ⟨parts, part, rfl⟩
  · rfl
  · have hJoined : Tokens.joined (parts ++ [part]) =
        Tokens.joined parts ++ part.1 ++ [⟨.endOfInput, part.2⟩] := by
      simp [Tokens.joined]
    rw [List.concat_eq_append, behind, hJoined, ofTokens_advance (by simp), ofList_ended]

/-- The first query of a stream is read as if it were alone. When it succeeds, the others are left.
-/
theorem readQuery_behind {part : Tokens × Position} (apart : ∀ t ∈ part.1, t.token ≠ .endOfInput)
    (p : Position) (parts : List (Tokens × Position)) :
    (behind p (part :: parts)).readQuery.1 =
        (ofList (part.1 ++ [⟨.endOfInput, part.2⟩])).readQuery.1 ∧
      ∀ q, (behind p (part :: parts)).readQuery.1 = .ok q →
        (behind p (part :: parts)).readQuery.2 = behind part.2 parts := by
  obtain ⟨ts, r⟩ := part
  have hEnded : Ended (ts ++ [⟨.endOfInput, r⟩]) := ⟨ts, r, rfl, apart⟩
  have hRun := readQuery_append hEnded (Tokens.joined parts)
  rw [behind_cons, ofList_ended]
  generalize (ofTokens (ts ++ [⟨.endOfInput, r⟩])).readQuery = alone at hRun
  generalize (ofTokens (ts ++ [⟨.endOfInput, r⟩] ++ Tokens.joined parts)).readQuery = run at hRun
  cases hRun with
  | @ok q p left =>
      refine ⟨rfl, fun _ _ => ?_⟩
      obtain ⟨before, hBefore⟩ := left
      obtain ⟨_, hLast⟩ := List.append_inj' hBefore rfl
      cases hLast
      rfl
  | error => exact ⟨rfl, nofun⟩

/-- Behind the last query there is nothing to read. -/
theorem readQuery_behind_nil (p : Position) :
    (behind p []).readQuery = (.error (.unexpected .identifier .endOfInput p), behind p []) := rfl

/-- At the last end of the input nothing moves any more. -/
theorem after_behind_nil (p : Position) (count : Nat) : (behind p []).after count = behind p [] := by
  induction count with
  | zero => rfl
  | succ count ih => exact ih

/-- So many queries can be read from the stream one after another. -/
def Yields (s : TokenStream) (count : Nat) : Prop :=
  ∀ k < count, ∃ q, (s.after k).readQuery.1 = .ok q

theorem Yields.tail {s : TokenStream} {count : Nat} (h : s.Yields (count + 1)) :
    s.readQuery.2.Yields count :=
  fun k hk => h (k + 1) (Nat.succ_lt_succ hk)

/-- Reading some queries and then others is reading all of them. -/
theorem after_add (s : TokenStream) (j k : Nat) : s.after (j + k) = (s.after j).after k := by
  induction j generalizing s with
  | zero => rw [Nat.zero_add, after]
  | succ j ih => rw [Nat.succ_add, after, ih, after]

section Behind

variable {parts : List (Tokens × Position)}
  (apart : ∀ part ∈ parts, ∀ t ∈ part.1, t.token ≠ .endOfInput) (p : Position)

include apart

/-- The call for a part gives what a stream of that part alone gives, as long as the calls before
succeeded. -/
theorem readQuery_after_behind {k : Nat} {part : Tokens × Position} (at_k : parts[k]? = some part)
    (hBefore : (behind p parts).Yields k) :
    ((behind p parts).after k).readQuery.1 =
      (ofList (part.1 ++ [⟨.endOfInput, part.2⟩])).readQuery.1 := by
  induction parts generalizing k p with
  | nil => simp at at_k
  | cons first parts ih =>
      obtain ⟨hFirst, hMore⟩ := List.forall_mem_cons.mp apart
      obtain ⟨hAlone, hLeft⟩ := readQuery_behind hFirst p parts
      cases k with
      | zero =>
          cases at_k
          exact hAlone
      | succ k =>
          obtain ⟨q, hq⟩ := hBefore 0 (Nat.succ_pos k)
          have hTail := hBefore.tail
          rw [hLeft q hq] at hTail
          rw [after, hLeft q hq]
          exact ih hMore first.2 at_k hTail

/-- After all parts were read, the stream is at the last end of the input. -/
theorem after_behind_of_yields (hAll : (behind p parts).Yields parts.length) :
    ∃ r, (behind p parts).all.getLast? = some ⟨.endOfInput, r⟩ ∧
      (behind p parts).after parts.length = behind r [] := by
  induction parts generalizing p with
  | nil => exact ⟨p, rfl, rfl⟩
  | cons first parts ih =>
      obtain ⟨hFirst, hMore⟩ := List.forall_mem_cons.mp apart
      obtain ⟨_, hLeft⟩ := readQuery_behind hFirst p parts
      obtain ⟨q, hq⟩ := hAll 0 (Nat.succ_pos _)
      have hTail := hAll.tail
      rw [hLeft q hq] at hTail
      obtain ⟨r, hLast, hAfter⟩ := ih hMore first.2 hTail
      refine ⟨r, ?_, by rw [List.length_cons, after, hLeft q hq, hAfter]⟩
      have hSuffix : (behind first.2 parts).all <:+ (behind p (first :: parts)).all := by
        rw [behind_cons, all_ofTokens (by simp)]
        refine (all_advance_suffix _).trans ⟨first.1, ?_⟩
        simp [all]
      rw [← hLast]
      exact (Terminated.getLast?_eq hSuffix (List.cons_ne_nil _ _)).symm

end Behind

/-- The parts end with an end of the input, each of them and so all together. -/
theorem terminated_behind (p : Position) (parts : List (Tokens × Position)) :
    Terminated (behind p parts).all := by
  have hJoined : Terminated (⟨.endOfInput, p⟩ :: Tokens.joined parts) := by
    rcases List.eq_nil_or_concat parts with rfl | ⟨parts, part, rfl⟩
    · exact ⟨p, rfl⟩
    · exact ⟨part.2, by simp [Tokens.joined, List.getLast?_cons, List.getLast?_append]⟩
  exact hJoined.of_suffix (all_advance_suffix _) (List.cons_ne_nil _ _)

end TokenStream

/-- One stream can hold any number of queries. As long as all queries before it have been read, each
of them is read as it is from a stream of its own that ends with it, to the same query or the same
problem, at the same places. After the last one every further reading fails at the last end of the
input and leaves the stream as it is. A stream has a current token at any time, and reading only
ever leaves a part of the tokens at its end, whether or not it succeeds. -/
theorem readQuery_stream (parts : List (Tokens × Position))
    (apart : ∀ part ∈ parts, ∀ t ∈ part.1, t.token ≠ .endOfInput) :
    (∀ k part, parts[k]? = some part → (ofList (Tokens.joined parts)).Yields k →
      ((ofList (Tokens.joined parts)).after k).readQuery.1 =
        (ofList (part.1 ++ [⟨.endOfInput, part.2⟩])).readQuery.1) ∧
    ((ofList (Tokens.joined parts)).Yields parts.length →
      ∃ p, (ofList (Tokens.joined parts)).all.getLast? = some ⟨.endOfInput, p⟩ ∧
        ∀ k, parts.length ≤ k → ((ofList (Tokens.joined parts)).after k).readQuery =
          (.error (.unexpected .identifier .endOfInput p), (ofList (Tokens.joined parts)).after k)) ∧
    ∀ j k, j ≤ k →
      ((ofList (Tokens.joined parts)).after k).all <:+
        ((ofList (Tokens.joined parts)).after j).all := by
  rw [ofList_joined]
  refine ⟨fun k part => readQuery_after_behind apart .start, fun hAll => ?_, fun j k hLe => ?_⟩
  · obtain ⟨p, hLast, hAfter⟩ := after_behind_of_yields apart .start hAll
    refine ⟨p, hLast, fun k hk => ?_⟩
    obtain ⟨more, rfl⟩ := Nat.exists_eq_add_of_le hk
    rw [after_add, hAfter, after_behind_nil, readQuery_behind_nil]
  · obtain ⟨more, rfl⟩ := Nat.exists_eq_add_of_le hLe
    have hStart := terminated_behind .start parts
    rw [after_add]
    exact after_suffix (hStart.of_suffix (after_suffix hStart j) (List.cons_ne_nil _ _)) more

/-- The same query twice, in one stream. -/
def twoQueries : List (Tokens × Position) :=
  [(firstTaskTokens, .start), (firstTaskTokens, .start)]

theorem readQuery_stream_twoQueries :
    (∀ part ∈ twoQueries, ∀ t ∈ part.1, t.token ≠ .endOfInput) ∧
      (ofList (Tokens.joined twoQueries)).Yields 2 ∧
      ((ofList (Tokens.joined twoQueries)).after 1).readQuery.1 =
        (ofList (firstTaskTokens ++ [⟨.endOfInput, .start⟩])).readQuery.1 ∧
      ∃ p, ∀ k, 2 ≤ k → ((ofList (Tokens.joined twoQueries)).after k).readQuery =
        (.error (.unexpected .identifier .endOfInput p),
          (ofList (Tokens.joined twoQueries)).after k) := by
  have hApart : ∀ part ∈ twoQueries, ∀ t ∈ part.1, t.token ≠ .endOfInput := by
    simp [twoQueries, firstTaskTokens]
  have hYields : (ofList (Tokens.joined twoQueries)).Yields 2 := by
    intro k hk
    have hPlace : k = 0 ∨ k = 1 := by omega
    rcases hPlace with rfl | rfl <;> exact ⟨firstTaskQuery, rfl⟩
  obtain ⟨hAlone, hBeyond, _⟩ := readQuery_stream twoQueries hApart
  have hFirst : (ofList (Tokens.joined twoQueries)).Yields 1 :=
    fun k hk => hYields k (Nat.lt_succ_of_lt hk)
  obtain ⟨p, _, hFails⟩ := hBeyond hYields
  exact ⟨hApart, hYields, hAlone 1 (firstTaskTokens, .start) rfl hFirst, p, hFails⟩

end GatedQuery
