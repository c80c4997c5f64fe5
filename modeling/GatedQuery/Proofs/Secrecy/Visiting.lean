import GatedQuery.Command.Run
import GatedQuery.Proofs.AllowList.Building
import GatedQuery.Proofs.Secrecy.Solving

/-! Builds and runs that visit inherited members in different orders. They have the same result or
fail for the same reason; where a type inherits several ambiguous members, the one that is named may
be another one. -/

namespace GatedQuery

open Outcome

/-- A problem without the ambiguous member that it names. -/
def DeclarationError.withoutMember : DeclarationError → DeclarationError
  | .ambiguousMember type _ _ => .ambiguousMember type "" []
  | e => e

def CommandError.withoutMember : CommandError → CommandError
  | .declaration e => .declaration e.withoutMember
  | e => e

namespace Secrecy

variable {O : Type}

def SameTable (x y : MemberTable O) : Prop :=
  ∀ m, x.lookup m = y.lookup m

/-- Allow-lists with the same entry points that resolve every member in the same way. -/
def SameAnswers (a b : AllowList O) : Prop :=
  a.entries = b.entries ∧ ∀ type m, a.accessor? type m = b.accessor? type m

section Tables

variable {h : Hierarchy O} {d : TypeDeclaration O} {names names' : List String}

/-- Looking an inherited member up fails for no other reason than that it is ambiguous. -/
theorem withoutMember_of_inheritedEntry {t m : String} {e : DeclarationError}
    (hError : h.inheritedEntry t m = .error e) : e.withoutMember = .ambiguousMember t "" [] := by
  have hInherited := Hierarchy.inheritedEntry_error_iff.mp hError
  unfold Hierarchy.inherited? at hInherited
  dsimp only at hInherited
  split at hInherited
  next =>
    cases hInherited
    rfl
  next => cases hInherited

/-- The entries that are found for the same names answer alike. -/
theorem lookup_inheritedEntries (perm : names.Perm names')
    {found found' : List (Option (String × Accessor O))}
    (hFound : names.mapM (h.inheritedEntry d.name) = .ok found)
    (hFound' : names'.mapM (h.inheritedEntry d.name) = .ok found') (m : String) :
    (found.filterMap id).lookup m = (found'.filterMap id).lookup m := by
  have hEntries := (mapM_ok hFound).imp fun _ _ => Hierarchy.inheritedEntry_ok
  have hEntries' := (mapM_ok hFound').imp fun _ _ => Hierarchy.inheritedEntry_ok
  rcases lookup_filterMap_of_forall₂ hEntries m with ⟨hMem, hx⟩ | ⟨hOther, hNone⟩
  · rcases lookup_filterMap_of_forall₂ hEntries' m with ⟨_, hx'⟩ | ⟨hOther', _⟩
    · exact Except.ok.inj (hx.symm.trans hx')
    · exact absurd (perm.mem_iff.mp hMem) hOther'
  · rcases lookup_filterMap_of_forall₂ hEntries' m with ⟨hMem', _⟩ | ⟨_, hNone'⟩
    · exact absurd (perm.mem_iff.mpr hMem') hOther
    · rw [hNone, hNone']

/-- A table does not depend on the order of visiting, and whether there is one does not either. -/
theorem memberTableVisiting_same (perm : names.Perm names') :
    SameOutcome SameTable ((h.memberTableVisiting names d).mapError DeclarationError.withoutMember)
      ((h.memberTableVisiting names' d).mapError DeclarationError.withoutMember) := by
  have hOk : (∃ found, names.mapM (h.inheritedEntry d.name) = .ok found) ↔
      ∃ found, names'.mapM (h.inheritedEntry d.name) = .ok found := by
    rw [exists_mapM_ok_iff, exists_mapM_ok_iff]
    exact forall_congr' fun m => imp_congr_left perm.mem_iff
  unfold Hierarchy.memberTableVisiting
  cases d.inherits with
  | false => exact .ok fun _ => rfl
  | true =>
      cases hFound : names.mapM (h.inheritedEntry d.name) with
      | ok found =>
          obtain ⟨found', hFound'⟩ := hOk.mp ⟨found, hFound⟩
          rw [hFound']
          refine .ok fun m => ?_
          rw [List.lookup_append, List.lookup_append, lookup_inheritedEntries perm hFound hFound']
      | error e =>
          cases hFound' : names'.mapM (h.inheritedEntry d.name) with
          | ok found' =>
              obtain ⟨found, hNone⟩ := hOk.mpr ⟨found', hFound'⟩
              cases hFound.symm.trans hNone
          | error e' =>
              -- Each order stops at the first ambiguous name it reaches, so these may be two names.
              obtain ⟨m, _, hError⟩ := mapM_error hFound
              obtain ⟨m', _, hError'⟩ := mapM_error hFound'
              change SameOutcome SameTable (.error e.withoutMember) (.error e'.withoutMember)
              rw [withoutMember_of_inheritedEntry hError, withoutMember_of_inheritedEntry hError']
              exact .error _

end Tables

section Building

variable (order order' : VisitingOrder O)

/-- The table of a type is the same in every order of visiting, or is refused in every order. -/
theorem tableEntry_same (h : Hierarchy O) (d : TypeDeclaration O) :
    SameOutcome (fun x y => x.1 = y.1 ∧ SameTable x.2 y.2)
      ((h.tableEntry order d).mapError DeclarationError.withoutMember)
      ((h.tableEntry order' d).mapError DeclarationError.withoutMember) := by
  unfold Hierarchy.tableEntry
  rw [mapError_bind, mapError_bind]
  refine sameOutcome_bind (memberTableVisiting_same ?_) fun _ _ hTable => .ok ⟨rfl, hTable⟩
  exact (order.perm h d).trans (order'.perm h d).symm

theorem lookup_sameTables {xs ys : List (String × MemberTable O)}
    (same : List.Forall₂ (fun x y => x.1 = y.1 ∧ SameTable x.2 y.2) xs ys) (type m : String) :
    (xs.lookup type).bind (·.lookup m) = (ys.lookup type).bind (·.lookup m) := by
  induction same with
  | nil => rfl
  | @cons x y _ _ head _ ih =>
      obtain ⟨t, table⟩ := x
      obtain ⟨_, table'⟩ := y
      obtain ⟨rfl, hTable⟩ := head
      rw [List.lookup_cons, List.lookup_cons]
      cases type == t with
      | true => exact hTable m
      | false => exact ih

/-- The order of visiting takes part in making the tables only. -/
theorem ofDraftVisiting_same (draft : Draft O) :
    SameOutcome SameAnswers
      ((AllowList.ofDraftVisiting order draft).mapError DeclarationError.withoutMember)
      ((AllowList.ofDraftVisiting order' draft).mapError DeclarationError.withoutMember) := by
  unfold AllowList.ofDraftVisiting
  simp only [mapError_bind, mapError_mapM]
  apply sameOutcome_bind_same
  intro _
  apply sameOutcome_bind_same
  intro _
  have hTypes : List.Forall₂ Eq draft.types draft.types := List.forall₂_refl _
  apply sameOutcome_bind (sameOutcome_mapM hTypes ?_) fun _ _ hTables =>
    .ok ⟨rfl, lookup_sameTables hTables⟩
  rintro d _ rfl
  exact tableEntry_same order order' draft.types d

/-- The order of visiting decides neither whether there is an allow-list nor what it answers. -/
theorem ofStepsVisiting_same [Inspectable O] (steps : List (Declaration O)) :
    SameOutcome SameAnswers
      ((AllowList.ofStepsVisiting order steps).mapError DeclarationError.withoutMember)
      ((AllowList.ofStepsVisiting order' steps).mapError DeclarationError.withoutMember) := by
  unfold AllowList.ofStepsVisiting
  rw [mapError_bind, mapError_bind]
  exact sameOutcome_bind_same fun draft => ofDraftVisiting_same order order' draft

end Building

variable (order order' : VisitingOrder DocumentObject)

/-- The same of the allow-list for a document. -/
theorem documentAllowList_same (c : Configuration) (roots : List (String × Json)) :
    SameOutcome SameAnswers ((documentAllowList order c roots).mapError CommandError.withoutMember)
      ((documentAllowList order' c roots).mapError CommandError.withoutMember) := by
  unfold documentAllowList
  rw [mapError_bind, mapError_bind]
  apply sameOutcome_bind_same
  intro types
  have hSame := ofStepsVisiting_same order order' (types ++ (roots.filter fun root =>
    c.exposes root.1).map fun root => .entry (documentRoot root.1 root.2.toDocument))
  have hLift (z : Except DeclarationError (AllowList DocumentObject)) :
      (z.mapError CommandError.declaration).mapError CommandError.withoutMember =
        (z.mapError DeclarationError.withoutMember).mapError CommandError.declaration := by
    cases z <;> rfl
  rw [hLift, hLift]
  exact sameOutcome_mapError hSame _

theorem eq_of_sameOutcome {ε α : Type} {x y : Except ε α} (h : SameOutcome Eq x y) : x = y := by
  cases h with
  | ok related => rw [related]
  | error e => rfl

/-- The order of visiting does not change the output of a query, and of an error only the ambiguous
member that it names. -/
theorem runQueryVisiting_withoutMember (options : RunOptions) :
    (runQueryVisiting order options).mapError CommandError.withoutMember =
      (runQueryVisiting order' options).mapError CommandError.withoutMember := by
  apply eq_of_sameOutcome
  unfold runQueryVisiting
  rw [mapError_bind, mapError_bind]
  apply sameOutcome_bind_same
  intro q
  rw [mapError_bind, mapError_bind]
  apply sameOutcome_bind_same
  intro c
  cases options.document with
  | none => exact .error _
  | some text =>
      simp only [mapError_bind]
      apply sameOutcome_bind_same
      intro roots
      apply sameOutcome_bind_same
      intro _
      apply sameOutcome_bind (documentAllowList_same order order' c roots)
      rintro a b ⟨hEntries, hAccessors⟩
      have hAnswers : (solve a q).outcome = (solve b q).outcome :=
        solve_congr (fun name => by rw [AllowList.entryPoint?, hEntries]; rfl) hAccessors q
      rw [hAnswers]
      exact sameOutcome_refl _ fun _ => rfl

/-- Runs with the same output or the same error. If they visit inherited members in different orders
and a type inherits several that are ambiguous, their errors may name different ones of them. -/
structure RunsAlike (first second : RunOptions) : Prop where
  same_order : ∀ order, runQueryVisiting order first = runQueryVisiting order second
  any_order : ∀ order order', (runQueryVisiting order first).mapError CommandError.withoutMember =
    (runQueryVisiting order' second).mapError CommandError.withoutMember

/-- Runs that end alike in every single order end alike in any two, up to the member that is named. -/
theorem RunsAlike.of_same_order {first second : RunOptions}
    (h : ∀ order, runQueryVisiting order first = runQueryVisiting order second) :
    RunsAlike first second :=
  ⟨h, fun order order' => h order ▸ runQueryVisiting_withoutMember order order' second⟩

/-- Roots that pass the same check and make allow-lists by which every query has the same answer. -/
structure AnswerAlike (c : Configuration) (left right : List (String × Json)) : Prop where
  checked : checkEntryPoints c left = checkEntryPoints c right
  solved : ∀ order q, SameOutcome (fun a b => (solve a q).outcome = (solve b q).outcome)
    (documentAllowList order c left) (documentAllowList order c right)

/-- The query and the configuration are read in the same way whatever the document is. -/
theorem runsAlike_of_answerAlike {options : RunOptions} {first second : String}
    (h : ∀ c, Configuration.ofText options.configuration = .ok c →
      SameOutcome (AnswerAlike c) (documentRoots first) (documentRoots second)) :
    RunsAlike { options with document := some first } { options with document := some second } := by
  refine .of_same_order fun order => ?_
  apply eq_of_sameOutcome
  unfold runQueryVisiting
  apply sameOutcome_bind_same
  intro q
  cases hConfiguration : Configuration.ofText options.configuration with
  | error e => exact .error e
  | ok c =>
      change SameOutcome Eq (documentRoots first >>= fun roots => _)
        (documentRoots second >>= fun roots => _)
      apply sameOutcome_bind (h c hConfiguration)
      intro left right hAlike
      rw [hAlike.checked]
      apply sameOutcome_bind_same
      intro _
      apply sameOutcome_bind (hAlike.solved order q)
      intro a b hAnswers
      rw [hAnswers]
      exact sameOutcome_refl _ fun _ => rfl

end Secrecy

end GatedQuery
