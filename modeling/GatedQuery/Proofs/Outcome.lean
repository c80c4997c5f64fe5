import Mathlib.Data.List.Forall2
import Mathlib.Data.List.Nodup

/-! Computations that can fail. A result of a sequence of steps is the result of its last step on
that of the steps before it, and what every step keeps holds of the result. A table answers with one
of its entries. -/

namespace GatedQuery

theorem mem_of_lookup {α : Type} {entries : List (String × α)} {key : String} {x : α}
    (h : entries.lookup key = some x) : (key, x) ∈ entries := by
  rw [List.lookup_eq_some_iff] at h
  obtain ⟨before, after, rfl, _⟩ := h
  simp

/-- In a table without repeated keys every entry is found. -/
theorem lookup_of_mem {α : Type} {entries : List (String × α)}
    (distinct : (entries.map Prod.fst).Nodup) {key : String} {x : α} (h : (key, x) ∈ entries) :
    entries.lookup key = some x := by
  have hFound : (entries.lookup key).isSome :=
    List.lookup_isSome_iff.mpr ⟨(key, x), h, beq_self_eq_true key⟩
  obtain ⟨y, hy⟩ := Option.isSome_iff_exists.mp hFound
  cases List.inj_on_of_nodup_map distinct h (mem_of_lookup hy) rfl
  exact hy

namespace Outcome

variable {ε α β : Type}

/-- A sequence that succeeds succeeds step by step, so that it can be taken apart. -/
theorem exists_of_bind_ok {x : Except ε α} {f : α → Except ε β} {y : β} (h : x >>= f = .ok y) :
    ∃ a, x = .ok a ∧ f a = .ok y := by
  cases x with
  | ok a => exact ⟨a, rfl, h⟩
  | error e => cases h

theorem bind_pure_error_iff {x : Except ε α} {f : α → β} {e : ε} :
    (do return f (← x) : Except ε β) = .error e ↔ x = .error e := by
  cases x with
  | ok a => exact ⟨nofun, nofun⟩
  | error e' => exact ⟨fun h => by cases h; rfl, fun h => by cases h; rfl⟩

theorem mapError_ok {δ : Type} {f : ε → δ} {x : Except ε α} {y : α} (h : x.mapError f = .ok y) :
    x = .ok y := by
  cases x with
  | ok a => exact congrArg Except.ok (Except.ok.inj h)
  | error e => cases h

/-- Renaming the failures of a sequence renames those of its steps. -/
theorem mapError_bind {δ : Type} {x : Except ε α} {f : α → Except ε β} {g : ε → δ} :
    (x >>= f).mapError g = x.mapError g >>= fun a => (f a).mapError g := by
  cases x <;> rfl

/-- What every step keeps holds at the end of a fold. -/
theorem foldlM_preserves {P : β → Prop} {f : β → α → Except ε β} {xs : List α} {first last : β}
    (step : ∀ b x c, x ∈ xs → P b → f b x = .ok c → P c) (hFirst : P first)
    (h : xs.foldlM f first = .ok last) : P last := by
  induction xs generalizing first with
  | nil =>
      cases h
      exact hFirst
  | cons x xs ih =>
      rw [List.foldlM_cons] at h
      obtain ⟨next, hNext, hRest⟩ := exists_of_bind_ok h
      exact ih (fun b y c hy => step b y c (List.mem_cons_of_mem x hy))
        (step first x next List.mem_cons_self hFirst hNext) hRest

/-- A map that succeeds does so at every item. -/
theorem mapM_ok {f : α → Except ε β} {xs : List α} {ys : List β} (h : xs.mapM f = .ok ys) :
    List.Forall₂ (fun x y => f x = .ok y) xs ys := by
  induction xs generalizing ys with
  | nil =>
      cases h
      exact .nil
  | cons x xs ih =>
      rw [List.mapM_cons] at h
      obtain ⟨first, hFirst, h⟩ := exists_of_bind_ok h
      obtain ⟨rest, hRest, h⟩ := exists_of_bind_ok h
      cases h
      exact .cons hFirst (ih hRest)

/-- A map succeeds if the function does at every item, whatever their order. -/
theorem exists_mapM_ok_iff {f : α → Except ε β} {xs : List α} :
    (∃ ys, xs.mapM f = .ok ys) ↔ ∀ x ∈ xs, ∃ y, f x = .ok y := by
  induction xs with
  | nil => exact ⟨fun _ _ hx => absurd hx List.not_mem_nil, fun _ => ⟨[], rfl⟩⟩
  | cons x xs ih =>
      rw [List.mapM_cons, List.forall_mem_cons, ← ih]
      constructor
      · rintro ⟨_, hOk⟩
        obtain ⟨y, hFirst, hOk⟩ := exists_of_bind_ok hOk
        obtain ⟨ys, hRest, _⟩ := exists_of_bind_ok hOk
        exact ⟨⟨y, hFirst⟩, ys, hRest⟩
      · rintro ⟨⟨y, hFirst⟩, ys, hRest⟩
        rw [hFirst, hRest]
        exact ⟨y :: ys, rfl⟩

theorem mapError_mapM {δ : Type} {f : α → Except ε β} {g : ε → δ} {xs : List α} :
    (xs.mapM f).mapError g = xs.mapM fun x => (f x).mapError g := by
  induction xs with
  | nil => rfl
  | cons x xs ih =>
      rw [List.mapM_cons, List.mapM_cons, mapError_bind, ← ih]
      cases f x with
      | error e => rfl
      | ok y => cases xs.mapM f <;> rfl

/-- Every result of a map comes from an item. -/
theorem exists_of_mem_mapM {f : α → Except ε β} {xs : List α} {ys : List β}
    (h : xs.mapM f = .ok ys) {y : β} (hy : y ∈ ys) : ∃ x ∈ xs, f x = .ok y := by
  have hResults := mapM_ok h
  clear h
  induction hResults with
  | nil => exact absurd hy List.not_mem_nil
  | @cons x _ xs _ hFirst _ ih =>
      cases hy with
      | head => exact ⟨x, List.mem_cons_self, hFirst⟩
      | tail _ hy =>
          obtain ⟨z, hz, hResult⟩ := ih hy
          exact ⟨z, List.mem_cons_of_mem x hz, hResult⟩

/-- The first item of a list that has a property. -/
def IsFirst (P : α → Prop) (xs : List α) (x : α) : Prop :=
  P x ∧ ∃ front back, xs = front ++ x :: back ∧ ∀ y ∈ front, ¬ P y

namespace IsFirst

variable {P Q : α → Prop} {x y : α} {xs : List α}

/-- An item with the property in front is the first one. -/
theorem head (h : P x) (xs : List α) : IsFirst P (x :: xs) x :=
  ⟨h, [], xs, rfl, fun _ hy => absurd hy List.not_mem_nil⟩

/-- Items without the property in front do not matter. -/
theorem tail (h : IsFirst P xs x) (hy : ¬ P y) : IsFirst P (y :: xs) x := by
  obtain ⟨hx, front, back, rfl, hFront⟩ := h
  exact ⟨hx, y :: front, back, rfl, List.forall_mem_cons.mpr ⟨hy, hFront⟩⟩

theorem mem (h : IsFirst P xs x) : x ∈ xs := by
  obtain ⟨_, front, back, rfl, _⟩ := h
  simp

/-- Properties that agree on the items have the same first one. -/
theorem imp (h : IsFirst P xs x) (hIff : ∀ y ∈ xs, P y ↔ Q y) : IsFirst Q xs x := by
  have hMem := h.mem
  obtain ⟨hx, front, back, rfl, hFront⟩ := h
  exact ⟨(hIff x hMem).mp hx, front, back, rfl, fun y hy =>
    (hIff y (List.mem_append_left _ hy)).not.mp (hFront y hy)⟩

end IsFirst

theorem not_error_of_ok {x : Except ε α} {a : α} (h : x = .ok a) : ¬ ∃ e, x = .error e := by
  rintro ⟨e, hError⟩
  cases h.symm.trans hError

/-- A map fails at the first item where the function does. -/
theorem mapM_error {f : α → Except ε β} {xs : List α} {e : ε} (h : xs.mapM f = .error e) :
    ∃ x, IsFirst (fun y => ∃ e, f y = .error e) xs x ∧ f x = .error e := by
  induction xs with
  | nil => cases h
  | cons x xs ih =>
      rw [List.mapM_cons] at h
      cases hFirst : f x with
      | error e' =>
          rw [hFirst] at h
          cases h
          exact ⟨x, .head ⟨e, hFirst⟩ xs, hFirst⟩
      | ok y =>
          rw [hFirst] at h
          obtain ⟨z, hz, hError⟩ := ih (bind_pure_error_iff.mp h)
          exact ⟨z, hz.tail (not_error_of_ok hFirst), hError⟩

theorem forM_cons (f : α → Except ε Unit) (x : α) (xs : List α) :
    (x :: xs).forM f = f x >>= fun _ => xs.forM f :=
  List.forM_cons

/-- Checks that agree on every item of a list end alike on the list. -/
theorem forM_congr {f g : α → Except ε Unit} {xs : List α} (h : ∀ x ∈ xs, f x = g x) :
    xs.forM f = xs.forM g := by
  induction xs with
  | nil => rfl
  | cons x xs ih =>
      obtain ⟨hFirst, hRest⟩ := List.forall_mem_cons.mp h
      rw [forM_cons, forM_cons, hFirst, ih hRest]

/-- A check that succeeds does so at every item. -/
theorem forM_ok {f : α → Except ε Unit} {xs : List α} {u : Unit} (h : xs.forM f = .ok u) :
    ∀ x ∈ xs, f x = .ok () := by
  induction xs with
  | nil => exact fun x hx => absurd hx List.not_mem_nil
  | cons x xs ih =>
      rw [forM_cons] at h
      obtain ⟨_, hFirst, hRest⟩ := exists_of_bind_ok h
      exact List.forall_mem_cons.mpr ⟨hFirst, ih hRest⟩

/-- A check fails at the first item where it does. -/
theorem forM_error {f : α → Except ε Unit} {xs : List α} {e : ε} (h : xs.forM f = .error e) :
    ∃ x, IsFirst (fun y => ∃ e, f y = .error e) xs x ∧ f x = .error e := by
  induction xs with
  | nil => cases h
  | cons x xs ih =>
      rw [forM_cons] at h
      cases hFirst : f x with
      | error e' =>
          rw [hFirst] at h
          cases h
          exact ⟨x, .head ⟨e, hFirst⟩ xs, hFirst⟩
      | ok _ =>
          rw [hFirst] at h
          obtain ⟨z, hz, hError⟩ := ih h
          exact ⟨z, hz.tail (not_error_of_ok hFirst), hError⟩

def require (P : α → Prop) [DecidablePred P] (problem : α → ε) (x : α) : Except ε Unit :=
  if P x then .ok () else .error (problem x)

theorem require_error_iff {P : α → Prop} [DecidablePred P] {problem : α → ε} {x : α} {e : ε} :
    require P problem x = .error e ↔ ¬ P x ∧ problem x = e := by
  unfold require
  split <;> simp_all

/-- If nothing is refused, every item meets the condition. -/
theorem forM_require_ok {P : α → Prop} [DecidablePred P] {problem : α → ε} {xs : List α} {u : Unit}
    (h : xs.forM (require P problem) = .ok u) : ∀ x ∈ xs, P x := by
  intro x hx
  by_contra hNot
  cases (forM_ok h x hx).symm.trans (require_error_iff.mpr ⟨hNot, rfl⟩)

/-- The item that is refused is the first one that does not meet the condition. -/
theorem forM_require_error {P : α → Prop} [DecidablePred P] {problem : α → ε} {xs : List α} {e : ε}
    (h : xs.forM (require P problem) = .error e) :
    ∃ x, IsFirst (fun y => ¬ P y) xs x ∧ problem x = e := by
  obtain ⟨x, hFirst, hError⟩ := forM_error h
  refine ⟨x, hFirst.imp fun y _ => ?_, (require_error_iff.mp hError).2⟩
  simp only [require_error_iff, exists_and_left, exists_eq', and_true]

end Outcome

section Tables

variable {β : Type} {names : List String}

theorem lookup_cons_of_ne {name key : String} {y : β} {entries : List (String × β)}
    (h : name ≠ key) : ((key, y) :: entries).lookup name = entries.lookup name := by
  rw [List.lookup_cons, beq_eq_false_iff_ne.mpr h]

/-- A table that has an entry for every name, in order, answers for these names. -/
theorem lookup_of_forall₂ {R : String → β → Prop} {entries : List (String × β)}
    (h : List.Forall₂ (fun name entry => entry.1 = name ∧ R name entry.2) names entries)
    (name : String) :
    (name ∈ names ∧ ∃ y, R name y ∧ entries.lookup name = some y) ∨
      (name ∉ names ∧ entries.lookup name = none) := by
  induction h with
  | nil => exact .inr ⟨List.not_mem_nil, rfl⟩
  | @cons first entry names entries hEntry _ ih =>
      obtain ⟨key, y⟩ := entry
      obtain ⟨rfl, hy⟩ := hEntry
      by_cases hSame : name = key
      · subst hSame
        exact .inl ⟨List.mem_cons_self, y, hy, List.lookup_cons_self⟩
      · rw [lookup_cons_of_ne hSame, List.mem_cons, or_iff_right hSame]
        exact ih

/-- Entries that are left out where there is no result. -/
theorem lookup_filterMap_of_forall₂ {R : String → Option β → Prop}
    {entries : List (Option (String × β))}
    (h : List.Forall₂ (fun name entry => ∃ y?, R name y? ∧ entry = y?.map (name, ·)) names entries)
    (name : String) :
    (name ∈ names ∧ R name ((entries.filterMap id).lookup name)) ∨
      (name ∉ names ∧ (entries.filterMap id).lookup name = none) := by
  induction h with
  | nil => exact .inr ⟨List.not_mem_nil, rfl⟩
  | @cons first entry names entries hEntry _ ih =>
      obtain ⟨y?, hy, rfl⟩ := hEntry
      cases y? with
      | none =>
          rw [Option.map_none, List.filterMap_cons_none rfl, List.mem_cons]
          by_cases hSame : name = first
          · subst hSame
            refine .inl ⟨.inl rfl, ?_⟩
            rcases ih with ⟨_, hLater⟩ | ⟨_, hNone⟩
            · exact hLater
            · rw [hNone]
              exact hy
          · rw [or_iff_right hSame]
            exact ih
      | some y =>
          rw [Option.map_some, List.filterMap_cons, List.mem_cons]
          change _ ∧ R name (((first, y) :: entries.filterMap id).lookup name) ∨
            _ ∧ ((first, y) :: entries.filterMap id).lookup name = none
          by_cases hSame : name = first
          · subst hSame
            rw [List.lookup_cons_self]
            exact .inl ⟨.inl rfl, hy⟩
          · rw [lookup_cons_of_ne hSame, or_iff_right hSame]
            exact ih

end Tables

end GatedQuery
