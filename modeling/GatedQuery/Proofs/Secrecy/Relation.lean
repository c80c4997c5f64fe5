import GatedQuery.Solve.Resolve
import Mathlib.Data.List.Forall2

/-! What two backends may differ in without a query noticing. A relation between their values says
which of them stand for each other. It only has to hold of what the allow-list leaves to the objects
themselves; a member that is denied, or for which a filter stands in, may answer anything. As a
filter may also get a slice or a character of a value, the relation has to hold of these, too. -/

namespace GatedQuery

namespace Secrecy

variable {O P : Type}

def SameEntry (rel : Value O → Value P → Prop) (e : String × Value O) (f : String × Value P) :
    Prop :=
  e.1 = f.1 ∧ rel e.2 f.2

/-- Values of one builtin shape whose parts are related. Whether two objects are related is left to
the relation itself. -/
inductive SameShape (rel : Value O → Value P → Prop) : Value O → Value P → Prop where
  | null : SameShape rel .null .null
  | boolean (b : Bool) : SameShape rel (.boolean b) (.boolean b)
  | integer (n : Int64) : SameShape rel (.integer n) (.integer n)
  | float (x : Float) : SameShape rel (.float x) (.float x)
  | string (s : String) : SameShape rel (.string s) (.string s)
  | list {xs : List (Value O)} {ys : List (Value P)} (items : List.Forall₂ rel xs ys) :
      SameShape rel (.list xs) (.list ys)
  | map {es : List (String × Value O)} {fs : List (String × Value P)}
      (entries : List.Forall₂ (SameEntry rel) es fs) : SameShape rel (.map es) (.map fs)
  | object {o : O} {p : P} (related : rel (.object o) (.object p)) :
      SameShape rel (.object o) (.object p)

/-- Outcomes that are the same failure, or results that are related. -/
inductive SameOutcome {ε α β : Type} (rel : α → β → Prop) : Except ε α → Except ε β → Prop where
  | ok {x : α} {y : β} (related : rel x y) : SameOutcome rel (.ok x) (.ok y)
  | error (e : ε) : SameOutcome rel (.error e) (.error e)

section Outcomes

variable {ε α β γ δ : Type} {R : α → β → Prop} {S : γ → δ → Prop}

/-- Runs that go on alike from related results fail alike or end in related results. -/
theorem sameOutcome_bind {x : Except ε α} {y : Except ε β} {f : α → Except ε γ}
    {g : β → Except ε δ} (h : SameOutcome R x y)
    (next : ∀ a b, R a b → SameOutcome S (f a) (g b)) : SameOutcome S (x >>= f) (y >>= g) := by
  cases h with
  | ok related => exact next _ _ related
  | error e => exact .error e

/-- Going on in related ways from one and the same outcome. -/
theorem sameOutcome_bind_same {x : Except ε α} {f : α → Except ε γ} {g : α → Except ε δ}
    (next : ∀ a, SameOutcome S (f a) (g a)) : SameOutcome S (x >>= f) (x >>= g) := by
  cases x with
  | ok a => exact next a
  | error e => exact .error e

theorem sameOutcome_mapError {δ : Type} {x : Except ε α} {y : Except ε β} (h : SameOutcome R x y)
    (f : ε → δ) : SameOutcome R (x.mapError f) (y.mapError f) := by
  cases h with
  | ok related => exact .ok related
  | error e => exact .error (f e)

theorem sameOutcome_refl {R : α → α → Prop} (x : Except ε α) (h : ∀ a, R a a) :
    SameOutcome R x x := by
  cases x with
  | ok a => exact .ok (h a)
  | error e => exact .error e

theorem SameOutcome.imp {R' : α → β → Prop} {x : Except ε α} {y : Except ε β} (h : SameOutcome R x y)
    (weaker : ∀ a b, R a b → R' a b) : SameOutcome R' x y := by
  cases h with
  | ok related => exact .ok (weaker _ _ related)
  | error e => exact .error e

/-- Items that are related one by one give related results, or the same first failure. -/
theorem sameOutcome_mapM {f : α → Except ε γ} {g : β → Except ε δ} {xs : List α} {ys : List β}
    (h : List.Forall₂ R xs ys) (each : ∀ a b, R a b → SameOutcome S (f a) (g b)) :
    SameOutcome (List.Forall₂ S) (xs.mapM f) (ys.mapM g) := by
  induction h with
  | nil => exact .ok .nil
  | cons head _ ih =>
      rw [List.mapM_cons, List.mapM_cons]
      apply sameOutcome_bind (each _ _ head)
      intro _ _ hFirst
      exact sameOutcome_bind ih fun _ _ hRest => .ok (.cons hFirst hRest)

end Outcomes

/-- Accessors that do the same: both leave the member to the value, or both are filters with related
answers for related receivers. The arguments are those that a query can write. -/
inductive SameAccessor (rel : Value O → Value P → Prop) : Accessor O → Accessor P → Prop where
  | native : SameAccessor rel .native .native
  | filter {f : Filter O} {g : Filter P}
      (answers : ∀ v w, rel v w → ∀ args : List Argument,
        SameOutcome rel (f.run v (.ofQuery args)) (g.run w (.ofQuery args))) :
      SameAccessor rel (.filter f) (.filter g)

section Lists

variable {α β : Type} {R : α → β → Prop} {xs : List α} {ys : List β}

/-- Items at the same place are related, or both places are past the end. -/
theorem related_getElem? (h : List.Forall₂ R xs ys) (i : Nat) : Option.Rel R xs[i]? ys[i]? := by
  induction h generalizing i with
  | nil => exact .none
  | cons head _ ih =>
      cases i with
      | zero => exact .some head
      | succ i => exact ih i

theorem optionRel_refl {S : α → α → Prop} (h : ∀ a, S a a) (x : Option α) : Option.Rel S x x := by
  cases x with
  | none => exact .none
  | some a => exact .some (h a)

theorem related_map {γ δ : Type} {S : γ → δ → Prop} {f : α → γ} {g : β → δ} {x : Option α}
    {y : Option β} (h : Option.Rel R x y) (hf : ∀ a b, R a b → S (f a) (g b)) :
    Option.Rel S (x.map f) (y.map g) := by
  cases h with
  | none => exact .none
  | some related => exact .some (hf _ _ related)

/-- The place of an index depends on the length alone. -/
theorem related_item? (h : List.Forall₂ R xs ys) (i : Int64) :
    Option.Rel R (Slice.item? xs i) (Slice.item? ys i) := by
  unfold Slice.item?
  rw [h.length_eq]
  cases Slice.resolve? i ys.length with
  | none => exact .none
  | some place => exact related_getElem? h place

/-- The places that a slice selects depend on the length alone. -/
theorem related_select (h : List.Forall₂ R xs ys) (start stop : Option Int64) (step : Int64) :
    List.Forall₂ R (Slice.select xs start stop step) (Slice.select ys start stop step) := by
  unfold Slice.select
  rw [h.length_eq]
  have hPlaces : List.Forall₂ Eq (Slice.indices ys.length start stop step)
      (Slice.indices ys.length start stop step) := List.forall₂_refl _
  exact List.rel_filterMap (fun i j hij => hij ▸ related_getElem? h i) hPlaces

end Lists

variable {rel : Value O → Value P → Prop}

/-- Entries under the same keys in the same order have related first entries. -/
theorem related_lookup {es : List (String × Value O)} {fs : List (String × Value P)}
    (h : List.Forall₂ (SameEntry rel) es fs) (key : String) :
    Option.Rel rel (es.lookup key) (fs.lookup key) := by
  induction h with
  | nil => exact .none
  | @cons e f _ _ head _ ih =>
      obtain ⟨k, v⟩ := e
      obtain ⟨l, w⟩ := f
      obtain ⟨hKey, hValue⟩ := head
      change k = l at hKey
      subst hKey
      rw [List.lookup_cons, List.lookup_cons]
      cases key == k with
      | true => exact .some hValue
      | false => exact ih

/-- The values of related entries are related, as the keys are the same. -/
theorem related_values {es : List (String × Value O)} {fs : List (String × Value P)}
    (h : List.Forall₂ (SameEntry rel) es fs) :
    List.Forall₂ rel (es.map Prod.snd) (fs.map Prod.snd) :=
  List.rel_map (fun _ _ hEntry => hEntry.2) h

variable [Backend O] [Backend P]

/-- What a query can find out about two objects is the same. Of their attributes and methods this
asks only for those that the allow-list leaves to objects of their type. -/
structure SameView (a : AllowList O) (rel : Value O → Value P → Prop) (o : O) (p : P) : Prop where
  typeName : Inspectable.typeName o = Inspectable.typeName p
  render : Backend.render o = Backend.render p
  elements : Option.Rel (List.Forall₂ rel) (Backend.elements o) (Backend.elements p)
  read : ∀ name, a.accessor? (Inspectable.typeName o) name = some .native →
    Option.Rel rel (Inspectable.read o name) (Inspectable.read p name)
  call : ∀ name, a.accessor? (Inspectable.typeName o) name = some .native →
    ∀ args : List Argument, Option.Rel (SameOutcome rel) (Backend.call o name (.ofQuery args))
      (Backend.call p name (.ofQuery args))

/-- Two worlds whose related values have one shape and whose objects, entry points and filters
answer alike. -/
structure Corresponds (a : AllowList O) (b : AllowList P) (rel : Value O → Value P → Prop) :
    Prop where
  shape : ∀ v w, rel v w → SameShape rel v w
  objects : ∀ o p, rel (.object o) (.object p) → SameView a rel o p
  entries : ∀ name, Option.Rel
    (fun e f => ∀ args : List Argument,
      SameOutcome rel (e.enter (.ofQuery args)) (f.enter (.ofQuery args)))
    (a.entryPoint? name) (b.entryPoint? name)
  accessors : ∀ type name, Option.Rel (SameAccessor rel) (a.accessor? type name)
    (b.accessor? type name)

/-- Relations that also hold of the parts which a query takes out of related values: of what a slice
selects, and of the characters of a string. The items of lists and the entries of maps are related
by the shape of these. -/
structure ClosedUnderParts (rel : Value O → Value P → Prop) : Prop where
  slices : ∀ v w, rel v w → ∀ start stop step position x y,
    v.slice start stop step position = .ok x → w.slice start stop step position = .ok y → rel x y
  characters : ∀ s, rel (.string s) (.string s) → ∀ c ∈ s.toList,
    rel (.string c.toString) (.string c.toString)

/-- Two worlds that no query can tell apart. -/
structure Indistinguishable (a : AllowList O) (b : AllowList P) (rel : Value O → Value P → Prop) :
    Prop extends Corresponds a b rel, ClosedUnderParts rel

/-- A relation that holds of all values whose shape it relates holds of their parts. -/
theorem closedUnderParts_of_iff (shape : ∀ v w, rel v w ↔ SameShape rel v w)
    (elements : ∀ o p, rel (.object o) (.object p) →
      Option.Rel (List.Forall₂ rel) (Backend.elements o) (Backend.elements p)) :
    ClosedUnderParts rel := by
  have hList {xs : List (Value O)} {ys : List (Value P)} (items : List.Forall₂ rel xs ys)
      (start stop : Option Int64) (step : Int64) :
      rel (.list (Slice.select xs start stop step)) (.list (Slice.select ys start stop step)) :=
    (shape _ _).mpr (.list (related_select items start stop step))
  refine ⟨fun v w hv start stop step position x y hx hy => ?_,
    fun s _ c _ => (shape _ _).mpr (.string c.toString)⟩
  cases (shape v w).mp hv with
  | string s =>
      cases hx
      cases hy
      exact (shape _ _).mpr (.string _)
  | list items =>
      cases hx
      cases hy
      exact hList items start stop step
  | @object o p related =>
      have hItems := elements o p related
      simp only [Value.slice, Value.subscripts] at hx hy
      generalize Backend.elements o = xs at hItems hx
      generalize Backend.elements p = ys at hItems hy
      cases hItems with
      | none => cases hx
      | some items =>
          cases hx
          cases hy
          exact hList items start stop step
  | _ => cases hx

namespace Indistinguishable

variable {a : AllowList O} {b : AllowList P} {v : Value O} {w : Value P}

/-- The conditions that suffice if the relation holds of all values whose shape it relates: it is
then closed under parts by itself. -/
theorem of_iff (shape : ∀ v w, rel v w ↔ SameShape rel v w)
    (objects : ∀ o p, rel (.object o) (.object p) → SameView a rel o p)
    (entries : ∀ name, Option.Rel
      (fun e f => ∀ args : List Argument,
        SameOutcome rel (e.enter (.ofQuery args)) (f.enter (.ofQuery args)))
      (a.entryPoint? name) (b.entryPoint? name))
    (accessors : ∀ type name, Option.Rel (SameAccessor rel) (a.accessor? type name)
      (b.accessor? type name)) : Indistinguishable a b rel where
  shape v w := (shape v w).mp
  objects := objects
  entries := entries
  accessors := accessors
  toClosedUnderParts := closedUnderParts_of_iff shape fun o p ho => (objects o p ho).elements

/-- Related values have one type name. That of objects is part of what has to be the same. -/
theorem typeName_eq (h : Indistinguishable a b rel) (hv : rel v w) : v.typeName = w.typeName := by
  cases h.shape v w hv with
  | object related => exact (h.objects _ _ related).typeName
  | _ => rfl

theorem isNull_eq (h : Indistinguishable a b rel) (hv : rel v w) : v.isNull = w.isNull := by
  cases h.shape v w hv <;> rfl

/-- Null only stands for null. -/
theorem null_of_isNull (h : Indistinguishable a b rel) (hv : rel v w) (hNull : v.isNull = true) :
    rel .null .null := by
  cases h.shape v w hv with
  | null => exact hv
  | _ => cases hNull

/-- What can be indexed on one side can be on the other, with related items. -/
theorem subscripts (h : Indistinguishable a b rel) (hv : rel v w) :
    Option.Rel (List.Forall₂ rel) v.subscripts w.subscripts := by
  cases h.shape v w hv with
  | list items => exact .some items
  | string s =>
      have hEach := h.characters s hv
      apply Option.Rel.some
      generalize s.toList = cs at hEach
      induction cs with
      | nil => exact .nil
      | cons c cs ih =>
          obtain ⟨hFirst, hRest⟩ := List.forall_mem_cons.mp hEach
          exact .cons hFirst (ih hRest)
  | object related => exact (h.objects _ _ related).elements
  | _ => exact .none

/-- What can be iterated on one side can be on the other, with related items. -/
theorem elements (h : Indistinguishable a b rel) (hv : rel v w) :
    Option.Rel (List.Forall₂ rel) v.elements w.elements := by
  have hSubscripts := h.subscripts hv
  cases h.shape v w hv with
  | null => exact .some .nil
  | map entries => exact .some (related_values entries)
  | _ => exact hSubscripts

/-- The outcome of an index for what is found under it. -/
theorem found (h : Indistinguishable a b rel) (hv : rel v w) (i : Int64) (position : Position)
    {x : Option (Option (Value O))} {y : Option (Option (Value P))} :
    Option.Rel (Option.Rel rel) x y → SameOutcome rel
      (match x with
        | none => .error (ResolutionError.notSubscriptable v.typeName position)
        | some none => .error (ResolutionError.indexNotFound i v.typeName position)
        | some (some item) => .ok item)
      (match y with
        | none => .error (ResolutionError.notSubscriptable w.typeName position)
        | some none => .error (ResolutionError.indexNotFound i w.typeName position)
        | some (some item) => .ok item) := by
  rw [h.typeName_eq hv]
  intro hFound
  cases hFound with
  | none => exact .error _
  | some inner =>
      cases inner with
      | none => exact .error _
      | some related => exact .ok related

/-- An index finds related items, or fails alike. -/
theorem item (h : Indistinguishable a b rel) (hv : rel v w) (i : Int64) (position : Position) :
    SameOutcome rel (v.item i position) (w.item i position) := by
  have hItems := related_map (h.subscripts hv) (fun _ _ items => related_item? items i)
  cases h.shape v w hv with
  | map entries => exact h.found hv i position (.some (related_lookup entries _))
  | _ => exact h.found hv i position hItems

/-- A slice succeeds on both sides or on none, and what it selects is related by assumption. -/
theorem slice (h : Indistinguishable a b rel) (hv : rel v w) (start stop : Option Int64)
    (step : Int64) (position : Position) :
    SameOutcome rel (v.slice start stop step position) (w.slice start stop step position) := by
  have hTaken := h.slices v w hv start stop step position
  have hFails : SameOutcome rel (.error (ResolutionError.notSubscriptable v.typeName position))
      (.error (ResolutionError.notSubscriptable w.typeName position)) := by
    rw [h.typeName_eq hv]
    exact .error _
  cases h.shape v w hv with
  | string s => exact .ok (hTaken _ _ rfl rfl)
  | list items => exact .ok (hTaken _ _ rfl rfl)
  | @object o p related =>
      have hItems := (h.objects o p related).elements
      simp only [Value.slice, Value.subscripts] at hTaken ⊢
      generalize Backend.elements o = xs at hItems hTaken
      generalize Backend.elements p = ys at hItems hTaken
      cases hItems with
      | none => exact hFails
      | some _ => exact .ok (hTaken _ _ rfl rfl)
  | _ => exact hFails

end Indistinguishable

end Secrecy

end GatedQuery
