import GatedQuery.Filter.Catalogue
import GatedQuery.Proofs.Outcome
import GatedQuery.Proofs.Secrecy.Relation

/-! Builtin filters look at the builtin shape of a value and at the name of its type, and at nothing
else. Related receivers therefore have related answers. -/

namespace GatedQuery

namespace Secrecy

variable {O : Type}

/-- Relations on the values of one backend that only look at builtin shapes and names of types. -/
structure Structural [Inspectable O] (rel : Value O → Value O → Prop) : Prop where
  shape : ∀ v w, rel v w ↔ SameShape rel v w
  typeName_eq : ∀ v w, rel v w → v.typeName = w.typeName

/-- Arguments that stand for themselves, such as those that a query writes. -/
structure SelfRelated (rel : Value O → Value O → Prop) (args : Arguments O) : Prop where
  positional : ∀ v ∈ args.positional, rel v v
  named : ∀ e ∈ args.named, rel e.2 e.2

namespace SelfRelated

variable {rel : Value O → Value O → Prop} {args : Arguments O}

theorem of_lookup (h : SelfRelated rel args) {name : String} {x : Value O}
    (found : args.named.lookup name = some x) : rel x x :=
  h.named (name, x) (mem_of_lookup found)

theorem of_get? (h : SelfRelated rel args) {i : Nat} {name : String} {x : Value O}
    (found : args.get? i name = some x) : rel x x := by
  unfold Arguments.get? at found
  cases hPositional : args.positional[i]? with
  | some y =>
      rw [hPositional] at found
      cases found
      exact h.positional x (List.mem_of_getElem? hPositional)
  | none =>
      rw [hPositional] at found
      exact h.of_lookup found

/-- Naming positional arguments keeps them related to themselves. -/
theorem byName (h : SelfRelated rel args) (params : List String) :
    SelfRelated rel (args.byName params) := by
  refine ⟨fun v hv => absurd hv List.not_mem_nil, fun e he => ?_⟩
  obtain ⟨⟨name, i⟩, _, hFound⟩ := List.mem_filterMap.mp he
  obtain ⟨x, hGet, rfl⟩ := Option.map_eq_some_iff.mp hFound
  exact h.of_get? hGet

end SelfRelated

/-- A builtin filter with related answers for related receivers. -/
def Respects (rel : Value O → Value O → Prop) (b : Builtin O) : Prop :=
  ∀ args, SelfRelated rel args → ∀ v w, rel v w → SameOutcome rel (b.body v args) (b.body w args)

namespace Structural

variable [Inspectable O] {rel : Value O → Value O → Prop} {v w : Value O}

/-- A string is related to itself. -/
theorem string (h : Structural rel) (s : String) : rel (.string s) (.string s) :=
  (h.shape _ _).mpr (.string s)

/-- Lists of related items are related. -/
theorem list (h : Structural rel) {xs ys : List (Value O)} (items : List.Forall₂ rel xs ys) :
    rel (.list xs) (.list ys) :=
  (h.shape _ _).mpr (.list items)

/-- A list of strings is related to itself. -/
theorem strings (h : Structural rel) {α : Type} (xs : List α) (f : α → String) :
    rel (.list (xs.map fun x => .string (f x))) (.list (xs.map fun x => .string (f x))) := by
  apply h.list
  induction xs with
  | nil => exact .nil
  | cons x _ ih => exact .cons (h.string (f x)) ih

/-- Related receivers are of one kind, so that both are accepted or both refused with the same
words. -/
theorem receive (h : Structural rel) (hv : rel v w) {α : Type} {R : α → α → Prop}
    (expected : String) (kind? : Value O → Option α)
    (parts : Option.Rel R (kind? v) (kind? w)) :
    SameOutcome R (Builtin.receive expected kind? v) (Builtin.receive expected kind? w) := by
  unfold Builtin.receive
  rw [h.typeName_eq v w hv]
  revert parts
  generalize kind? v = x
  generalize kind? w = y
  intro parts
  cases parts with
  | none => exact .error _
  | some related => exact .ok related

theorem receiveString (h : Structural rel) (hv : rel v w) :
    SameOutcome Eq (Builtin.receiveString v) (Builtin.receiveString w) := by
  apply h.receive hv "a string" _
  cases (h.shape v w).mp hv with
  | string s => exact .some rfl
  | _ => exact .none

theorem receiveList (h : Structural rel) (hv : rel v w) :
    SameOutcome (List.Forall₂ rel) (Builtin.receiveList v) (Builtin.receiveList w) := by
  apply h.receive hv "a list" _
  cases (h.shape v w).mp hv with
  | list items => exact .some items
  | _ => exact .none

/-- Related maps have the same keys in the same order. -/
theorem receiveMap (h : Structural rel) (hv : rel v w) :
    SameOutcome (List.Forall₂ (SameEntry rel)) (Builtin.receiveMap v) (Builtin.receiveMap w) := by
  apply h.receive hv "a map" _
  cases (h.shape v w).mp hv with
  | map entries => exact .some entries
  | _ => exact .none

theorem receiveLength (h : Structural rel) (hv : rel v w) :
    SameOutcome Eq (Builtin.receive "a string, list or map" Builtin.length? v)
      (Builtin.receive "a string, list or map" Builtin.length? w) := by
  apply h.receive hv "a string, list or map" _
  cases (h.shape v w).mp hv with
  | string s => exact .some rfl
  | list items => exact .some items.length_eq
  | map entries => exact .some entries.length_eq
  | _ => exact .none

/-- A filter that maps the characters of a string gives the same string on both sides. -/
theorem mapChars (h : Structural rel) (name : String) (f : List Char → List Char) :
    Respects rel (Builtin.mapChars (O := O) name f) := by
  intro args _ v w hv
  apply sameOutcome_bind (h.receiveString hv)
  intro cs _ hcs
  subst hcs
  exact .ok (h.string _)

theorem testString (h : Structural rel) (name param : String)
    (test : List Char → List Char → Bool) :
    Respects rel (Builtin.testString (O := O) name param test) := by
  intro args _ v w hv
  apply sameOutcome_bind_same
  intro text
  apply sameOutcome_bind (h.receiveString hv)
  intro cs _ hcs
  subst hcs
  exact .ok ((h.shape _ _).mpr (.boolean _))

/-- Splitting a string gives lists of equal strings. -/
theorem split (h : Structural rel) : Respects rel (Builtin.split (O := O)) := by
  intro args _ v w hv
  apply sameOutcome_bind (h.receiveString hv)
  intro cs _ hcs
  subst hcs
  apply sameOutcome_bind_same
  intro sep
  cases sep with
  | none => exact .ok (h.strings _ _)
  | some sep =>
      dsimp only
      cases sep.isEmpty with
      | true => exact .error _
      | false => exact .ok (h.strings _ _)

theorem matchesPattern (h : Structural rel) : Respects rel (Builtin.matchesPattern (O := O)) := by
  intro args _ v w hv
  apply sameOutcome_bind_same
  intro p
  apply sameOutcome_bind (h.receiveString hv)
  intro cs _ hcs
  subst hcs
  exact .ok ((h.shape _ _).mpr (.boolean _))

theorem replace (h : Structural rel) : Respects rel (Builtin.replace (O := O)) := by
  intro args _ v w hv
  apply sameOutcome_bind_same
  intro p
  apply sameOutcome_bind_same
  intro replacement
  apply sameOutcome_bind (h.receiveString hv)
  intro cs _ hcs
  subst hcs
  exact .ok (h.string _)

theorem length (h : Structural rel) : Respects rel (Builtin.length (O := O)) := by
  intro args _ v w hv
  apply sameOutcome_bind (h.receiveLength hv)
  intro n _ hn
  subst hn
  exact .ok ((h.shape _ _).mpr (.integer _))

/-- A filter of lists respects a relation if what it makes of the items does. -/
theorem ofItems (h : Structural rel) (name : String) {f : List (Value O) → Value O}
    (hf : ∀ xs ys, List.Forall₂ rel xs ys → rel (f xs) (f ys)) :
    Respects rel (Builtin.ofItems name f) := by
  intro args _ v w hv
  exact sameOutcome_bind (h.receiveList hv) fun xs ys items => .ok (hf xs ys items)

/-- A filter of maps respects a relation if what it makes of the entries does. -/
theorem ofEntries (h : Structural rel) (name : String) {f : List (String × Value O) → Value O}
    (hf : ∀ es fs, List.Forall₂ (SameEntry rel) es fs → rel (f es) (f fs)) :
    Respects rel (Builtin.ofEntries name f) := by
  intro args _ v w hv
  exact sameOutcome_bind (h.receiveMap hv) fun es fs entries => .ok (hf es fs entries)

theorem getD_null (h : Structural rel) {x y : Option (Value O)} (found : Option.Rel rel x y) :
    rel (x.getD .null) (y.getD .null) := by
  cases found with
  | none => exact (h.shape _ _).mpr .null
  | some related => exact related

/-- The first items of related lists are related, or both are missing. -/
theorem first (h : Structural rel) : Respects rel (Builtin.first (O := O)) := by
  refine h.ofItems "first" fun xs ys items => h.getD_null ?_
  cases items with
  | nil => exact .none
  | cons head _ => exact .some head

theorem last (h : Structural rel) : Respects rel (Builtin.last (O := O)) := by
  refine h.ofItems "last" fun xs ys items => h.getD_null ?_
  have hReversed := List.rel_reverse items
  rw [← List.head?_reverse, ← List.head?_reverse]
  generalize xs.reverse = es at hReversed
  generalize ys.reverse = fs at hReversed
  cases hReversed with
  | nil => exact .none
  | cons head _ => exact .some head

theorem reverse (h : Structural rel) : Respects rel (Builtin.reverse (O := O)) :=
  h.ofItems "reverse" fun _ _ items => h.list (List.rel_reverse items)

theorem joined (h : Structural rel) (hv : rel v w) :
    SameOutcome Eq (Builtin.joined v) (Builtin.joined w) := by
  have hName := h.typeName_eq v w hv
  unfold Builtin.joined
  rw [hName]
  cases (h.shape v w).mp hv with
  | string s => exact .ok rfl
  | _ => exact .error _

/-- Items are joined by their texts, which related items share. -/
theorem join (h : Structural rel) : Respects rel (Builtin.join (O := O)) := by
  intro args _ v w hv
  apply sameOutcome_bind_same
  intro sep
  apply sameOutcome_bind (h.receiveList hv)
  intro xs ys items
  have hTexts := sameOutcome_mapM items fun x y hxy => h.joined hxy
  apply sameOutcome_bind hTexts
  intro texts _ hEq
  rw [List.forall₂_eq_eq_eq] at hEq
  subst hEq
  exact .ok (h.string _)

theorem keys (h : Structural rel) : Respects rel (Builtin.keys (O := O)) := by
  refine h.ofEntries "keys" fun es fs entries => h.list ?_
  refine List.rel_map (fun e f hEntry => ?_) entries
  rw [hEntry.1]
  exact h.string f.1

theorem values (h : Structural rel) : Respects rel (Builtin.values (O := O)) :=
  h.ofEntries "values" fun _ _ entries => h.list (related_values entries)

/-- A key is looked up in the same order on both sides, so that related entries are found. -/
theorem get (h : Structural rel) : Respects rel (Builtin.get (O := O)) := by
  intro args hArgs v w hv
  apply sameOutcome_bind_same
  intro key
  apply sameOutcome_bind (h.receiveMap hv)
  intro es fs entries
  refine .ok (h.getD_null ?_)
  have hEntry := related_lookup entries key
  generalize es.lookup key = x at hEntry
  generalize fs.lookup key = y at hEntry
  cases hEntry with
  | some related => exact .some related
  | none =>
      cases hDefault : args.get? 1 "default" with
      | none => exact .none
      | some d => exact .some (hArgs.of_get? hDefault)

theorem abs (h : Structural rel) : Respects rel (Builtin.abs (O := O)) := by
  intro args _ v w hv
  have hName := h.typeName_eq v w hv
  simp only [Builtin.abs]
  cases (h.shape v w).mp hv with
  | integer n =>
      dsimp only
      split
      · exact .error _
      · exact .ok ((h.shape _ _).mpr (.integer _))
  | float x => exact .ok ((h.shape _ _).mpr (.float _))
  | object related =>
      dsimp only
      rw [hName]
      exact .error _
  | _ => exact .error _

/-- Related numbers are equal, and so are the results of rounding them. -/
theorem round (h : Structural rel) : Respects rel (Builtin.round (O := O)) := by
  intro args _ v w hv
  have hName := h.typeName_eq v w hv
  apply sameOutcome_bind_same
  intro places
  cases (h.shape v w).mp hv with
  | integer n => cases places <;> exact .ok ((h.shape _ _).mpr (.integer _))
  | float x =>
      cases places with
      | some places => exact .ok ((h.shape _ _).mpr (.float _))
      | none =>
          dsimp only
          cases roundToWord? x with
          | some n => exact .ok ((h.shape _ _).mpr (.integer _))
          | none => exact .error _
  | object related =>
      dsimp only
      rw [hName]
      cases places <;> exact .error _
  | _ => cases places <;> exact .error _

theorem ofStrings (h : Structural rel) : ∀ b ∈ Builtin.ofStrings (O := O), Respects rel b := by
  simp only [Builtin.ofStrings, List.forall_mem_cons, List.not_mem_nil, false_implies, implies_true,
    and_true]
  exact ⟨h.mapChars _ _, h.mapChars _ _, h.mapChars _ _, h.length, h.testString _ _ _,
    h.testString _ _ _, h.testString _ _ _, h.split, h.matchesPattern, h.replace⟩

theorem ofLists (h : Structural rel) : ∀ b ∈ Builtin.ofLists (O := O), Respects rel b := by
  simp only [Builtin.ofLists, List.forall_mem_cons, List.not_mem_nil, false_implies, implies_true,
    and_true]
  exact ⟨h.length, h.first, h.last, h.reverse, h.join⟩

theorem ofMaps (h : Structural rel) : ∀ b ∈ Builtin.ofMaps (O := O), Respects rel b := by
  simp only [Builtin.ofMaps, List.forall_mem_cons, List.not_mem_nil, false_implies, implies_true,
    and_true]
  exact ⟨h.keys, h.values, h.get, h.length⟩

theorem ofNumbers (h : Structural rel) : ∀ b ∈ Builtin.ofNumbers (O := O), Respects rel b := by
  simp only [Builtin.ofNumbers, List.forall_mem_cons, List.not_mem_nil, false_implies, implies_true,
    and_true]
  exact ⟨h.abs, h.round⟩

/-- Every builtin filter respects a relation that holds of all values whose shape it relates. -/
theorem forType (h : Structural rel) {type : String} {b : Builtin O}
    (hb : b ∈ Builtin.forType type) : Respects rel b := by
  unfold Builtin.forType at hb
  split at hb
  · exact h.ofStrings b hb
  · exact h.ofLists b hb
  · exact h.ofMaps b hb
  · exact h.ofNumbers b hb
  · exact h.ofNumbers b hb
  · exact absurd hb List.not_mem_nil

/-- A literal of a query is related to itself. -/
theorem literal (h : Structural rel) (x : Literal) : rel (.ofLiteral x) (.ofLiteral x) := by
  apply (h.shape _ _).mpr
  cases x with
  | null => exact .null
  | boolean b => exact .boolean b
  | integer n => exact .integer n
  | float x => exact .float x
  | string s => exact .string s

/-- The arguments that a query writes are related to themselves. -/
theorem ofQuery (h : Structural rel) (args : List Argument) : SelfRelated rel (.ofQuery args) := by
  refine ⟨fun v hv => ?_, fun e he => ?_⟩
  · obtain ⟨argument, _, hArgument⟩ := List.mem_filterMap.mp hv
    cases argument with
    | positional x =>
        cases hArgument
        exact h.literal x
    | named n x => cases hArgument
  · obtain ⟨argument, _, hArgument⟩ := List.mem_filterMap.mp he
    cases argument with
    | positional x => cases hArgument
    | named n x =>
        cases hArgument
        exact h.literal x

/-- A builtin filter that stands in for a member does the same for related receivers. -/
theorem sameAccessor (h : Structural rel) {type : String} {b : Builtin O}
    (hb : b ∈ Builtin.forType type) (label : String) :
    SameAccessor rel (.filter (b.toFilter label)) (.filter (b.toFilter label)) := by
  apply SameAccessor.filter
  intro v w hv args
  apply sameOutcome_bind_same
  intro _
  exact h.forType hb _ ((h.ofQuery args).byName b.params) v w hv

end Structural

end Secrecy

end GatedQuery
