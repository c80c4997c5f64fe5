import GatedQuery.Document.Record
import GatedQuery.Filter.Collections
import GatedQuery.Proofs.Slice.Places

/-! Laws of indexes, slices and lengths. An index and the bound of a slice count from the same ends of
a sequence, so a sequence falls apart at a bound and an index is the first place after it. -/

namespace GatedQuery

namespace Slice

/-- A start, a stop and a step describe one sequence of places. -/
theorem Progression.unique {step stop i : Int} {places places' : List Int}
    (h : Progression step stop i places) (h' : Progression step stop i places') :
    places = places' := by
  have hLength {is js : List Int} (hi : Progression step stop i is)
      (hj : Progression step stop i js) : js.length ≤ is.length := by
    by_contra hLonger
    apply hi.ended
    apply hj.before
    rw [hj.terms]
    exact List.mem_map.mpr ⟨is.length, List.mem_range.mpr (by omega), rfl⟩
  rw [h.terms, h'.terms, Nat.le_antisymm (hLength h' h) (hLength h h')]

/-- The places of a slice are the only progression between its bounds. -/
theorem eq_of_progression {len : Nat} (fits : (len : Int) ≤ Int64.maxValue.toInt)
    {start stop : Option Int64} {step : Int64} {places : List Nat}
    (h : Progression step.toInt (stopPlace len step.toInt (stop.map Int64.toInt))
      (startPlace len step.toInt (start.map Int64.toInt)) (places.map Int.ofNat)) :
    indices len start stop step = places :=
  List.map_inj_right (fun _ _ => Int.ofNat.inj) |>.mp
    ((indices_progression fits start stop step).unique h)

/-- Going forward by one, a slice takes the places from its start up to its stop. -/
theorem indices_forward {len : Nat} (fits : (len : Int) ≤ Int64.maxValue.toInt)
    (start stop : Option Int64) {a n : Nat} (first : startPlace len 1 (start.map Int64.toInt) = a)
    (last : stopPlace len 1 (stop.map Int64.toInt) = a + n) :
    indices len start stop 1 = List.range' a n := by
  apply eq_of_progression fits
  rw [Int64.toInt_one, first, last]
  constructor
  · rw [List.length_map, List.length_range', List.range'_eq_map_range, List.map_map]
    simp
  · intro j hj
    obtain ⟨k, hk, rfl⟩ := List.mem_map.mp hj
    obtain ⟨_, hEnd⟩ := List.mem_range'_1.mp hk
    exact .inl ⟨Int.one_pos, Int.ofNat_lt.mpr hEnd⟩
  · rw [List.length_map, List.length_range']
    unfold Before
    omega

/-- Going back by one without bounds, a slice takes all places, the last one first. -/
theorem indices_backward {len : Nat} (fits : (len : Int) ≤ Int64.maxValue.toInt) :
    indices len none none (-1) = (List.range len).reverse := by
  have hStep : (-1 : Int64).toInt = -1 := rfl
  have hFirst : startPlace len (-1) none = len - 1 := rfl
  have hLast : stopPlace len (-1) none = -1 := rfl
  apply eq_of_progression fits
  rw [hStep, Option.map_none, hFirst, hLast]
  constructor
  · rw [List.length_map, List.length_reverse, List.length_range, List.range_eq_range',
      List.reverse_range', List.map_map, ← List.range_eq_range']
    apply List.map_congr_left
    intro k hk
    have hBelow := List.mem_range.mp hk
    simp only [Function.comp_apply, Int.ofNat_eq_natCast]
    omega
  · intro j hj
    obtain ⟨k, _, rfl⟩ := List.mem_map.mp hj
    have hNonneg : 0 ≤ Int.ofNat k := Int.natCast_nonneg k
    unfold Before
    omega
  · rw [List.length_map, List.length_reverse, List.length_range]
    unfold Before
    omega

variable {α : Type}

theorem filterMap_range' (items : List α) (a n : Nat) :
    ((List.range' a n).filterMap fun i => items[i]?) = (items.drop a).take n := by
  induction n generalizing a with
  | zero => rfl
  | succ n ih =>
      rw [List.range'_succ]
      by_cases hInside : a < items.length
      · rw [List.filterMap_cons_some (List.getElem?_eq_getElem hInside), ih,
          List.drop_eq_getElem_cons hInside, List.take_succ_cons]
      · have hNone : items[a]? = none := List.getElem?_eq_none (by omega)
        rw [List.filterMap_cons_none hNone, ih, List.drop_eq_nil_of_le (by omega),
          List.drop_eq_nil_of_le (by omega), List.take_nil, List.take_nil]

/-- The place at which a bound cuts a sequence in two. -/
def cut (len : Nat) (k : Int64) : Nat :=
  (boundPlace len 1 k.toInt).toNat

/-- Where a bound cuts a list, counted from the end if it is negative. -/
theorem cut_eq (len : Nat) (k : Int64) :
    (cut len k : Int) = max 0 (min (if k.toInt < 0 then k.toInt + len else k.toInt) len) := by
  have hPlace : boundPlace len 1 k.toInt =
      max 0 (min (if k.toInt < 0 then k.toInt + len else k.toInt) len) := by
    simp [boundPlace, lowest, highest]
  rw [cut, hPlace]
  exact Int.toNat_of_nonneg (Int.le_max_left ..)

theorem boundPlace_eq_cut (len : Nat) (k : Int64) : boundPlace len 1 k.toInt = cut len k := by
  rw [cut_eq]
  simp [boundPlace, lowest, highest]

theorem cut_le (len : Nat) (k : Int64) : cut len k ≤ len := by
  have hCut := cut_eq len k
  omega

section Select

variable {items : List α} (fits : (items.length : Int) ≤ Int64.maxValue.toInt)

include fits

/-- A slice up to a bound takes the items before it. -/
theorem select_front (k : Int64) :
    select items none (some k) 1 = items.take (cut items.length k) := by
  have hLast : stopPlace items.length 1 (some k.toInt) = (0 : Nat) + cut items.length k := by
    rw [Int.natCast_zero, Int.zero_add]
    exact boundPlace_eq_cut ..
  rw [select, indices_forward fits none (some k) rfl hLast, filterMap_range', List.drop_zero]

/-- A slice from a bound on takes the items after it. -/
theorem select_back (k : Int64) :
    select items (some k) none 1 = items.drop (cut items.length k) := by
  have hFirst : startPlace items.length 1 (some k.toInt) = cut items.length k :=
    boundPlace_eq_cut ..
  have hLast : stopPlace items.length 1 none =
      (cut items.length k : Int) + (items.length - cut items.length k : Nat) := by
    have hCut := cut_le items.length k
    change (items.length : Int) = _
    omega
  rw [select, indices_forward fits (some k) none hFirst hLast, filterMap_range']
  exact List.take_of_length_le (by rw [List.length_drop])

/-- A slice with step −1 and no bounds reverses a list. -/
theorem select_reverse : select items none none (-1) = items.reverse := by
  rw [select, indices_backward fits, List.filterMap_reverse, List.range_eq_range',
    filterMap_range', List.drop_zero, List.take_length]

/-- The place of an index lies in the sequence, counted from its start or from its end. -/
theorem resolve?_eq_some_iff (k : Int64) (place : Nat) :
    resolve? k items.length = some place ↔
      (place : Int) = (if k.toInt < 0 then k.toInt + items.length else k.toInt) ∧
        place < items.length := by
  have hLength := toInt_lengthWord fits
  have hNonneg : 0 ≤ (lengthWord items.length).toInt := by omega
  have hPlace : (if k < 0 then k + lengthWord items.length else k).toInt =
      if k.toInt < 0 then k.toInt + items.length else k.toInt := by
    simp only [Int64.lt_iff_toInt_lt, Int64.toInt_zero]
    split
    next negative => rw [toInt_add_length hNonneg negative, hLength]
    next => rfl
  unfold resolve?
  dsimp only
  generalize (if k < 0 then k + lengthWord items.length else k) = word at hPlace ⊢
  have hInside : (decide (0 ≤ word) && decide (word < lengthWord items.length)) = true ↔
      0 ≤ word.toInt ∧ word.toInt < items.length := by
    simp only [Bool.and_eq_true, decide_eq_true_eq, Int64.le_iff_toInt_le, Int64.lt_iff_toInt_lt,
      Int64.toInt_zero, hLength]
  rw [← hPlace]
  by_cases hRange : 0 ≤ word.toInt ∧ word.toInt < items.length
  · rw [if_pos (hInside.mpr hRange), Option.some.injEq]
    omega
  · rw [if_neg fun h => hRange (hInside.mp h)]
    constructor
    · intro h
      cases h
    · omega

/-- An index leads to an item exactly if it lies in the sequence, counted from its start or from its
end, and then it leads to the first item after the place where it cuts the sequence as a bound. -/
theorem item?_cases (k : Int64) :
    (-(items.length : Int) ≤ k.toInt ∧ k.toInt < items.length ∧
      ∃ x rest, item? items k = some x ∧ items.drop (cut items.length k) = x :: rest) ∨
    (¬ (-(items.length : Int) ≤ k.toInt ∧ k.toInt < items.length) ∧ item? items k = none) := by
  by_cases hRange : -(items.length : Int) ≤ k.toInt ∧ k.toInt < items.length
  · have hCut := cut_eq items.length k
    have hInside : cut items.length k < items.length := by
      split at hCut <;> omega
    have hPlace : resolve? k items.length = some (cut items.length k) := by
      rw [resolve?_eq_some_iff fits]
      refine ⟨?_, hInside⟩
      rw [hCut]
      split <;> omega
    refine .inl ⟨hRange.1, hRange.2, items[cut items.length k], items.drop (cut items.length k + 1),
      ?_, List.drop_eq_getElem_cons hInside⟩
    rw [item?, hPlace, Option.bind_some, List.getElem?_eq_getElem hInside]
  · refine .inr ⟨hRange, ?_⟩
    cases hPlace : resolve? k items.length with
    | none => rw [item?, hPlace, Option.bind_none]
    | some place =>
        obtain ⟨hEq, hInside⟩ := (resolve?_eq_some_iff fits k place).mp hPlace
        split at hEq <;> omega

end Select

end Slice

namespace Value

variable {O : Type} [Backend O]

/-- The elements of an object as a list, and any other value as it is. -/
def sequence : Value O → Value O
  | object o =>
    match Backend.elements o with
    | some items => list items
    | none => object o
  | v => v

def append? : Value O → Value O → Option (Value O)
  | list items, list items' => some (list (items ++ items'))
  | string s, string t => some (string (s ++ t))
  | _, _ => none

/-- The characters of a string as strings. -/
def characters (s : String) : List (Value O) :=
  s.toList.map fun c => .string c.toString

/-- What has items is a string, or it is sliced like the list of them. -/
theorem string_or_list {v : Value O} {items : List (Value O)} (h : v.subscripts = some items) :
    (∃ s, v = .string s ∧ items = characters s) ∨
      (v.sequence = .list items ∧ ∀ start stop step p,
        v.slice start stop step p = .ok (.list (Slice.select items start stop step))) := by
  cases v with
  | string s => exact .inl ⟨s, rfl, (Option.some.inj h).symm⟩
  | list items' =>
      obtain rfl := Option.some.inj h
      exact .inr ⟨rfl, fun _ _ _ _ => rfl⟩
  | object o =>
      have hElements : Backend.elements o = some items := h
      refine .inr ⟨by simp only [sequence, hElements], fun start stop step p => ?_⟩
      simp only [slice, subscripts, hElements]
  | _ => cases h

/-- An item is found by its place alone. -/
theorem item_of_subscripts {v : Value O} {items : List (Value O)} (h : v.subscripts = some items)
    (k : Int64) (p : Position) :
    v.item k p =
      match Slice.item? items k with
      | some x => .ok x
      | none => .error (.indexNotFound k v.typeName p) := by
  cases v with
  | string _ | list _ | object _ =>
      simp only [item, h, Option.map_some]
      cases Slice.item? items k <;> rfl
  | _ => cases h

/-- The filter counts what can be indexed. -/
theorem length_run {v : Value O} {items : List (Value O)} (h : v.subscripts = some items)
    (plain : ∀ o, v ≠ .object o) :
    Builtin.length.run v .none = .ok (.integer (Int64.ofNat items.length)) := by
  cases v with
  | string s =>
      obtain rfl := Option.some.inj h
      rw [List.length_map, String.length_toList]
      rfl
  | list items' =>
      obtain rfl := Option.some.inj h
      rfl
  | object o => exact absurd rfl (plain o)
  | _ => cases h

end Value

open Slice

variable {O : Type} [Backend O]

/-- The halves of a sequence at a bound. -/
theorem append_halves {v : Value O} {items : List (Value O)} (h : v.subscripts = some items)
    (fits : (items.length : Int) ≤ Int64.maxValue.toInt) (k : Int64) (p : Position) :
    ∃ a b, v.slice none (some k) 1 p = .ok a ∧ v.slice (some k) none 1 p = .ok b ∧
      a.append? b = some v.sequence := by
  rcases Value.string_or_list h with ⟨s, rfl, rfl⟩ | ⟨hSequence, hSlice⟩
  · rw [Value.characters, List.length_map] at fits
    refine ⟨_, _, rfl, rfl, ?_⟩
    rw [select_front fits, select_back fits, Value.append?, ← String.ofList_append,
      List.take_append_drop, String.ofList_toList]
    rfl
  · refine ⟨_, _, hSlice .., hSlice .., ?_⟩
    rw [select_front fits, select_back fits, Value.append?, List.take_append_drop, hSequence]

/-- Walking backwards twice. -/
theorem reverse_twice {v : Value O} {items : List (Value O)} (h : v.subscripts = some items)
    (fits : (items.length : Int) ≤ Int64.maxValue.toInt) (p : Position) :
    ∃ a, v.slice none none (-1) p = .ok a ∧ a.slice none none (-1) p = .ok v.sequence := by
  rcases Value.string_or_list h with ⟨s, rfl, rfl⟩ | ⟨hSequence, hSlice⟩
  · rw [Value.characters, List.length_map] at fits
    have hReversed : ((String.ofList s.toList.reverse).toList.length : Int) ≤
        Int64.maxValue.toInt := by
      rwa [String.toList_ofList, List.length_reverse]
    refine ⟨_, rfl, ?_⟩
    rw [select_reverse fits, Value.slice, select_reverse hReversed, String.toList_ofList,
      List.reverse_reverse, String.ofList_toList]
    rfl
  · have hReversed : (items.reverse.length : Int) ≤ Int64.maxValue.toInt := by
      rwa [List.length_reverse]
    refine ⟨_, hSlice .., ?_⟩
    rw [select_reverse fits]
    change Except.ok (Value.list (select items.reverse none none (-1))) = _
    rw [select_reverse hReversed, List.reverse_reverse, hSequence]

/-- A slice of a string is the slice of the list of its characters. -/
theorem slice_characters (s : String) (start stop : Option Int64) (step : Int64) (p : Position) :
    ∃ t, (Value.string s : Value O).slice start stop step p = .ok (.string t) ∧
      (Value.list (Value.characters s) : Value O).slice start stop step p =
        .ok (.list (Value.characters t)) := by
  refine ⟨_, rfl, ?_⟩
  change Except.ok (Value.list (select (Value.characters s) start stop step)) = _
  rw [Value.characters, Value.characters, select_map, String.toList_ofList]

/-- An index is found exactly if it lies in the sequence, counted from its start or from its end. -/
theorem item_ok_iff {v : Value O} {items : List (Value O)} (h : v.subscripts = some items)
    (fits : (items.length : Int) ≤ Int64.maxValue.toInt) (k : Int64) (p : Position) :
    (∃ x, v.item k p = .ok x) ↔ -(items.length : Int) ≤ k.toInt ∧ k.toInt < items.length := by
  rw [Value.item_of_subscripts h k p]
  rcases item?_cases fits k with ⟨hLow, hHigh, x, _, hFound, _⟩ | ⟨hOutside, hNone⟩
  · rw [hFound]
    exact ⟨fun _ => ⟨hLow, hHigh⟩, fun _ => ⟨x, rfl⟩⟩
  · rw [hNone]
    exact ⟨fun ⟨_, hx⟩ => (nomatch hx), fun hInside => absurd hInside hOutside⟩

/-- An index past either end is an error and not null. -/
theorem item_error {v : Value O} {items : List (Value O)} (h : v.subscripts = some items)
    (fits : (items.length : Int) ≤ Int64.maxValue.toInt) {k : Int64}
    (outside : ¬ (-(items.length : Int) ≤ k.toInt ∧ k.toInt < items.length)) (p : Position) :
    v.item k p = .error (.indexNotFound k v.typeName p) := by
  rcases item?_cases fits k with ⟨hLow, hHigh, _⟩ | ⟨_, hNone⟩
  · exact absurd ⟨hLow, hHigh⟩ outside
  · rw [Value.item_of_subscripts h k p, hNone]

/-- The item at an index is the first one of the slice that starts there. -/
theorem slice_of_item {v x : Value O} {items : List (Value O)} (h : v.subscripts = some items)
    (fits : (items.length : Int) ≤ Int64.maxValue.toInt) {k : Int64} {p : Position}
    (hx : v.item k p = .ok x) :
    ∃ b rest, v.slice (some k) none 1 p = .ok b ∧ b.subscripts = some (x :: rest) := by
  rw [Value.item_of_subscripts h k p] at hx
  rcases item?_cases fits k with ⟨_, _, y, rest, hFound, hDrop⟩ | ⟨_, hNone⟩
  · rw [hFound] at hx
    obtain rfl := Except.ok.inj hx
    obtain ⟨b, hSlice, hSelected⟩ := v.exists_slice h (some k) none 1 p
    rw [select_back fits, hDrop] at hSelected
    exact ⟨b, rest, hSlice, hSelected⟩
  · rw [hNone] at hx
    cases hx

/-- An index of a string is that of the list of its characters. -/
theorem item_characters (s : String) (k : Int64) (p : Position) (x : Value O) :
    (Value.string s).item k p = .ok x ↔ (Value.list (Value.characters s)).item k p = .ok x := by
  have hString : (Value.string s : Value O).subscripts = some (Value.characters s) := rfl
  have hList : (Value.list (Value.characters s) : Value O).subscripts =
      some (Value.characters s) := rfl
  rw [Value.item_of_subscripts hString k p, Value.item_of_subscripts hList k p]
  cases item? (Value.characters s) k with
  | some y => exact Iff.rfl
  | none => exact ⟨fun hx => (nomatch hx), fun hx => (nomatch hx)⟩

/-- Indexes, slices and lengths of a sequence agree. A bound cuts it into two slices that make it up
again, and two walks backwards give it back. An index is found exactly if it lies among as many places
as the sequence has items, counted from its start or from its end, and then it is the first item of the
slice that starts there. A string is indexed and sliced as the list of its characters. The length of a
sequence in memory is a 64-bit integer. -/
theorem index_slice_length_agree {v : Value O} {items : List (Value O)}
    (h : v.subscripts = some items) (fits : (items.length : Int) ≤ Int64.maxValue.toInt) (k : Int64)
    (p : Position) :
    ((∀ o, v ≠ .object o) →
        Builtin.length.run v .none = .ok (.integer (Int64.ofNat items.length)) ∧
          (Int64.ofNat items.length).toInt = items.length) ∧
      (∃ a b, v.slice none (some k) 1 p = .ok a ∧ v.slice (some k) none 1 p = .ok b ∧
        a.append? b = some v.sequence) ∧
      (∃ a, v.slice none none (-1) p = .ok a ∧ a.slice none none (-1) p = .ok v.sequence) ∧
      (k < 0 → (k + lengthWord items.length).toInt = k.toInt + items.length) ∧
      ((∃ x, v.item k p = .ok x) ↔ -(items.length : Int) ≤ k.toInt ∧ k.toInt < items.length) ∧
      (¬ (-(items.length : Int) ≤ k.toInt ∧ k.toInt < items.length) →
        v.item k p = .error (.indexNotFound k v.typeName p)) ∧
      (∀ x, v.item k p = .ok x → ∃ b rest, v.slice (some k) none 1 p = .ok b ∧
        b.subscripts = some (x :: rest)) ∧
      ∀ s, v = .string s →
        (∀ x, v.item k p = .ok x ↔ (Value.list (Value.characters s)).item k p = .ok x) ∧
          ∀ start stop step, ∃ t, v.slice start stop step p = .ok (.string t) ∧
            (Value.list (Value.characters s) : Value O).slice start stop step p =
              .ok (.list (Value.characters t)) := by
  have hLength := toInt_lengthWord fits
  refine ⟨fun plain => ⟨Value.length_run h plain, ?_⟩, append_halves h fits k p,
    reverse_twice h fits p, fun negative => ?_, item_ok_iff h fits k p,
    fun outside => item_error h fits outside p, fun x hx => slice_of_item h fits hx, ?_⟩
  · rw [Int64.toInt_maxValue] at fits
    exact Int64.toInt_ofNat_of_lt (by omega)
  · rw [Int64.lt_iff_toInt_lt, Int64.toInt_zero] at negative
    rw [toInt_add_length (by omega) negative, hLength]
  · rintro s rfl
    exact ⟨item_characters s k p, fun start stop step => slice_characters s start stop step p⟩

theorem index_slice_length_agree_accented :
    (Value.string "né" : Value DocumentObject).subscripts = some [.string "n", .string "é"] ∧
      (([.string "n", .string "é"] : List (Value DocumentObject)).length : Int) ≤
        Int64.maxValue.toInt ∧
      ∃ a b : Value DocumentObject, (Value.string "né").slice none (some Int64.minValue) 1 .start = .ok a ∧
        (Value.string "né").slice (some Int64.minValue) none 1 .start = .ok b ∧
          a.append? b = some (.string "né") := by
  have hItems : (Value.string "né" : Value DocumentObject).subscripts =
      some [.string "n", .string "é"] := rfl
  have hFits : (([.string "n", .string "é"] : List (Value DocumentObject)).length : Int) ≤
      Int64.maxValue.toInt := by decide
  exact ⟨hItems, hFits, (index_slice_length_agree hItems hFits Int64.minValue .start).2.1⟩

end GatedQuery
