import GatedQuery.Proofs.Filter.Arguments
import GatedQuery.Proofs.Slice.Laws
import GatedQuery.Proofs.Solve.Rows

/-! Filters of lists and maps beside the steps of a chain. What comes first or last in a list, what
its reverse is, how many items it has, and what stands under a key of a map is decided apart by
filters, by steps and by resources. They all decide it in the same way. -/

namespace GatedQuery

open Outcome Run Slice

namespace Slice

variable {α : Type} {items : List α} (fits : (items.length : Int) ≤ Int64.maxValue.toInt)

include fits

/-- The first item is the one at index 0. -/
theorem item?_first : item? items 0 = items.head? := by
  have hCut := cut_eq items.length 0
  rw [Int64.toInt_zero] at hCut
  have hStart : cut items.length 0 = 0 := by
    split at hCut <;> omega
  rcases item?_cases fits 0 with ⟨_, _, x, rest, hFound, hDrop⟩ | ⟨hOutside, hNone⟩
  · rw [hStart, List.drop_zero] at hDrop
    rw [hFound, hDrop, List.head?_cons]
  · rw [Int64.toInt_zero] at hOutside
    have hNil : items = [] := List.eq_nil_of_length_eq_zero (by omega)
    rw [hNone, hNil, List.head?_nil]

/-- The last item is the one at index −1. -/
theorem item?_last : item? items (-1) = items.getLast? := by
  have hOne : (-1 : Int64).toInt = -1 := rfl
  have hCut := cut_eq items.length (-1)
  rw [hOne] at hCut
  have hEnd : cut items.length (-1) = items.length - 1 := by
    split at hCut <;> omega
  rcases item?_cases fits (-1) with ⟨_, _, x, rest, hFound, hDrop⟩ | ⟨hOutside, hNone⟩
  · rw [hEnd] at hDrop
    rw [hFound, List.getLast?_eq_getElem?, ← List.head?_drop, hDrop, List.head?_cons]
  · rw [hOne] at hOutside
    have hNil : items = [] := List.eq_nil_of_length_eq_zero (by omega)
    rw [hNone, hNil, List.getLast?_nil]

end Slice

variable {O : Type} [Backend O] {a : AllowList O} {items : List (Value O)}
  {entries : List (String × Value O)} {p : Position}

/-- The item that an index leads to, or null where the index is not found. -/
def AtIndex (a : AllowList O) (i : Int64) (p : Position) (v x : Value O) : Prop :=
  takeStep a (.index i p) v = pure x ∨
    takeStep a (.index i p) v = .fail (.indexNotFound i v.typeName p) ∧ x = .null

/-- A list is indexed by the step that a query writes, with null past its ends. -/
theorem atIndex_list (i : Int64) : AtIndex a i p (.list items) ((item? items i).getD .null) := by
  have hItem : takeStep a (.index i p) (.list items) =
      .ofOutcome ((Value.list items).item i p) := rfl
  rw [AtIndex, hItem, Value.item_of_subscripts rfl]
  cases item? items i with
  | some x => exact .inl rfl
  | none => exact .inr ⟨rfl, rfl⟩

/-- The filters of a list agree with the steps of a chain and with the resources over the list. -/
structure ListFiltersAgree (a : AllowList O) (items : List (Value O)) : Prop where
  reverse : ∀ p, ∃ x, Builtin.reverse.run (.list items) .none = .ok x ∧
    takeStep a (.slice none none (some (-1)) p) (.list items) = pure x
  first : ∀ p, ∃ x, Builtin.first.run (.list items) .none = .ok x ∧ AtIndex a 0 p (.list items) x
  last : ∀ p, ∃ x, Builtin.last.run (.list items) .none = .ok x ∧ AtIndex a (-1) p (.list items) x
  length : ∀ h body v x, Reaches a h.chain v (.list items) →
    (resolve a (.list h body) v).outcome = .ok x →
      ∃ results n, x = .list results ∧
        Builtin.length.run (.list items) .none = .ok (.integer n) ∧ n.toInt = results.length

/-- The filters of lists say what indices and slices say. -/
theorem listFiltersAgree (a : AllowList O) (fits : (items.length : Int) ≤ Int64.maxValue.toInt) :
    ListFiltersAgree a items where
  reverse p := by
    refine ⟨.list items.reverse, rfl, ?_⟩
    rw [← select_reverse fits]
    rfl
  first p := by
    refine ⟨items.head?.getD .null, rfl, ?_⟩
    rw [← item?_first fits]
    exact atIndex_list 0
  last p := by
    refine ⟨items.getLast?.getD .null, rfl, ?_⟩
    rw [← item?_last fits]
    exact atIndex_list (-1)
  length h body v x reaches hx := by
    have hElements : (Value.list items).elements = some items := rfl
    obtain ⟨results, rfl, hEach⟩ := exists_results hx reaches hElements
    refine ⟨results, Int64.ofNat items.length, rfl, rfl, ?_⟩
    rw [Int64.toInt_maxValue] at fits
    rw [← hEach.length_eq]
    exact Int64.toInt_ofNat_of_lt (by omega)

/-- Arguments of the filter `get` that ask for a key. -/
structure Asks (key : String) (args : Arguments O) : Prop where
  accepted : args.checkAgainst ["key", "default"] = .ok ()
  key : args.getString 0 "key" = .ok key

/-- The filter looks a key up and falls back to its default, and then to null. -/
theorem get_run {key : String} {args : Arguments O} (asks : Asks key args) :
    Builtin.get.run (.map entries) args =
      .ok ((entries.lookup key <|> args.get? 1 "default").getD .null) := by
  rw [Builtin.ReadsParameters.get.run_eq_body asks.accepted]
  simp only [Builtin.get, asks.key]
  rfl

theorem takeStep_member (native : a.accessor? "map" key = some .native) :
    takeStep a (.member key p) (.map entries) = readMember key p (.map entries) := by
  have hAllowed : allowed a key p (.map entries) = pure .native := by
    simp only [allowed, Value.typeName, native]
  rw [takeStep, hAllowed, pure_bind]

/-- What is found under a key of a map: by the filter `get`, by the name of a member that is read
natively, and by an index whose text is the key. -/
inductive LookupsAgree (a : AllowList O) (entries : List (String × Value O)) (key : String)
    (p : Position) : Prop where
  /-- The value of the first entry under the key. -/
  | found (x : Value O) (first : IsFirst (fun entry => entry.1 = key) entries (key, x))
      (get : ∀ args, Asks key args → Builtin.get.run (.map entries) args = .ok x)
      (member : a.accessor? "map" key = some .native →
        takeStep a (.member key p) (.map entries) = pure x)
      (index : ∀ i, Text.decimal i = key → takeStep a (.index i p) (.map entries) = pure x)
  /-- No entry is under the key. -/
  | missing (none : ∀ entry ∈ entries, entry.1 ≠ key)
      (get : ∀ args, Asks key args →
        Builtin.get.run (.map entries) args = .ok ((args.get? 1 "default").getD .null))
      (member : a.accessor? "map" key = some .native →
        takeStep a (.member key p) (.map entries) = .fail (.memberNotFound key "map" p))
      (index : ∀ i, Text.decimal i = key →
        takeStep a (.index i p) (.map entries) = .fail (.indexNotFound i "map" p))

/-- On a map, an index is the key that its digits spell. -/
theorem takeStep_index (i : Int64) : takeStep a (.index i p) (.map entries) =
    match entries.lookup (Text.decimal i) with
    | some x => pure x
    | none => .fail (.indexNotFound i "map" p) := by
  rw [takeStep, Value.item]
  cases entries.lookup (Text.decimal i) <;> rfl

/-- A key is found alike by the filter, by a member step and by an index. -/
theorem lookupsAgree (a : AllowList O) (entries : List (String × Value O)) (key : String)
    (p : Position) : LookupsAgree a entries key p := by
  cases hLookup : entries.lookup key with
  | some x =>
      obtain ⟨before, after, rfl, hBefore⟩ := List.lookup_eq_some_iff.mp hLookup
      refine .found x ⟨rfl, before, after, rfl, fun entry hEntry hKey => ?_⟩ (fun args asks => ?_)
        (fun native => ?_) fun i hText => ?_
      · simpa [hKey] using hBefore entry hEntry
      · rw [get_run asks, hLookup]
        rfl
      · rw [takeStep_member native, readMember, hLookup]
      · rw [takeStep_index, hText, hLookup]
  | none =>
      refine .missing (fun entry hEntry hKey => ?_) (fun args asks => ?_) (fun native => ?_)
        fun i hText => ?_
      · simpa [hKey] using List.lookup_eq_none_iff.mp hLookup entry hEntry
      · rw [get_run asks, hLookup]
        rfl
      · rw [takeStep_member native, readMember, hLookup]
        rfl
      · rw [takeStep_index, hText, hLookup]

/-- The filters of a map agree with the steps of a chain and with the resources over the map. -/
structure MapFiltersAgree (a : AllowList O) (entries : List (String × Value O)) : Prop where
  zipped : ∃ keys values : List _, Builtin.keys.run (.map entries) .none =
      .ok (.list (keys.map .string)) ∧
    Builtin.values.run (.map entries) .none = .ok (.list values) ∧
      keys.length = values.length ∧ keys.zip values = entries
  iterated : ∀ h body v, Reaches a h.chain v (.map entries) →
    ∃ values, Builtin.values.run (.map entries) .none = .ok (.list values) ∧
      resolve a (.list h body) v = (do
        let _ ← follow a h.chain v
        let results ← Run.each (resolveBody a body) values
        return .list results)
  lookups : ∀ key p, LookupsAgree a entries key p

/-- The filters of maps say the same of entries, keys and values. -/
theorem mapFiltersAgree (a : AllowList O) (entries : List (String × Value O)) :
    MapFiltersAgree a entries where
  zipped := by
    refine ⟨entries.map Prod.fst, entries.map Prod.snd, ?_, rfl, by simp, ?_⟩
    · rw [List.map_map]
      rfl
    · rw [List.zip_map', List.map_id']
  iterated h body v reaches := by
    refine ⟨entries.map Prod.snd, rfl, ?_⟩
    rw [resolve, bind_of_ok reaches, bind_of_ok reaches]
    rfl
  lookups := lookupsAgree a entries

/-- The filters of lists and maps agree with the language's own steps. The reverse of a list is its
slice backwards, the first and the last item are those at the indexes 0 and -1, or null where these
are not found, and the length is the number of results of a list resource over the list. The keys
and the values of a map are its entries side by side, and a list resource over it resolves its body
at the values. Under every key, the filter `get`, a native member and an index with the key as its
text find the first entry, or else the default, no member and no index. The length of a list in
memory is a 64-bit integer. -/
theorem collection_filters_agree (a : AllowList O) :
    (∀ items : List (Value O), (items.length : Int) ≤ Int64.maxValue.toInt →
      ListFiltersAgree a items) ∧
    ∀ entries : List (String × Value O), MapFiltersAgree a entries :=
  ⟨fun _ fits => listFiltersAgree a fits, mapFiltersAgree a⟩

/-- Queries may read what a map has under the text of the last index, and nothing else. -/
def minusOneOnly : AllowList DocumentObject where
  entries := []
  types := [("map", [("-1", .native)])]

/-- A map with two entries under one key. -/
def minusOneTwice : List (String × Value DocumentObject) :=
  [("-1", .integer 1), ("-1", .integer 2)]

theorem collection_filters_agree_minusOne :
    ((minusOneTwice.map Prod.snd).length : Int) ≤ Int64.maxValue.toInt ∧
      ListFiltersAgree minusOneOnly (minusOneTwice.map Prod.snd) ∧
      ∃ x, Builtin.get.run (.map minusOneTwice) ⟨[.string "-1"], []⟩ = .ok x ∧
        takeStep minusOneOnly (.member "-1" .start) (.map minusOneTwice) = pure x ∧
        takeStep minusOneOnly (.index (-1) .start) (.map minusOneTwice) = pure x := by
  have hFits : ((minusOneTwice.map Prod.snd).length : Int) ≤ Int64.maxValue.toInt := by decide
  have hAsks : Asks (O := DocumentObject) "-1" ⟨[.string "-1"], []⟩ := ⟨rfl, rfl⟩
  obtain ⟨hLists, hMaps⟩ := collection_filters_agree minusOneOnly
  refine ⟨hFits, hLists _ hFits, ?_⟩
  cases (hMaps minusOneTwice).lookups "-1" .start with
  | found x _ get member index => exact ⟨x, get _ hAsks, member rfl, index (-1) rfl⟩
  | missing none => exact absurd rfl (none _ List.mem_cons_self)

end GatedQuery
