import GatedQuery.Document.Record
import GatedQuery.Proofs.Outcome

/-! Arguments and parameters. The check of arguments against parameters accepts them exactly if each of
them has a parameter of its own. Then looking up a parameter finds the argument that it has, so that
no argument is left out. Otherwise the check names the first argument that has none. -/

namespace GatedQuery

/-- A place among the arguments of a call: among those without a name, or among those with one. -/
inductive ArgumentPlace where
  | positional (i : Nat)
  | named (i : Nat)

namespace Arguments

variable {O : Type}

def at? (a : Arguments O) : ArgumentPlace → Option (Value O)
  | .positional i => a.positional[i]?
  | .named i => a.named[i]?.map Prod.snd

def names (a : Arguments O) : List String :=
  a.named.map Prod.fst

/-- The parameters that belong to the arguments without names. -/
def taken (a : Arguments O) (params : List String) : List String :=
  params.take a.positional.length

/-- The argument at a place is for a parameter. Without a name it is for the parameter at its own
place, and with one it is for the parameter of that name. -/
def IsFor (a : Arguments O) (params : List String) : ArgumentPlace → Nat → Prop
  | .positional i, p => p = i ∧ i < params.length
  | .named i, p => ∃ name v, a.named[i]? = some (name, v) ∧ params[p]? = some name

/-- Every argument is bound to a parameter that it is for, and no two of them to the same one. -/
structure Binds (a : Arguments O) (params : List String) (bind : ArgumentPlace → Nat) : Prop where
  isFor : ∀ s v, a.at? s = some v → a.IsFor params s (bind s)
  own : ∀ s t v w, a.at? s = some v → a.at? t = some w → bind s = bind t → s = t

/-- The name at a place is left without a parameter: it is unknown, its parameter is taken, or it
repeats a name before it. -/
def IsStray (params taken names : List String) (i : Nat) (name : String) : Prop :=
  names[i]? = some name ∧ (name ∉ params ∨ name ∈ taken ∨ name ∈ names.take i)

/-- The first name that is left without a parameter. -/
def IsFirstStray (params taken names : List String) (i : Nat) (name : String) : Prop :=
  IsStray params taken names i name ∧ ∀ k < i, ∀ n, ¬ IsStray params taken names k n

/-- No name is left without a parameter. -/
def Clear (params taken names : List String) : Prop :=
  ∀ k n, ¬ IsStray params taken names k n

/-- Without repeated names, a name stands at one place. -/
theorem place_unique {names : List String} (distinct : names.Nodup) {name : String} {i j : Nat}
    (hi : names[i]? = some name) (hj : names[j]? = some name) : i = j :=
  (List.getElem?_inj (List.getElem?_eq_some_iff.mp hi).1 distinct).mp (hi.trans hj.symm)

theorem mem_take_iff {names : List String} {name : String} {count : Nat} :
    name ∈ names.take count ↔ ∃ i < count, names[i]? = some name := by
  simp only [List.mem_iff_getElem?, List.getElem?_take]
  refine exists_congr fun i => ?_
  by_cases hi : i < count
  · rw [if_pos hi, and_iff_right hi]
  · rw [if_neg hi]
    exact ⟨nofun, fun h => absurd h.1 hi⟩

/-- Names none of which is stray are different. -/
theorem nodup_of_clear {params taken names : List String}
    (clear : Clear params taken names) : names.Nodup := by
  rw [List.nodup_iff_pairwise_ne, List.pairwise_iff_getElem]
  intro i j hi hj hBefore hSame
  refine clear j names[j] ⟨List.getElem?_eq_getElem hj, .inr (.inr ?_)⟩
  exact mem_take_iff.mpr ⟨i, hBefore, hSame ▸ List.getElem?_eq_getElem hi⟩

/-- The check of names in the middle of a list, where none of the names checked so far was stray. The
check keeps these in an order of its own. -/
theorem checkNames_cases {params taken : List String} (rest : List String) {before checked : List String}
    (seen : ∀ n, n ∈ before ↔ n ∈ checked)
    (clear : ∀ k < checked.length, ∀ n, ¬ IsStray params taken (checked ++ rest) k n) :
    (checkNames params taken before rest = .ok () ∧ Clear params taken (checked ++ rest)) ∨
      ∃ k n, checkNames params taken before rest = .error (.unexpectedArgument n) ∧
        IsFirstStray params taken (checked ++ rest) k n := by
  induction rest generalizing before checked with
  | nil =>
      refine .inl ⟨rfl, fun k n hStray => ?_⟩
      have hAt := hStray.1
      rw [List.append_nil] at hAt
      exact clear k (List.getElem?_eq_some_iff.mp hAt).1 n hStray
  | cons name rest ih =>
      have hHere : IsStray params taken (checked ++ name :: rest) checked.length name ↔
          name ∉ params ∨ name ∈ taken ∨ name ∈ before := by
        rw [IsStray, List.getElem?_append_right (Nat.le_refl _), Nat.sub_self, List.take_left, seen]
        exact and_iff_right rfl
      have hTest : (!params.contains name || taken.contains name || before.contains name) = true ↔
          name ∉ params ∨ name ∈ taken ∨ name ∈ before := by
        simp [or_assoc]
      rw [checkNames]
      by_cases hStray : name ∉ params ∨ name ∈ taken ∨ name ∈ before
      · rw [if_pos (hTest.mpr hStray)]
        exact .inr ⟨checked.length, name, rfl, hHere.mpr hStray, clear⟩
      · rw [if_neg fun h => hStray (hTest.mp h), List.append_cons]
        -- One more name is checked, and it is not stray either.
        refine ih ?_ fun k hk n hn => ?_
        · intro n
          rw [List.mem_cons, List.mem_append, List.mem_singleton, seen, or_comm]
        · rw [← List.append_cons] at hn
          rw [List.length_append, List.length_singleton, Nat.lt_succ_iff_lt_or_eq] at hk
          rcases hk with hk | rfl
          · exact clear k hk n hn
          · obtain rfl : name = n := by simpa using hn.1
            exact hStray (hHere.mp hn)

/-- The check fails for too many positional arguments, or for the first name that no parameter is
left for, or not at all. -/
theorem checkAgainst_cases (a : Arguments O) (params : List String) :
    (params.length < a.positional.length ∧ a.checkAgainst params =
        .error (.unexpectedArgument ("#" ++ toString (params.length + 1)))) ∨
      a.positional.length ≤ params.length ∧
        ((a.checkAgainst params = .ok () ∧ Clear params (a.taken params) a.names) ∨
          ∃ k n, a.checkAgainst params = .error (.unexpectedArgument n) ∧
            IsFirstStray params (a.taken params) a.names k n) := by
  rw [checkAgainst]
  by_cases hMany : params.length < a.positional.length
  · rw [if_pos hMany]
    exact .inl ⟨hMany, rfl⟩
  · rw [if_neg hMany]
    refine .inr ⟨Nat.le_of_not_lt hMany, ?_⟩
    have hNone : ∀ k < ([] : List String).length, ∀ n,
        ¬ IsStray params (a.taken params) ([] ++ a.names) k n := nofun
    exact checkNames_cases a.names (fun _ => Iff.rfl) hNone

theorem name_at_iff {a : Arguments O} {k : Nat} {name : String} :
    a.names[k]? = some name ↔ ∃ v, a.named[k]? = some (name, v) := by
  rw [names, List.getElem?_map, Option.map_eq_some_iff]
  constructor
  · rintro ⟨⟨_, v⟩, hAt, rfl⟩
    exact ⟨v, hAt⟩
  · rintro ⟨v, hAt⟩
    exact ⟨_, hAt, rfl⟩

theorem at?_named {a : Arguments O} {k : Nat} {v : Value O} :
    a.at? (.named k) = some v ↔ ∃ name, a.named[k]? = some (name, v) := by
  rw [at?, Option.map_eq_some_iff]
  constructor
  · rintro ⟨⟨name, _⟩, hAt, rfl⟩
    exact ⟨name, hAt⟩
  · rintro ⟨name, hAt⟩
    exact ⟨_, hAt, rfl⟩

namespace Binds

variable {a : Arguments O} {params : List String} {bind : ArgumentPlace → Nat}

/-- A positional argument is bound to the parameter at its place. -/
theorem positional (h : a.Binds params bind) {i : Nat} {v : Value O}
    (argument : a.positional[i]? = some v) : bind (.positional i) = i ∧ i < params.length :=
  h.isFor (.positional i) v argument

/-- A named argument is bound to the parameter of its name. -/
theorem named (h : a.Binds params bind) {i : Nat} {name : String} {v : Value O}
    (argument : a.named[i]? = some (name, v)) : params[bind (.named i)]? = some name := by
  obtain ⟨_, _, hAt, hParameter⟩ := h.isFor (.named i) v (at?_named.mpr ⟨name, argument⟩)
  cases argument.symm.trans hAt
  exact hParameter

theorem count_le (h : a.Binds params bind) : a.positional.length ≤ params.length := by
  by_contra hMany
  have hBeyond := List.getElem?_eq_getElem (Nat.lt_of_not_le hMany)
  exact Nat.lt_irrefl _ (h.positional hBeyond).2

/-- The first parameters are taken by the arguments without names. -/
theorem length_le (h : a.Binds params bind) {i : Nat} {v : Value O}
    (argument : a.at? (.named i) = some v) : a.positional.length ≤ bind (.named i) := by
  by_contra hTaken
  have hw := List.getElem?_eq_getElem (Nat.lt_of_not_le hTaken)
  cases h.own (.positional _) (.named i) _ v hw argument (h.positional hw).1

/-- No argument that is bound is stray. -/
theorem clear (h : a.Binds params bind) (distinct : params.Nodup) :
    Clear params (a.taken params) a.names := by
  rintro k name ⟨hAt, hStray⟩
  obtain ⟨v, hv⟩ := name_at_iff.mp hAt
  have hArgument : a.at? (.named k) = some v := at?_named.mpr ⟨name, hv⟩
  have hParameter := h.named hv
  rcases hStray with hUnknown | hTaken | hRepeated
  · exact hUnknown (List.mem_of_getElem? hParameter)
  · obtain ⟨i, hCount, hi⟩ := mem_take_iff.mp hTaken
    cases place_unique distinct hi hParameter
    exact Nat.not_lt_of_le (h.length_le hArgument) hCount
  · obtain ⟨j, hBefore, hj⟩ := mem_take_iff.mp hRepeated
    obtain ⟨w, hw⟩ := name_at_iff.mp hj
    have hSame := place_unique distinct (h.named hw) hParameter
    cases h.own _ _ _ _ (at?_named.mpr ⟨name, hw⟩) hArgument hSame
    exact Nat.lt_irrefl _ hBefore

/-- Looking up a parameter finds the argument that is bound to it, if there is one. -/
theorem get?_eq_some_iff (h : a.Binds params bind) (distinct : params.Nodup) {p : Nat}
    {name : String} (parameter : params[p]? = some name) {v : Value O} :
    a.get? p name = some v ↔ ∃ s, a.at? s = some v ∧ bind s = p := by
  rw [get?]
  constructor
  · intro hGet
    cases hAt : a.positional[p]? with
    | some w =>
        rw [hAt] at hGet
        cases hGet
        exact ⟨.positional p, hAt, (h.positional hAt).1⟩
    | none =>
        rw [hAt] at hGet
        obtain ⟨k, hk⟩ := List.mem_iff_getElem?.mp (mem_of_lookup hGet)
        exact ⟨.named k, at?_named.mpr ⟨name, hk⟩, place_unique distinct (h.named hk) parameter⟩
  · rintro ⟨s, hs, rfl⟩
    cases s with
    | positional i =>
        have hAt : a.positional[i]? = some v := hs
        rw [(h.positional hAt).1, hAt]
        rfl
    | named k =>
        have hNone := List.getElem?_eq_none_iff.mpr (h.length_le hs)
        obtain ⟨n, hk⟩ := at?_named.mp hs
        cases parameter.symm.trans (h.named hk)
        rw [hNone]
        exact lookup_of_mem (nodup_of_clear (h.clear distinct)) (List.mem_of_getElem? hk)

/-- Every argument is bound to some parameter. -/
theorem exists_parameter (h : a.Binds params bind) {s : ArgumentPlace} {v : Value O}
    (argument : a.at? s = some v) : ∃ name, params[bind s]? = some name := by
  cases s with
  | positional i =>
      obtain ⟨hSame, hRange⟩ := h.positional argument
      rw [hSame]
      exact ⟨_, List.getElem?_eq_getElem hRange⟩
  | named k =>
      obtain ⟨name, hk⟩ := at?_named.mp argument
      exact ⟨name, h.named hk⟩

end Binds

def parameterOf (a : Arguments O) (params : List String) : ArgumentPlace → Nat
  | .positional i => i
  | .named i => params.idxOf ((a.named[i]?.map Prod.fst).getD "")

section

variable {a : Arguments O} {params : List String} (clear : Clear params (a.taken params) a.names)

include clear

theorem parameterOf_named {k : Nat} {name : String} {v : Value O}
    (argument : a.named[k]? = some (name, v)) :
    params[a.parameterOf params (.named k)]? = some name := by
  have hKnown : name ∈ params := by
    by_contra hUnknown
    exact clear k name ⟨name_at_iff.mpr ⟨v, argument⟩, .inl hUnknown⟩
  rw [parameterOf, argument]
  exact List.getElem?_idxOf hKnown

/-- No parameter is bound twice, as names that are taken by place are refused. -/
theorem parameterOf_ne {i k : Nat} {v w : Value O} (hv : a.at? (.positional i) = some v)
    (hw : a.at? (.named k) = some w) :
    a.parameterOf params (.positional i) ≠ a.parameterOf params (.named k) := by
  intro hSame
  obtain ⟨name, hAt⟩ := at?_named.mp hw
  have hParameter := parameterOf_named clear hAt
  rw [← hSame] at hParameter
  refine clear k name ⟨name_at_iff.mpr ⟨w, hAt⟩, .inr (.inl (mem_take_iff.mpr ?_))⟩
  exact ⟨i, (List.getElem?_eq_some_iff.mp hv).1, hParameter⟩

/-- Arguments that pass the check are bound by place and by name. -/
theorem binds_parameterOf (count : a.positional.length ≤ params.length) :
    a.Binds params (a.parameterOf params) := by
  refine ⟨fun s v hv => ?_, fun s t v w hv hw hSame => ?_⟩
  · cases s with
    | positional i =>
        exact ⟨rfl, Nat.lt_of_lt_of_le (List.getElem?_eq_some_iff.mp hv).1 count⟩
    | named k =>
        obtain ⟨name, hAt⟩ := at?_named.mp hv
        exact ⟨name, v, hAt, parameterOf_named clear hAt⟩
  · cases s with
    | positional i =>
        cases t with
        | positional j => exact congrArg ArgumentPlace.positional hSame
        | named k => exact absurd hSame (parameterOf_ne clear hv hw)
    | named k =>
        cases t with
        | positional j => exact absurd hSame.symm (parameterOf_ne clear hw hv)
        | named l =>
            obtain ⟨n, hn⟩ := at?_named.mp hv
            obtain ⟨m, hm⟩ := at?_named.mp hw
            have hParameter := parameterOf_named clear hn
            rw [hSame, parameterOf_named clear hm] at hParameter
            cases hParameter
            exact congrArg ArgumentPlace.named (place_unique (nodup_of_clear clear)
              (name_at_iff.mpr ⟨v, hn⟩) (name_at_iff.mpr ⟨w, hm⟩))

end

/-- Arguments pass the check if there is a way to bind them. -/
theorem checkAgainst_ok_iff {a : Arguments O} {params : List String} (distinct : params.Nodup) :
    a.checkAgainst params = .ok () ↔ ∃ bind, a.Binds params bind := by
  rcases a.checkAgainst_cases params with ⟨hMany, hError⟩ | ⟨hCount, hChecked⟩
  · rw [hError]
    exact ⟨nofun, fun ⟨_, h⟩ => absurd h.count_le (Nat.not_le.mpr hMany)⟩
  · rcases hChecked with ⟨hOk, clear⟩ | ⟨k, name, hError, hStray, _⟩
    · exact ⟨fun _ => ⟨_, binds_parameterOf clear hCount⟩, fun _ => hOk⟩
    · rw [hError]
      exact ⟨nofun, fun ⟨_, h⟩ => absurd hStray (h.clear distinct k name)⟩

/-- The check of arguments accepts exactly those that can be bound, each to a parameter of its own. Then
a parameter is looked up as the argument that is bound to it, or as nothing if none is, and so every
argument is found at its parameter. Otherwise the check fails. If there are more arguments without
names than parameters, it names the place after the last parameter, and else it names the first
argument with a name that is unknown, is the name of a parameter that is taken, or repeats a name
before it. -/
theorem checkAgainst_binds (a : Arguments O) {params : List String} (distinct : params.Nodup) :
    (a.checkAgainst params = .ok () ↔ ∃ bind, a.Binds params bind) ∧
      (∀ bind, a.Binds params bind →
        (∀ p name, params[p]? = some name → ∀ v,
          a.get? p name = some v ↔ ∃ s, a.at? s = some v ∧ bind s = p) ∧
        ∀ s v, a.at? s = some v →
          ∃ name, params[bind s]? = some name ∧ a.get? (bind s) name = some v) ∧
      ((¬ ∃ bind, a.Binds params bind) →
        ∃ name, a.checkAgainst params = .error (.unexpectedArgument name) ∧
          (params.length < a.positional.length ∧ name = "#" ++ toString (params.length + 1) ∨
            a.positional.length ≤ params.length ∧
              ∃ k, IsFirstStray params (a.taken params) a.names k name)) := by
  refine ⟨checkAgainst_ok_iff distinct, fun bind h => ⟨?_, ?_⟩, fun hNone => ?_⟩
  · intro p name parameter v
    exact h.get?_eq_some_iff distinct parameter
  · intro s v hv
    obtain ⟨name, parameter⟩ := h.exists_parameter hv
    exact ⟨name, parameter, (h.get?_eq_some_iff distinct parameter).mpr ⟨s, hv, rfl⟩⟩
  · rcases a.checkAgainst_cases params with ⟨hMany, hError⟩ | ⟨hCount, hChecked⟩
    · exact ⟨_, hError, .inl ⟨hMany, rfl⟩⟩
    · rcases hChecked with ⟨_, clear⟩ | ⟨k, name, hError, hFirst⟩
      · exact absurd ⟨_, binds_parameterOf clear hCount⟩ hNone
      · exact ⟨name, hError, .inr ⟨hCount, k, hFirst⟩⟩

/-- A separator that is given by its place and once more by its name, after a limit. -/
def separatorTwice : Arguments DocumentObject where
  positional := [.string ","]
  named := [("limit", .integer 2), ("separator", .string ";")]

def separatorOnce : Arguments DocumentObject where
  positional := [.string ","]
  named := [("limit", .integer 2)]

theorem checkAgainst_binds_separator :
    ["separator", "limit"].Nodup ∧
      (∃ bind, separatorOnce.Binds ["separator", "limit"] bind ∧
        ∃ name, ["separator", "limit"][bind (.named 0)]? = some name ∧
          separatorOnce.get? (bind (.named 0)) name = some (.integer 2)) ∧
      (¬ ∃ bind, separatorTwice.Binds ["separator", "limit"] bind) ∧
      separatorTwice.checkAgainst ["separator", "limit"] =
        .error (.unexpectedArgument "separator") := by
  have hDistinct : ["separator", "limit"].Nodup := by decide
  obtain ⟨hOnce, hFound, _⟩ := checkAgainst_binds separatorOnce hDistinct
  obtain ⟨bind, hBinds⟩ := hOnce.mp rfl
  have hTwice : separatorTwice.checkAgainst ["separator", "limit"] =
      .error (.unexpectedArgument "separator") := rfl
  refine ⟨hDistinct, ⟨bind, hBinds, (hFound bind hBinds).2 (.named 0) _ rfl⟩, fun hBound => ?_, hTwice⟩
  cases hTwice.symm.trans ((checkAgainst_binds separatorTwice hDistinct).1.mpr hBound)

end Arguments

end GatedQuery
