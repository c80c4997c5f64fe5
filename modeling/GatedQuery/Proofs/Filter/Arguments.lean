import GatedQuery.Filter.Catalogue
import GatedQuery.Proofs.Value.Arguments

/-! Builtin filters do not care how an argument is passed. Arguments that are accepted make one table
of parameters and values, however they are spelled, and a builtin filter sees nothing of them but
what this table has for its parameters. -/

namespace GatedQuery

namespace Arguments

variable {O : Type} {a a' : Arguments O} {params : List String}

/-- The parameters that the arguments are for, and their values. -/
def table (params : List String) (a : Arguments O) : List (String × Value O) :=
  params.zip a.positional ++ a.named

/-- The same arguments in another spelling. The last of those without names now have the names of their
parameters, and the arguments with names are in any order. -/
def Respelled (params : List String) (a a' : Arguments O) : Prop :=
  ∃ kept, a'.positional = a.positional.take kept ∧
    a'.named.Perm ((params.zip a.positional).drop kept ++ a.named)

/-- The two have the same argument for every parameter. -/
def Agree (params : List String) (a a' : Arguments O) : Prop :=
  ∀ i name, params[i]? = some name → a.get? i name = a'.get? i name

theorem zip_take (params : List String) (values : List (Value O)) (count : Nat) :
    params.zip (values.take count) = (params.zip values).take count := by
  induction count generalizing params values with
  | zero => simp
  | succ count ih => cases params <;> cases values <;> simp [ih]

theorem map_fst_zip (params : List String) (values : List (Value O)) :
    (params.zip values).map Prod.fst = params.take values.length := by
  induction params generalizing values with
  | nil => simp
  | cons param params ih => cases values <;> simp [ih]

/-- Writing arguments by name leaves fewer positional ones. -/
theorem Respelled.count_le (h : Respelled params a a')
    (count : a.positional.length ≤ params.length) : a'.positional.length ≤ params.length := by
  obtain ⟨kept, hKept, _⟩ := h
  rw [hKept, List.length_take]
  exact Nat.le_trans (Nat.min_le_right _ _) count

/-- A spelling does not change the table but for its order. -/
theorem Respelled.table_perm (h : Respelled params a a') : (a'.table params).Perm (a.table params) := by
  obtain ⟨kept, hKept, hNamed⟩ := h
  rw [table, table, hKept, zip_take]
  refine (hNamed.append_left _).trans ?_
  rw [← List.append_assoc, List.take_append_drop]

/-- The table of arguments has the parameters that are taken by place, and then the names. -/
theorem keys_table (params : List String) (a : Arguments O) :
    (a.table params).map Prod.fst = a.taken params ++ a.names := by
  rw [table, List.map_append, map_fst_zip, taken, names]

/-- No name is stray when the keys of the table are different and known. -/
theorem clear_iff_table (distinct : params.Nodup) : Clear params (a.taken params) a.names ↔
    ((a.table params).map Prod.fst).Nodup ∧ ∀ key ∈ (a.table params).map Prod.fst, key ∈ params := by
  rw [keys_table]
  constructor
  · intro clear
    have hOwn : ∀ name ∈ a.names, name ∈ params ∧ name ∉ a.taken params := by
      intro name hName
      obtain ⟨k, hAt⟩ := List.mem_iff_getElem?.mp hName
      have hNot := clear k name
      simp only [IsStray, hAt, true_and, not_or, not_not] at hNot
      exact ⟨hNot.1, hNot.2.1⟩
    refine ⟨List.nodup_append'.mpr ⟨?_, nodup_of_clear clear, ?_⟩, ?_⟩
    · exact distinct.sublist (List.take_sublist _ _)
    · exact fun name hTaken hName => (hOwn name hName).2 hTaken
    · intro name hName
      rcases List.mem_append.mp hName with hTaken | hName
      · exact List.mem_of_mem_take hTaken
      · exact (hOwn name hName).1
  · rintro ⟨hKeys, hKnown⟩ k name ⟨hAt, hStray⟩
    obtain ⟨_, hNames, hApart⟩ := List.nodup_append'.mp hKeys
    have hName := List.mem_of_getElem? hAt
    rcases hStray with hUnknown | hTaken | hRepeated
    · exact hUnknown (hKnown name (List.mem_append_right _ hName))
    · exact hApart hTaken hName
    · obtain ⟨j, hBefore, hj⟩ := mem_take_iff.mp hRepeated
      exact Nat.ne_of_lt hBefore (place_unique hNames hj hAt)

/-- Arguments are accepted if there are not too many and every name is a parameter that is left. -/
theorem accepted_iff_clear : a.checkAgainst params = .ok () ↔
    a.positional.length ≤ params.length ∧ Clear params (a.taken params) a.names := by
  rcases a.checkAgainst_cases params with ⟨hMany, hError⟩ | ⟨hCount, hChecked⟩
  · rw [hError]
    exact ⟨nofun, fun h => absurd h.1 (Nat.not_le.mpr hMany)⟩
  · rcases hChecked with ⟨hOk, clear⟩ | ⟨k, name, hError, hStray, _⟩
    · exact ⟨fun _ => ⟨hCount, clear⟩, fun _ => hOk⟩
    · rw [hError]
      exact ⟨nofun, fun h => absurd hStray (h.2 k name)⟩

/-- Arguments that are accepted stay so when they are written by name, in any order. -/
theorem Respelled.accepted (h : Respelled params a a') (distinct : params.Nodup)
    (accepted : a.checkAgainst params = .ok ()) : a'.checkAgainst params = .ok () := by
  obtain ⟨hCount, clear⟩ := accepted_iff_clear.mp accepted
  obtain ⟨hKeys, hKnown⟩ := (clear_iff_table distinct).mp clear
  have hPerm := h.table_perm.map Prod.fst
  refine accepted_iff_clear.mpr ⟨h.count_le hCount, (clear_iff_table distinct).mpr ⟨?_, ?_⟩⟩
  · exact hPerm.nodup_iff.mpr hKeys
  · exact fun key hKey => hKnown key (hPerm.mem_iff.mp hKey)

/-- Looking up a parameter of arguments that are accepted is looking it up in their table. -/
theorem get?_eq_lookup (distinct : params.Nodup) (accepted : a.checkAgainst params = .ok ())
    {i : Nat} {name : String} (parameter : params[i]? = some name) :
    a.get? i name = (a.table params).lookup name := by
  obtain ⟨_, clear⟩ := accepted_iff_clear.mp accepted
  have hKeys := ((clear_iff_table distinct).mp clear).1
  have hPlace {j : Nat} {n : String} {v : Value O} (hn : params[j]? = some n)
      (hv : a.positional[j]? = some v) : (n, v) ∈ a.table params :=
    List.mem_append_left _ (List.mem_of_getElem? (List.getElem?_zip_eq_some.mpr ⟨hn, hv⟩))
  rw [get?]
  cases hAt : a.positional[i]? with
  | some v => exact (lookup_of_mem hKeys (hPlace parameter hAt)).symm
  | none =>
      refine Option.ext fun v => ⟨fun hNamed => ?_, fun hTable => ?_⟩
      · exact lookup_of_mem hKeys (List.mem_append_right _ (mem_of_lookup hNamed))
      · rcases List.mem_append.mp (mem_of_lookup hTable) with hZip | hNamed
        · obtain ⟨j, hj⟩ := List.mem_iff_getElem?.mp hZip
          obtain ⟨hn, hv⟩ := List.getElem?_zip_eq_some.mp hj
          cases place_unique distinct hn parameter
          cases hAt.symm.trans hv
        · exact lookup_of_mem (nodup_of_clear clear) hNamed

/-- The order of entries does not matter if no key is repeated. -/
theorem lookup_perm {entries entries' : List (String × Value O)} (h : entries'.Perm entries)
    (distinct : (entries.map Prod.fst).Nodup) (key : String) :
    entries'.lookup key = entries.lookup key := by
  have hDistinct := (h.map Prod.fst).nodup_iff.mpr distinct
  refine Option.ext fun v => ⟨fun hv => ?_, fun hv => ?_⟩
  · exact lookup_of_mem distinct (h.mem_iff.mp (mem_of_lookup hv))
  · exact lookup_of_mem hDistinct (h.mem_iff.mpr (mem_of_lookup hv))

/-- Arguments that are written by name have the same values for all parameters. -/
theorem Respelled.agree (h : Respelled params a a') (distinct : params.Nodup)
    (accepted : a.checkAgainst params = .ok ()) : Agree params a' a := by
  intro i name parameter
  obtain ⟨_, clear⟩ := accepted_iff_clear.mp accepted
  have hKeys := ((clear_iff_table distinct).mp clear).1
  calc a'.get? i name
    _ = (a'.table params).lookup name :=
      get?_eq_lookup distinct (h.accepted distinct accepted) parameter
    _ = (a.table params).lookup name := lookup_perm h.table_perm hKeys name
    _ = a.get? i name := (get?_eq_lookup distinct accepted parameter).symm

/-- Arguments by name are those of the parameters that have one. -/
theorem mem_byName {name : String} {v : Value O} : (name, v) ∈ (a.byName params).named ↔
    ∃ i, params[i]? = some name ∧ a.get? i name = some v := by
  constructor
  · intro h
    obtain ⟨⟨n, i⟩, hPlace, hFound⟩ := List.mem_filterMap.mp h
    obtain ⟨w, hGet, hSame⟩ := Option.map_eq_some_iff.mp hFound
    cases hSame
    exact ⟨i, List.mem_zipIdx_iff_getElem?.mp hPlace, hGet⟩
  · rintro ⟨i, hPlace, hGet⟩
    refine List.mem_filterMap.mpr ⟨(name, i), List.mem_zipIdx_iff_getElem?.mpr hPlace, ?_⟩
    exact Option.map_eq_some_iff.mpr ⟨v, hGet, rfl⟩

theorem nodup_byName (distinct : params.Nodup) :
    ((a.byName params).named.map Prod.fst).Nodup := by
  have hPlaces : (params.zipIdx.map Prod.fst).Nodup := by
    rw [List.zipIdx_map_fst]
    exact distinct
  rw [List.nodup_iff_pairwise_ne, List.pairwise_map] at hPlaces ⊢
  refine List.pairwise_filterMap.mpr (hPlaces.imp fun hNames e he f hf => ?_)
  obtain ⟨_, _, rfl⟩ := Option.map_eq_some_iff.mp he
  obtain ⟨_, _, rfl⟩ := Option.map_eq_some_iff.mp hf
  exact hNames

/-- Naming all arguments keeps the values of the parameters. -/
theorem agree_byName (distinct : params.Nodup) (a : Arguments O) :
    Agree params (a.byName params) a := by
  intro i name parameter
  change (a.byName params).named.lookup name = a.get? i name
  refine Option.ext fun v => ⟨fun hv => ?_, fun hv => ?_⟩
  · obtain ⟨j, hj, hGet⟩ := mem_byName.mp (mem_of_lookup hv)
    cases place_unique distinct hj parameter
    exact hGet
  · exact lookup_of_mem (nodup_byName distinct) (mem_byName.mpr ⟨i, parameter, hv⟩)

section

variable [Inspectable O] {i : Nat} {name : String}

theorem getString_congr (h : a.get? i name = a'.get? i name) :
    a.getString i name = a'.getString i name := by
  simp only [getString, getRequired, h]

theorem getString?_congr (h : a.get? i name = a'.get? i name) :
    a.getString? i name = a'.getString? i name := by
  simp only [getString?, getOptional, h]

theorem getInteger?_congr (h : a.get? i name = a'.get? i name) :
    a.getInteger? i name = a'.getInteger? i name := by
  simp only [getInteger?, getOptional, h]

end

end Arguments

namespace Builtin

variable {O : Type}

/-- A filter with different parameters that looks its arguments up at these alone, each by its own place
and name. -/
structure ReadsParameters (b : Builtin O) : Prop where
  distinct : b.params.Nodup
  body_eq : ∀ v a a', a.Agree b.params a' → b.body v a = b.body v a'

namespace ReadsParameters

variable [Inspectable O]

/-- These filters have no parameters to read. -/
theorem mapChars (name : String) (f : List Char → List Char) :
    ReadsParameters (Builtin.mapChars (O := O) name f) :=
  ⟨List.nodup_nil, fun _ _ _ _ => rfl⟩

/-- The test reads its only parameter by place or by name. -/
theorem testString (name param : String) (test : List Char → List Char → Bool) :
    ReadsParameters (Builtin.testString (O := O) name param test) := by
  refine ⟨List.nodup_singleton param, fun v a a' h => ?_⟩
  simp only [Builtin.testString, Arguments.getString_congr (h 0 param rfl)]

theorem ofItems (name : String) (f : List (Value O) → Value O) :
    ReadsParameters (Builtin.ofItems name f) :=
  ⟨List.nodup_nil, fun _ _ _ _ => rfl⟩

theorem ofEntries (name : String) (f : List (String × Value O) → Value O) :
    ReadsParameters (Builtin.ofEntries name f) :=
  ⟨List.nodup_nil, fun _ _ _ _ => rfl⟩

theorem length : ReadsParameters (Builtin.length (O := O)) :=
  ⟨List.nodup_nil, fun _ _ _ _ => rfl⟩

theorem abs : ReadsParameters (Builtin.abs (O := O)) :=
  ⟨List.nodup_nil, fun _ _ _ _ => rfl⟩

theorem split : ReadsParameters (Builtin.split (O := O)) := by
  refine ⟨List.nodup_singleton "sep", fun v a a' h => ?_⟩
  simp only [Builtin.split, Arguments.getString?_congr (h 0 "sep" rfl)]

theorem join : ReadsParameters (Builtin.join (O := O)) := by
  refine ⟨List.nodup_singleton "sep", fun v a a' h => ?_⟩
  simp only [Builtin.join, Arguments.getString?_congr (h 0 "sep" rfl)]

theorem matchesPattern : ReadsParameters (Builtin.matchesPattern (O := O)) := by
  refine ⟨List.nodup_singleton "pattern", fun v a a' h => ?_⟩
  simp only [Builtin.matchesPattern, getPattern, Arguments.getString_congr (h 0 "pattern" rfl)]

/-- Both parameters are read by place or by name. -/
theorem replace : ReadsParameters (Builtin.replace (O := O)) := by
  have hDistinct : ["pattern", "replacement"].Nodup := by decide
  refine ⟨hDistinct, fun v a a' h => ?_⟩
  simp only [Builtin.replace, getPattern, Arguments.getString_congr (h 0 "pattern" rfl),
    Arguments.getString_congr (h 1 "replacement" rfl)]

theorem get : ReadsParameters (Builtin.get (O := O)) := by
  have hDistinct : ["key", "default"].Nodup := by decide
  refine ⟨hDistinct, fun v a a' h => ?_⟩
  simp only [Builtin.get, Arguments.getString_congr (h 0 "key" rfl), h 1 "default" rfl]

theorem round : ReadsParameters (Builtin.round (O := O)) := by
  refine ⟨List.nodup_singleton "ndigits", fun v a a' h => ?_⟩
  simp only [Builtin.round, Arguments.getInteger?_congr (h 0 "ndigits" rfl)]

theorem ofStrings : ∀ b ∈ Builtin.ofStrings (O := O), ReadsParameters b := by
  simp only [Builtin.ofStrings, List.forall_mem_cons, List.not_mem_nil, false_implies, implies_true,
    and_true]
  exact ⟨mapChars _ _, mapChars _ _, mapChars _ _, length, testString _ _ _, testString _ _ _,
    testString _ _ _, split, matchesPattern, replace⟩

theorem ofLists : ∀ b ∈ Builtin.ofLists (O := O), ReadsParameters b := by
  simp only [Builtin.ofLists, List.forall_mem_cons, List.not_mem_nil, false_implies, implies_true,
    and_true]
  exact ⟨length, ofItems _ _, ofItems _ _, ofItems _ _, join⟩

theorem ofMaps : ∀ b ∈ Builtin.ofMaps (O := O), ReadsParameters b := by
  simp only [Builtin.ofMaps, List.forall_mem_cons, List.not_mem_nil, false_implies, implies_true,
    and_true]
  exact ⟨ofEntries _ _, ofEntries _ _, get, length⟩

theorem ofNumbers : ∀ b ∈ Builtin.ofNumbers (O := O), ReadsParameters b := by
  simp only [Builtin.ofNumbers, List.forall_mem_cons, List.not_mem_nil, false_implies, implies_true,
    and_true]
  exact ⟨abs, round⟩

/-- Every builtin filter reads its arguments through its parameters. -/
theorem forType {type : String} {b : Builtin O} (hb : b ∈ Builtin.forType type) :
    ReadsParameters b := by
  unfold Builtin.forType at hb
  split at hb
  · exact ofStrings b hb
  · exact ofLists b hb
  · exact ofMaps b hb
  · exact ofNumbers b hb
  · exact ofNumbers b hb
  · exact absurd hb List.not_mem_nil

end ReadsParameters

variable {b : Builtin O} {a : Arguments O}

/-- A filter runs as if all its arguments were named. -/
theorem run_of_accepted (accepted : a.checkAgainst b.params = .ok ()) (receiver : Value O) :
    b.run receiver a = b.body receiver (a.byName b.params) := by
  rw [run, accepted]
  rfl

/-- A filter that reads its parameters finds in arguments that are accepted what it finds by name. -/
theorem ReadsParameters.run_eq_body (h : ReadsParameters b)
    (accepted : a.checkAgainst b.params = .ok ()) (receiver : Value O) :
    b.run receiver a = b.body receiver a := by
  rw [run_of_accepted accepted]
  exact h.body_eq _ _ _ (a.agree_byName h.distinct)

/-- A builtin filter has one answer for arguments that are accepted and for every other spelling of
them, and this is also its answer when it looks at either of them as they are passed. -/
theorem run_respelled [Inspectable O] {type : String} (builtin : b ∈ forType type)
    (receiver : Value O) {a' : Arguments O} (accepted : a.checkAgainst b.params = .ok ())
    (respelled : a.Respelled b.params a') :
    a'.checkAgainst b.params = .ok () ∧ b.run receiver a' = b.run receiver a ∧
      b.run receiver a = b.body receiver a ∧ b.run receiver a' = b.body receiver a' := by
  have hReads := ReadsParameters.forType builtin
  have hAccepted := respelled.accepted hReads.distinct accepted
  have hSame := hReads.run_eq_body accepted receiver
  have hSame' := hReads.run_eq_body hAccepted receiver
  refine ⟨hAccepted, ?_, hSame, hSame'⟩
  calc b.run receiver a'
    _ = b.body receiver a' := hSame'
    _ = b.body receiver a := hReads.body_eq _ _ _ (respelled.agree hReads.distinct accepted)
    _ = b.run receiver a := hSame.symm

/-- A key and a default for it, by their places. -/
def defaultByPlace : Arguments DocumentObject where
  positional := [.string "id", .integer 7]
  named := []

def defaultByName : Arguments DocumentObject where
  positional := []
  named := [("default", .integer 7), ("key", .string "id")]

theorem run_respelled_default :
    defaultByPlace.checkAgainst ["key", "default"] = .ok () ∧
      defaultByPlace.Respelled ["key", "default"] defaultByName ∧
      get.run (.map []) defaultByName = get.run (.map []) defaultByPlace ∧
      get.run (.map []) defaultByPlace = .ok (.integer 7) := by
  have hBuiltin : get (O := DocumentObject) ∈ forType "map" := .tail _ (.tail _ (.head _))
  have hAccepted : defaultByPlace.checkAgainst ["key", "default"] = .ok () := rfl
  have hRespelled : defaultByPlace.Respelled ["key", "default"] defaultByName :=
    ⟨0, rfl, .swap _ _ _⟩
  obtain ⟨_, hSame, _⟩ := run_respelled hBuiltin (.map []) hAccepted hRespelled
  exact ⟨hAccepted, hRespelled, hSame, rfl⟩

end Builtin

end GatedQuery
