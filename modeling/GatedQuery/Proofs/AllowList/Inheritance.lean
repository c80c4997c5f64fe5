import GatedQuery.Proofs.AllowList.Declared
import Mathlib.Data.Fintype.EquivFin
import Mathlib.Order.WellFounded

/-! Which declaration of a member a type inherits. The walk of the hierarchy is stated on what is
declared, without the search that finds it, and depends only on the declarations of the type and of
its ancestors. -/

namespace GatedQuery

namespace Declared

variable {O : Type}

/-- Every type that is extended is declared. -/
def Closed (D : Declared O) : Prop :=
  ∀ t s, s ∈ D.supertypes t → s ∈ D.types

/-- No type inherits from itself. -/
def Acyclic (D : Declared O) : Prop :=
  ∀ t, ¬ IsAncestor D.supertypes t t

/-- The ancestor `s` of the type `t` declares the member `m` and hands it down. The switches of the
types between them do not matter. -/
structure HandsDown (D : Declared O) (t m s : String) : Prop where
  above : IsAncestor D.supertypes t s
  propagates : D.propagates s = true
  declares : m ∈ (D.members s).names

/-- Another ancestor that hands the member down lies below. -/
def Overridden (D : Declared O) (t m s : String) : Prop :=
  ∃ u, D.HandsDown t m u ∧ u ≠ s ∧ IsAncestor D.supertypes u s

/-- A declaration that counts: no other one overrides it, and none of those that are not overridden
is nearer. -/
structure Decisive (D : Declared O) (t m s : String) : Prop where
  handsDown : D.HandsDown t m s
  specific : ¬ D.Overridden t m s
  nearest : ∀ n u k, IsDistance D.supertypes t s n → D.HandsDown t m u → ¬ D.Overridden t m u →
    IsDistance D.supertypes t u k → n ≤ k

/-- More than one declaration counts, and not all of them leave the member to the value itself. -/
structure Tied (D : Declared O) (t m : String) : Prop where
  several : ∃ s u, s ≠ u ∧ D.Decisive t m s ∧ D.Decisive t m u
  filtered : ∃ s x, D.Decisive t m s ∧ (m, x) ∈ D.members s ∧ x.isNative = false

/-- A type would inherit a member that is tied. -/
structure Ambiguous (D : Declared O) (t m : String) : Prop where
  inherits : D.inherits t = true
  undeclared : m ∉ (D.members t).names
  tied : D.Tied t m

/-- The owners of a tied member in order. -/
structure TiedOwners (D : Declared O) (t m : String) (owners : List String) : Prop where
  sorted : owners.Pairwise (· < ·)
  decisive : ∀ s, s ∈ owners ↔ D.Decisive t m s

/-- What the type `t` inherits as the member `m`: nothing if no ancestor hands it down, and else the
accessor of every declaration that counts. There is only one such declaration, or all of them leave
the member to the value itself. -/
structure Inherits (D : Declared O) (t m : String) (answer : Option (Accessor O)) : Prop where
  nothing : (∀ s, ¬ D.HandsDown t m s) → answer = none
  something : (∃ s, D.HandsDown t m s) → ∃ x, answer = some x ∧ (∃ s, D.Decisive t m s) ∧
    (∀ s, D.Decisive t m s → (m, x) ∈ D.members s) ∧
    ((∀ s u, D.Decisive t m s → D.Decisive t m u → s = u) ∨ x = .native)

/-- What the walk of the hierarchy finds for the member `m` of the type `t`. -/
structure Resolves (D : Declared O) (t m : String) (answer : Option (Accessor O)) : Prop where
  unknown : t ∉ D.types → answer = none
  own : ∀ x, t ∈ D.types → (m, x) ∈ D.members t → answer = some x
  alone : m ∉ (D.members t).names → D.inherits t = false → answer = none
  inherited : m ∉ (D.members t).names → D.inherits t = true → D.Inherits t m answer

variable {D D' : Declared O} {t m s u : String} {n : Nat}

/-- A type that has ancestors is declared. -/
theorem Sound.mem_of_isAncestor (sound : D.Sound) (h : IsAncestor D.supertypes t s) :
    t ∈ D.types := by
  obtain ⟨n, hn, hClimbs⟩ := h
  induction hClimbs with
  | refl => exact absurd hn (Nat.lt_irrefl 0)
  | @step k u v below edge ih =>
      rcases Nat.eq_zero_or_pos k with rfl | hk
      · cases below
        exact sound.mem_of_mem_supertypes edge
      · exact ih hk

/-- All ancestors are declared if all supertypes are. -/
theorem Closed.mem_of_isAncestor (closed : D.Closed) (h : IsAncestor D.supertypes t s) :
    s ∈ D.types := by
  obtain ⟨n, hn, hClimbs⟩ := h
  cases hClimbs with
  | refl => exact absurd hn (Nat.lt_irrefl 0)
  | step _ edge => exact closed _ _ edge

/-- A type that is not declared has no member. -/
theorem Resolves.of_unknown (sound : D.Sound) (hUnknown : t ∉ D.types) : D.Resolves t m none := by
  refine ⟨fun _ => rfl, fun _ ht => absurd ht hUnknown, fun _ _ => rfl, fun _ _ => ?_⟩
  refine ⟨fun _ => rfl, ?_⟩
  rintro ⟨s, hs⟩
  exact absurd (sound.mem_of_isAncestor hs.above) hUnknown

/-- Without cycles one of the declarations that are handed down is not overridden: the overriding
ones lie lower and lower, among finitely many types. -/
theorem HandsDown.exists_specific (hHanded : D.HandsDown t m s) (closed : D.Closed)
    (acyclic : D.Acyclic) : ∃ u, D.HandsDown t m u ∧ ¬ D.Overridden t m u := by
  let below (u v : {s // s ∈ D.types}) : Prop := IsAncestor D.supertypes u.1 v.1
  have hTrans : IsTrans _ below := ⟨fun _ _ _ h h' => h.trans h'⟩
  have hIrrefl : Std.Irrefl below := ⟨fun v h => acyclic v.1 h⟩
  obtain ⟨⟨u, hu⟩, hMem, hMin⟩ := (Finite.wellFounded_of_trans_of_irrefl below).has_min
    {v | D.HandsDown t m v.1} ⟨⟨s, closed.mem_of_isAncestor hHanded.above⟩, hHanded⟩
  refine ⟨u, hMem, ?_⟩
  rintro ⟨v, hv, _, hBelow⟩
  exact hMin ⟨v, closed.mem_of_isAncestor hv.above⟩ hv hBelow

/-- If any type hands a member down, some type is decisive. Without cycles there is one that no
other overrides. -/
theorem HandsDown.exists_decisive (hHanded : D.HandsDown t m s) (closed : D.Closed)
    (acyclic : D.Acyclic) : ∃ u, D.Decisive t m u := by
  classical
  obtain ⟨v, hv, hSpecific⟩ := hHanded.exists_specific closed acyclic
  obtain ⟨k, hk⟩ := hv.above.exists_distance
  have hSome : ∃ n u, D.HandsDown t m u ∧ ¬ D.Overridden t m u ∧ IsDistance D.supertypes t u n :=
    ⟨k, v, hv, hSpecific, hk⟩
  obtain ⟨u, hu, hLeast, hDistance⟩ := Nat.find_spec hSome
  refine ⟨u, hu, hLeast, fun n w j hn hw hOther hj => ?_⟩
  rw [hn.unique hDistance]
  exact Nat.find_min' hSome ⟨w, hw, hOther, hj⟩

/-- A declaration that counts speaks for all of them if they are not tied. -/
theorem Decisive.speaksForAll (hs : D.Decisive t m s) (h : ¬ D.Tied t m) {x : Accessor O}
    (hx : (m, x) ∈ D.members s) :
    (∀ u, D.Decisive t m u → (m, x) ∈ D.members u) ∧
      ((∀ u v, D.Decisive t m u → D.Decisive t m v → u = v) ∨ x = .native) := by
  by_cases hSeveral : ∃ u v, u ≠ v ∧ D.Decisive t m u ∧ D.Decisive t m v
  · -- With more than one owner no filter can be among them.
    have hNative {v : String} {y : Accessor O} (hv : D.Decisive t m v) (hy : (m, y) ∈ D.members v) :
        y = .native := by
      cases y with
      | native => rfl
      | filter f => exact absurd ⟨hSeveral, v, _, hv, hy, rfl⟩ h
    obtain rfl := hNative hs hx
    refine ⟨fun u hu => ?_, .inr rfl⟩
    obtain ⟨⟨_, y⟩, hy, rfl⟩ := List.mem_map.mp hu.handsDown.declares
    exact hNative hu hy ▸ hy
  · have hUnique (u v : String) (hu : D.Decisive t m u) (hv : D.Decisive t m v) : u = v := by
      by_contra hOther
      exact hSeveral ⟨u, v, hOther, hu, hv⟩
    exact ⟨fun u hu => hUnique s u hs hu ▸ hx, .inl hUnique⟩

/-- The same is declared of a type, whatever the order. -/
structure AgreeAt (D D' : Declared O) (t : String) : Prop where
  types : t ∈ D.types ↔ t ∈ D'.types
  supertypes : (D.supertypes t).Perm (D'.supertypes t)
  members : (D.members t).Perm (D'.members t)
  inherits : D.inherits t = D'.inherits t
  propagates : D.propagates t = D'.propagates t

/-- The same is declared of a type and of all types that it climbs to. -/
def AgreeFrom (D D' : Declared O) (t : String) : Prop :=
  ∀ n s, Climbs D.supertypes t n s → D.AgreeAt D' s

theorem AgreeAt.symm (h : D.AgreeAt D' t) : D'.AgreeAt D t :=
  ⟨h.types.symm, h.supertypes.symm, h.members.symm, h.inherits.symm, h.propagates.symm⟩

theorem AgreeAt.mem_names (h : D.AgreeAt D' t) :
    m ∈ (D.members t).names ↔ m ∈ (D'.members t).names :=
  (h.members.map Prod.fst).mem_iff

namespace AgreeFrom

/-- Declarations that agree from a type on agree about the type itself. -/
theorem agreeAt (agree : D.AgreeFrom D' t) : D.AgreeAt D' t :=
  agree 0 t .refl

/-- Where declarations agree, the same edges lead up from the type. -/
theorem climbs (agree : D.AgreeFrom D' t) (h : Climbs D.supertypes t n s) :
    Climbs D'.supertypes t n s := by
  induction h with
  | refl => exact .refl
  | step below edge ih => exact .step ih ((agree _ _ below).supertypes.mem_iff.mp edge)

theorem climbs_back (agree : D.AgreeFrom D' t) (h : Climbs D'.supertypes t n s) :
    Climbs D.supertypes t n s := by
  induction h with
  | refl => exact .refl
  | step _ edge ih => exact .step ih ((agree _ _ ih).supertypes.mem_iff.mpr edge)

/-- Agreeing from a type on goes both ways, as both sides climb alike. -/
theorem symm (agree : D.AgreeFrom D' t) : D'.AgreeFrom D t :=
  fun n s h => (agree n s (agree.climbs_back h)).symm

/-- Where declarations agree, a type has the same ancestors. -/
theorem ancestor (agree : D.AgreeFrom D' t) (h : IsAncestor D.supertypes t s) :
    IsAncestor D'.supertypes t s := by
  obtain ⟨n, hn, hClimbs⟩ := h
  exact ⟨n, hn, agree.climbs hClimbs⟩

/-- Declarations that agree from a type on agree from each of its ancestors on. -/
theorem above (agree : D.AgreeFrom D' t) (h : IsAncestor D.supertypes t s) : D.AgreeFrom D' s := by
  obtain ⟨m, _, hBelow⟩ := h
  exact fun n u hAbove => agree (m + n) u (hBelow.trans hAbove)

theorem distance (agree : D.AgreeFrom D' t) (h : IsDistance D.supertypes t s n) :
    IsDistance D'.supertypes t s n :=
  ⟨h.pos, agree.climbs h.climbs, fun k hk hc => h.least k hk (agree.climbs_back hc)⟩

/-- Agreeing declarations hand the same members down to the type. -/
theorem handsDown (agree : D.AgreeFrom D' t) (h : D.HandsDown t m s) : D'.HandsDown t m s := by
  have hAt := (agree.above h.above).agreeAt
  exact ⟨agree.ancestor h.above, hAt.propagates ▸ h.propagates, hAt.mem_names.mp h.declares⟩

/-- Agreeing declarations override alike. -/
theorem overridden (agree : D.AgreeFrom D' t) (h : D.Overridden t m s) : D'.Overridden t m s := by
  obtain ⟨u, hu, hOther, hBelow⟩ := h
  exact ⟨u, agree.handsDown hu, hOther, (agree.above hu.above).ancestor hBelow⟩

/-- Agreeing declarations have the same decisive owners. -/
theorem decisive (agree : D.AgreeFrom D' t) (h : D.Decisive t m s) : D'.Decisive t m s := by
  refine ⟨agree.handsDown h.handsDown, fun hOver => h.specific (agree.symm.overridden hOver), ?_⟩
  intro n u k hn hu hSpecific hk
  exact h.nearest n u k (agree.symm.distance hn) (agree.symm.handsDown hu)
    (fun hOver => hSpecific (agree.overridden hOver)) (agree.symm.distance hk)

theorem decisive_members (agree : D.AgreeFrom D' t) (h : D.Decisive t m s) {x : Accessor O} :
    (m, x) ∈ D.members s ↔ (m, x) ∈ D'.members s :=
  (agree.above h.handsDown.above).agreeAt.members.mem_iff

/-- Agreeing declarations tie the same members. -/
theorem tied (agree : D.AgreeFrom D' t) (h : D.Tied t m) : D'.Tied t m := by
  obtain ⟨⟨s, u, hOther, hs, hu⟩, v, x, hv, hx, hFilter⟩ := h
  exact ⟨⟨s, u, hOther, agree.decisive hs, agree.decisive hu⟩, v, x, agree.decisive hv,
    (agree.decisive_members hv).mp hx, hFilter⟩

theorem ambiguous (agree : D.AgreeFrom D' t) (h : D.Ambiguous t m) : D'.Ambiguous t m :=
  ⟨agree.agreeAt.inherits ▸ h.inherits, agree.agreeAt.mem_names.not.mp h.undeclared,
    agree.tied h.tied⟩

/-- Agreeing declarations give the type the same inherited members. -/
theorem inherits (agree : D.AgreeFrom D' t) {answer : Option (Accessor O)}
    (h : D.Inherits t m answer) : D'.Inherits t m answer := by
  constructor
  · exact fun hNone => h.nothing fun s hs => hNone s (agree.handsDown hs)
  · rintro ⟨s, hs⟩
    obtain ⟨x, hAnswer, ⟨u, hu⟩, hMembers, hTied⟩ := h.something ⟨s, agree.symm.handsDown hs⟩
    refine ⟨x, hAnswer, ⟨u, agree.decisive hu⟩, fun v hv => ?_, hTied.imp_left fun hUnique => ?_⟩
    · exact (agree.symm.decisive_members hv).mpr (hMembers v (agree.symm.decisive hv))
    · exact fun v w hv hw => hUnique v w (agree.symm.decisive hv) (agree.symm.decisive hw)

/-- Declarations that agree from a type on resolve its members in the same way. -/
theorem resolves (agree : D.AgreeFrom D' t) {answer : Option (Accessor O)}
    (h : D.Resolves t m answer) : D'.Resolves t m answer := by
  have hAt := agree.agreeAt
  constructor
  · exact fun hUnknown => h.unknown (hAt.types.not.mpr hUnknown)
  · exact fun x hType hx => h.own x (hAt.types.mpr hType) (hAt.members.mem_iff.mpr hx)
  · exact fun hNew hAlone => h.alone (hAt.mem_names.not.mpr hNew) (hAt.inherits.trans hAlone)
  · intro hNew hInherits
    exact agree.inherits (h.inherited (hAt.mem_names.not.mpr hNew) (hAt.inherits.trans hInherits))

end AgreeFrom

/-- A type inherits at most one accessor under a name: the answers of two cases of the walk cannot
differ. -/
theorem Inherits.unique {x? y? : Option (Accessor O)} (hx : D.Inherits t m x?)
    (hy : D.Inherits t m y?) (distinct : ∀ u, (D.members u).names.Nodup) : x? = y? := by
  by_cases hHanded : ∃ s, D.HandsDown t m s
  · obtain ⟨x, rfl, ⟨s, hs⟩, hMembers, _⟩ := hx.something hHanded
    obtain ⟨y, rfl, _, hOthers, _⟩ := hy.something hHanded
    exact congrArg some (MemberTable.eq_of_mem (distinct s) (hMembers s hs) (hOthers s hs))
  · rw [hx.nothing (not_exists.mp hHanded), hy.nothing (not_exists.mp hHanded)]

/-- The walk finds one answer. -/
theorem Resolves.unique {x? y? : Option (Accessor O)} (hx : D.Resolves t m x?)
    (hy : D.Resolves t m y?) (distinct : ∀ u, (D.members u).names.Nodup) : x? = y? := by
  by_cases hType : t ∈ D.types
  · by_cases hOwn : m ∈ (D.members t).names
    · obtain ⟨⟨_, x⟩, hMember, rfl⟩ := List.mem_map.mp hOwn
      rw [hx.own x hType hMember, hy.own x hType hMember]
    · cases hInherits : D.inherits t with
      | false => rw [hx.alone hOwn hInherits, hy.alone hOwn hInherits]
      | true => exact (hx.inherited hOwn hInherits).unique (hy.inherited hOwn hInherits) distinct
  · rw [hx.unknown hType, hy.unknown hType]

end Declared

end GatedQuery
