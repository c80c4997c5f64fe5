import GatedQuery.Document.Values
import GatedQuery.Proofs.Secrecy.Builtins
import GatedQuery.Proofs.Secrecy.Solving

/-! Documents that differ only under fields that an allow-list denies, and when their values look
alike. A record answers a call of a field by itself: if the field holds another record, the call
reads any entry of that one, and the allow-list is asked about the field alone. -/

namespace GatedQuery

abbrev Permissions := String → String → Option (Accessor DocumentObject)

section

variable (allowed : Permissions) (opens : String → String → Bool)

mutual

/-- Trees that are equal except under denied fields of records. A record that is `opened` has no such
exceptions of its own. The fields whose value is opened are given by `opens`. -/
inductive Alike : Bool → Json → Json → Prop where
  | null {opened : Bool} : Alike opened .null .null
  | boolean {opened : Bool} (b : Bool) : Alike opened (.boolean b) (.boolean b)
  | integer {opened : Bool} (n : Int64) : Alike opened (.integer n) (.integer n)
  | float {opened : Bool} (x : Float) : Alike opened (.float x) (.float x)
  | string {opened : Bool} (s : String) : Alike opened (.string s) (.string s)
  | array {opened : Bool} {js ks : List Json} (items : AlikeItems js ks) :
      Alike opened (.array js) (.array ks)
  | map {opened : Bool} {ms ns : List (String × Json)} (left : Json.recordType? ms = none)
      (right : Json.recordType? ns = none) (members : AlikeMembers ms ns) :
      Alike opened (.object ms) (.object ns)
  | record {opened : Bool} {type : String} {ms ns : List (String × Json)}
      (left : Json.recordType? ms = some type) (right : Json.recordType? ns = some type)
      (fields : AlikeFields opened type ms ns) : Alike opened (.object ms) (.object ns)

inductive AlikeItems : List Json → List Json → Prop where
  | nil : AlikeItems [] []
  | cons {j k : Json} {js ks : List Json} (head : Alike false j k) (rest : AlikeItems js ks) :
      AlikeItems (j :: js) (k :: ks)

/-- Members under the same keys whose values are alike. -/
inductive AlikeMembers : List (String × Json) → List (String × Json) → Prop where
  | nil : AlikeMembers [] []
  | cons {key : String} {j k : Json} {ms ns : List (String × Json)} (head : Alike false j k)
      (rest : AlikeMembers ms ns) : AlikeMembers ((key, j) :: ms) ((key, k) :: ns)

/-- Fields of two records of one type. A field that is denied may hold anything. -/
inductive AlikeFields : Bool → String → List (String × Json) → List (String × Json) → Prop where
  | nil {opened : Bool} {type : String} : AlikeFields opened type [] []
  | kept {opened : Bool} {type key : String} {j k : Json} {ms ns : List (String × Json)}
      (value : Alike (opens type key) j k) (rest : AlikeFields opened type ms ns) :
      AlikeFields opened type ((key, j) :: ms) ((key, k) :: ns)
  | denied {type key : String} {j k : Json} {ms ns : List (String × Json)}
      (isField : key ≠ typeKey) (hidden : allowed type key = none)
      (rest : AlikeFields false type ms ns) :
      AlikeFields false type ((key, j) :: ms) ((key, k) :: ns)

end

end

section

variable (allowed : Permissions) (opens : String → String → Bool)

mutual

def alike? : Bool → Json → Json → Bool
  | _, .null, .null => true
  | _, .boolean a, .boolean b => a == b
  | _, .integer m, .integer n => m == n
  | _, .float x, .float y => decide (x = y)
  | _, .string s, .string t => s == t
  | _, .array js, .array ks => alikeItems? js ks
  | opened, .object ms, .object ns =>
    match Json.recordType? ms, Json.recordType? ns with
    | none, none => alikeMembers? ms ns
    | some type, some other => type == other && alikeFields? opened type ms ns
    | _, _ => false
  | _, _, _ => false
termination_by structural _ j _ => j

def alikeItems? : List Json → List Json → Bool
  | [], [] => true
  | j :: js, k :: ks => alike? false j k && alikeItems? js ks
  | _, _ => false
termination_by structural js _ => js

def alikeMembers? : List (String × Json) → List (String × Json) → Bool
  | [], [] => true
  | (key, j) :: ms, (other, k) :: ns => key == other && alike? false j k && alikeMembers? ms ns
  | _, _ => false
termination_by structural ms _ => ms

def alikeFields? : Bool → String → List (String × Json) → List (String × Json) → Bool
  | _, _, [], [] => true
  | opened, type, (key, j) :: ms, (other, k) :: ns =>
    key == other && alikeFields? opened type ms ns &&
      (alike? (opens type key) j k || (!opened && key != typeKey && (allowed type key).isNone))
  | _, _, _, _ => false
termination_by structural _ _ ms _ => ms

end

mutual

/-- The comparison of two trees only holds of trees that are alike. -/
theorem alike_of_alike? : ∀ {opened : Bool} {j k : Json}, alike? allowed opens opened j k = true →
    Alike allowed opens opened j k
  | _, .null, k, h => by
      cases k with
      | null => exact .null
      | _ => cases h
  | _, .boolean a, k, h => by
      cases k with
      | boolean b => exact eq_of_beq h ▸ .boolean a
      | _ => cases h
  | _, .integer m, k, h => by
      cases k with
      | integer n => exact eq_of_beq h ▸ .integer m
      | _ => cases h
  | _, .float x, k, h => by
      cases k with
      | float y => exact of_decide_eq_true h ▸ .float x
      | _ => cases h
  | _, .string s, k, h => by
      cases k with
      | string t => exact eq_of_beq h ▸ .string s
      | _ => cases h
  | _, .array js, k, h => by
      cases k with
      | array ks => exact .array (alikeItems_of_alikeItems? h)
      | _ => cases h
  | _, .object ms, k, h => by
      cases k with
      | object ns =>
          rw [alike?] at h
          cases hLeft : Json.recordType? ms <;> cases hRight : Json.recordType? ns <;>
            rw [hLeft, hRight] at h
          case none.none => exact .map hLeft hRight (alikeMembers_of_alikeMembers? h)
          case some.some =>
            obtain ⟨hType, hFields⟩ := Bool.and_eq_true_iff.mp h
            rw [← eq_of_beq hType] at hRight
            exact .record hLeft hRight (alikeFields_of_alikeFields? hFields)
          all_goals cases h
      | _ => cases h

theorem alikeItems_of_alikeItems? : ∀ {js ks : List Json}, alikeItems? allowed opens js ks = true →
    AlikeItems allowed opens js ks
  | [], [], _ => .nil
  | _ :: _, _ :: _, h => by
      obtain ⟨hHead, hRest⟩ := Bool.and_eq_true_iff.mp h
      exact .cons (alike_of_alike? hHead) (alikeItems_of_alikeItems? hRest)
  | [], _ :: _, h => by cases h
  | _ :: _, [], h => by cases h

theorem alikeMembers_of_alikeMembers? : ∀ {ms ns : List (String × Json)},
    alikeMembers? allowed opens ms ns = true → AlikeMembers allowed opens ms ns
  | [], [], _ => .nil
  | (key, _) :: _, (_, _) :: _, h => by
      obtain ⟨hHead, hRest⟩ := Bool.and_eq_true_iff.mp h
      obtain ⟨hKey, hHead⟩ := Bool.and_eq_true_iff.mp hHead
      rw [← eq_of_beq hKey]
      exact .cons (alike_of_alike? hHead) (alikeMembers_of_alikeMembers? hRest)
  | [], _ :: _, h => by cases h
  | _ :: _, [], h => by cases h

theorem alikeFields_of_alikeFields? : ∀ {opened : Bool} {type : String}
    {ms ns : List (String × Json)}, alikeFields? allowed opens opened type ms ns = true →
      AlikeFields allowed opens opened type ms ns
  | _, _, [], [], _ => .nil
  | opened, type, (key, j) :: ms, (_, k) :: ns, h => by
      obtain ⟨hHead, hValue⟩ := Bool.and_eq_true_iff.mp h
      obtain ⟨hKey, hRest⟩ := Bool.and_eq_true_iff.mp hHead
      rw [← eq_of_beq hKey]
      have hFields := alikeFields_of_alikeFields? hRest
      rcases Bool.or_eq_true_iff.mp hValue with hKept | hDenied
      · exact .kept (alike_of_alike? hKept) hFields
      · simp only [Bool.and_eq_true, Bool.not_eq_true', bne_iff_ne, Option.isNone_iff_eq_none]
          at hDenied
        obtain ⟨⟨rfl, hField⟩, hHidden⟩ := hDenied
        exact .denied hField hHidden hFields
  | _, _, [], _ :: _, h => by cases h
  | _, _, _ :: _, [], h => by cases h

end

end

/-- The fields of which a call reads into the value. -/
def Permissions.opened (allowed : Permissions) (type member : String) : Bool :=
  (allowed type member).any Accessor.isNative

namespace Secrecy

/-- A relation on the values of documents that a query keeps, whichever way it reads on. -/
structure Follows (allowed : Permissions)
    (rel : Value DocumentObject → Value DocumentObject → Prop) : Prop where
  shape : ∀ v w, rel v w → SameShape rel v w
  typeName : ∀ o p, rel (.object o) (.object p) → o.toRecord.typeName = p.toRecord.typeName
  read : ∀ o p, rel (.object o) (.object p) → ∀ name,
    allowed o.toRecord.typeName name = some .native →
      Option.Rel rel (o.toRecord.read name) (p.toRecord.read name)
  entry : ∀ o p, rel (.object o) (.object p) → ∀ name,
    allowed o.toRecord.typeName name = some .native → ∀ left right,
      o.toRecord.read name = some (.object left) → p.toRecord.read name = some (.object right) →
        ∀ key, Option.Rel rel (left.toRecord.read key) (right.toRecord.read key)

/-- Values that some relation of this kind relates. -/
def LookAlike (allowed : Permissions) (v w : Value DocumentObject) : Prop :=
  ∃ rel, Follows allowed rel ∧ rel v w

/-- Shapes are related by more if the parts are. -/
theorem SameShape.imp {O P : Type} {R S : Value O → Value P → Prop} (h : ∀ v w, R v w → S v w)
    {v : Value O} {w : Value P} (hv : SameShape R v w) : SameShape S v w := by
  cases hv with
  | list items => exact .list (items.imp h)
  | map entries => exact .map (entries.imp fun _ _ hEntry => ⟨hEntry.1, h _ _ hEntry.2⟩)
  | object related => exact .object (h _ _ related)
  | null => exact .null
  | boolean b => exact .boolean b
  | integer n => exact .integer n
  | float x => exact .float x
  | string s => exact .string s

theorem optionRel_imp {α β : Type} {R S : α → β → Prop} (h : ∀ a b, R a b → S a b) {x : Option α}
    {y : Option β} (hx : Option.Rel R x y) : Option.Rel S x y := by
  cases hx with
  | none => exact .none
  | some related => exact .some (h _ _ related)

/-- Looking alike is itself such a relation, and so the greatest one. -/
theorem lookAlike_follows (allowed : Permissions) : Follows allowed (LookAlike allowed) where
  shape := by
    rintro v w ⟨rel, hRel, hv⟩
    exact (hRel.shape v w hv).imp fun x y hxy => ⟨rel, hRel, hxy⟩
  typeName := by
    rintro o p ⟨rel, hRel, ho⟩
    exact hRel.typeName o p ho
  read := by
    rintro o p ⟨rel, hRel, ho⟩ name hName
    exact optionRel_imp (fun x y hxy => ⟨rel, hRel, hxy⟩) (hRel.read o p ho name hName)
  entry := by
    rintro o p ⟨rel, hRel, ho⟩ name hName left right hLeft hRight key
    exact optionRel_imp (fun x y hxy => ⟨rel, hRel, hxy⟩)
      (hRel.entry o p ho name hName left right hLeft hRight key)

/-- Looking alike is the greatest such relation, and so holds exactly of values of one shape whose
parts look alike. -/
theorem lookAlike_iff_sameShape (allowed : Permissions) (v w : Value DocumentObject) :
    LookAlike allowed v w ↔ SameShape (LookAlike allowed) v w := by
  constructor
  · exact (lookAlike_follows allowed).shape v w
  · intro h
    -- The relation together with what it gives a shape to follows as well.
    have hMore (x y : Value DocumentObject) (hxy : LookAlike allowed x y) :
        LookAlike allowed x y ∨ SameShape (LookAlike allowed) x y := .inl hxy
    have hObject (o p : DocumentObject)
        (ho : LookAlike allowed (.object o) (.object p) ∨
          SameShape (LookAlike allowed) (.object o) (.object p)) :
        LookAlike allowed (.object o) (.object p) := by
      rcases ho with hLook | hShape
      · exact hLook
      · cases hShape with
        | object related => exact related
    have hBase := lookAlike_follows allowed
    refine ⟨fun x y => LookAlike allowed x y ∨ SameShape (LookAlike allowed) x y, ?_, .inr h⟩
    constructor
    case shape =>
      intro x y hxy
      rcases hxy with hLook | hShape
      · exact (hBase.shape x y hLook).imp hMore
      · exact hShape.imp hMore
    case typeName =>
      exact fun o p ho => hBase.typeName o p (hObject o p ho)
    case read =>
      exact fun o p ho name hName => optionRel_imp hMore (hBase.read o p (hObject o p ho) name hName)
    case entry =>
      exact fun o p ho name hName left right hLeft hRight key =>
        optionRel_imp hMore (hBase.entry o p (hObject o p ho) name hName left right hLeft hRight key)

/-- Builtin filters respect looking alike. -/
theorem lookAlike_structural (allowed : Permissions) : Structural (LookAlike allowed) where
  shape := lookAlike_iff_sameShape allowed
  typeName_eq v w hv := by
    cases (lookAlike_iff_sameShape allowed v w).mp hv with
    | object related => exact (lookAlike_follows allowed).typeName _ _ related
    | _ => rfl

section Calls

variable {allowed : Permissions}

/-- Looking a key up in tables with related entries. -/
theorem lookUp_sameOutcome {f g : String → Option (Value DocumentObject)}
    (args : Arguments DocumentObject)
    (entries : ∀ key, Option.Rel (LookAlike allowed) (f key) (g key)) :
    SameOutcome (LookAlike allowed)
      (do args.checkAgainst ["key"]; let key ← args.getString 0 "key"; return (f key).getD .null)
      (do args.checkAgainst ["key"]; let key ← args.getString 0 "key"; return (g key).getD .null) := by
  apply sameOutcome_bind_same
  intro _
  apply sameOutcome_bind_same
  intro key
  exact .ok ((lookAlike_structural allowed).getD_null (entries key))

/-- A call of a field that the allow-list leaves to the records. -/
theorem call_sameOutcome {o p : DocumentObject}
    (h : LookAlike allowed (.object o) (.object p)) {name : String}
    (hName : allowed o.toRecord.typeName name = some .native) (args : Arguments DocumentObject) :
    Option.Rel (SameOutcome (LookAlike allowed)) (o.toRecord.call name args)
      (p.toRecord.call name args) := by
  have hRead := (lookAlike_follows allowed).read o p h name hName
  have hEntry := (lookAlike_follows allowed).entry o p h name hName
  unfold Record.call
  generalize o.toRecord.read name = x at hRead hEntry
  generalize p.toRecord.read name = y at hRead hEntry
  cases hRead with
  | none => exact .none
  | @some v w related =>
      simp only [Option.bind_eq_bind, Option.bind_some]
      cases args.isEmpty with
      | true => exact .none
      | false =>
          cases (lookAlike_iff_sameShape allowed v w).mp related with
          | map entries =>
              exact .some (lookUp_sameOutcome args fun key => related_lookup entries key)
          | @object left right _ =>
              exact .some (lookUp_sameOutcome args fun key => hEntry left right rfl rfl key)
          | _ => exact .none

/-- What queries can find out about two records that look alike. -/
theorem lookAlike_sameView {a : AllowList DocumentObject} {o p : DocumentObject}
    (h : LookAlike a.accessor? (.object o) (.object p)) :
    SameView a (LookAlike a.accessor?) o p where
  typeName := (lookAlike_follows _).typeName o p h
  render := congrArg (fun type => "<" ++ type ++ ">") ((lookAlike_follows _).typeName o p h)
  elements := .none
  read := (lookAlike_follows _).read o p h
  call _ hName args := call_sameOutcome h hName (.ofQuery args)

end Calls

section Records

variable {allowed : Permissions} {opens : String → String → Bool}

theorem lookup_toEntries (ms : List (String × Json)) (name : String) :
    (Json.toEntries DocumentObject.record ms).lookup name =
      (ms.lookup name).map Json.toDocument := by
  induction ms with
  | nil => rfl
  | cons m ms ih =>
      obtain ⟨key, j⟩ := m
      rw [Json.toEntries, List.lookup_cons, List.lookup_cons]
      cases name == key with
      | true => rfl
      | false => exact ih

/-- The fields of a record are the members of its object other than the name of its type. -/
theorem lookup_fields (ms : List (String × Json)) {name : String} (hName : name ≠ typeKey) :
    ((Json.toEntries DocumentObject.record ms).filter fun e => e.1 != typeKey).lookup name =
      (ms.lookup name).map Json.toDocument := by
  rw [← lookup_toEntries]
  generalize Json.toEntries DocumentObject.record ms = es
  induction es with
  | nil => rfl
  | cons e es ih =>
      obtain ⟨key, v⟩ := e
      rw [List.lookup_cons, List.filter_cons]
      by_cases hKey : key = typeKey
      · subst hKey
        rw [beq_eq_false_iff_ne.mpr hName]
        simpa using ih
      · have hKept : (key != typeKey) = true := by simpa using hKey
        rw [if_pos hKept, List.lookup_cons, ih]

theorem lookup_typeKey (es : List (String × Value DocumentObject)) :
    (es.filter fun e => e.1 != typeKey).lookup typeKey = none := by
  rw [List.lookup_eq_none_iff]
  intro e he
  have hKept := (List.mem_filter.mp he).2
  rwa [bne_comm]

/-- Fields that are not denied are alike. In an opened record no field counts as denied. -/
theorem alikeFields_lookup {opened : Bool} {type : String} {ms ns : List (String × Json)}
    (h : AlikeFields allowed opens opened type ms ns) {name : String}
    (hName : opened = true ∨ allowed type name ≠ none) :
    Option.Rel (Alike allowed opens (opens type name)) (ms.lookup name) (ns.lookup name) := by
  induction ms generalizing ns with
  | nil =>
      cases h
      exact .none
  | cons m ms ih =>
      cases h with
      | @kept _ _ key j k _ ns value rest =>
          rw [List.lookup_cons, List.lookup_cons]
          cases hKey : name == key with
          | true => exact .some (eq_of_beq hKey ▸ value)
          | false => exact ih rest
      | @denied _ key j k _ ns isField hidden rest =>
          rw [List.lookup_cons, List.lookup_cons]
          cases hKey : name == key with
          | true =>
              rcases hName with hOpened | hAllowed
              · cases hOpened
              · exact absurd (eq_of_beq hKey ▸ hidden) hAllowed
          | false => exact ih rest

/-- Values of documents that are alike, whether or not a call has read into them. -/
def FromAlike (allowed : Permissions) (opens : String → String → Bool)
    (v w : Value DocumentObject) : Prop :=
  ∃ opened j k, Alike allowed opens opened j k ∧ v = j.toDocument ∧ w = k.toDocument

/-- Items that are alike become values that are related one by one. -/
theorem fromAlike_items : ∀ {js ks : List Json}, AlikeItems allowed opens js ks →
    List.Forall₂ (FromAlike allowed opens) (Json.toValues .record js) (Json.toValues .record ks)
  | [], _, .nil => .nil
  | _ :: _, _, .cons head rest => .cons ⟨_, _, _, head, rfl, rfl⟩ (fromAlike_items rest)

theorem fromAlike_members : ∀ {ms ns : List (String × Json)}, AlikeMembers allowed opens ms ns →
    List.Forall₂ (SameEntry (FromAlike allowed opens)) (Json.toEntries .record ms)
      (Json.toEntries .record ns)
  | [], _, .nil => .nil
  | _ :: _, _, .cons head rest => .cons ⟨rfl, _, _, _, head, rfl, rfl⟩ (fromAlike_members rest)

def recordOf (type : String) (ms : List (String × Json)) : Record DocumentObject :=
  ⟨type, (Json.toEntries .record ms).filter fun e => e.1 != typeKey⟩

/-- An object that names its type is a record, whose fields are its members without the type. -/
theorem toDocument_record {type : String} {ms : List (String × Json)}
    (h : Json.recordType? ms = some type) :
    (Json.object ms).toDocument = .object (.record (recordOf type ms)) := by
  simp only [Json.toDocument, Json.toValue, Json.assemble, h, recordOf]

theorem toDocument_map {ms : List (String × Json)} (h : Json.recordType? ms = none) :
    (Json.object ms).toDocument = .map (Json.toEntries .record ms) := by
  simp only [Json.toDocument, Json.toValue, Json.assemble, h]

/-- Objects come from records of one type with fields that are alike. -/
theorem exists_fields_of_alike {opened : Bool} {j k : Json} {o p : DocumentObject}
    (h : Alike allowed opens opened j k) (left : j.toDocument = .object o)
    (right : k.toDocument = .object p) :
    ∃ type ms ns, AlikeFields allowed opens opened type ms ns ∧
      o = .record (recordOf type ms) ∧ p = .record (recordOf type ns) := by
  cases h with
  | map hLeft hRight members =>
      rw [toDocument_map hLeft] at left
      cases left
  | record hLeft hRight fields =>
      rw [toDocument_record hLeft] at left
      rw [toDocument_record hRight] at right
      cases left
      cases right
      exact ⟨_, _, _, fields, rfl, rfl⟩
  | _ => cases left

/-- The fields of records that are alike, as far as they are not denied. -/
theorem read_recordOf {opened : Bool} {type : String} {ms ns : List (String × Json)}
    (h : AlikeFields allowed opens opened type ms ns) {name : String}
    (hName : opened = true ∨ allowed type name ≠ none) :
    Option.Rel
      (fun v w => ∃ j k, Alike allowed opens (opens type name) j k ∧
        v = j.toDocument ∧ w = k.toDocument)
      ((recordOf type ms).read name) ((recordOf type ns).read name) := by
  unfold recordOf Record.read
  by_cases hKey : name = typeKey
  · subst hKey
    rw [lookup_typeKey, lookup_typeKey]
    exact .none
  · rw [lookup_fields ms hKey, lookup_fields ns hKey]
    exact related_map (alikeFields_lookup h hName) fun j k hjk => ⟨j, k, hjk, rfl, rfl⟩

/-- Documents that are alike stay alike under every query. A call of a field that is left to its
record opens what the field holds, and opened records have no denied fields to differ in. -/
theorem fromAlike_follows (allowed : Permissions) :
    Follows allowed (FromAlike allowed allowed.opened) where
  shape := by
    rintro v w ⟨opened, j, k, h, rfl, rfl⟩
    have hAlike := h
    cases h with
    | null => exact .null
    | boolean b => exact .boolean b
    | integer n => exact .integer n
    | float x => exact .float x
    | string s => exact .string s
    | array items => exact .list (fromAlike_items items)
    | map left right members =>
        rw [toDocument_map left, toDocument_map right]
        exact .map (fromAlike_members members)
    | record left right fields =>
        have hRelated : FromAlike allowed allowed.opened (Json.object _).toDocument
          (Json.object _).toDocument := ⟨opened, _, _, hAlike, rfl, rfl⟩
        rw [toDocument_record left, toDocument_record right] at hRelated ⊢
        exact .object hRelated
  typeName := by
    rintro o p ⟨opened, j, k, h, left, right⟩
    obtain ⟨type, ms, ns, _, rfl, rfl⟩ := exists_fields_of_alike h left.symm right.symm
    rfl
  read := by
    rintro o p ⟨opened, j, k, h, left, right⟩ name hName
    obtain ⟨type, ms, ns, fields, rfl, rfl⟩ := exists_fields_of_alike h left.symm right.symm
    have hAllowed : allowed type name ≠ none := by
      rw [show allowed type name = some .native from hName]
      exact Option.some_ne_none _
    refine optionRel_imp ?_ (read_recordOf fields (.inr hAllowed))
    rintro v w ⟨j, k, hjk, rfl, rfl⟩
    exact ⟨_, j, k, hjk, rfl, rfl⟩
  entry := by
    rintro o p ⟨opened, j, k, h, left, right⟩ name hName l r hl hr key
    obtain ⟨type, ms, ns, fields, rfl, rfl⟩ := exists_fields_of_alike h left.symm right.symm
    change allowed type name = some .native at hName
    have hAllowed : allowed type name ≠ none := by simp [hName]
    have hOpened : allowed.opened type name = true := by
      simp [Permissions.opened, hName, Accessor.isNative]
    have hField := read_recordOf fields (.inr hAllowed)
    change (recordOf type ms).read name = _ at hl
    change (recordOf type ns).read name = _ at hr
    rw [hl, hr, hOpened] at hField
    cases hField with
    | some related =>
        obtain ⟨j, k, hjk, hj, hk⟩ := related
        obtain ⟨type, ms, ns, fields, rfl, rfl⟩ := exists_fields_of_alike hjk hj.symm hk.symm
        refine optionRel_imp ?_ (read_recordOf fields (.inl rfl))
        rintro v w ⟨j, k, hjk, rfl, rfl⟩
        exact ⟨_, j, k, hjk, rfl, rfl⟩

/-- Trees that are alike become values that look alike, whatever stands under fields that cannot be
reached. -/
theorem lookAlike_of_alike {opened : Bool} {j k : Json}
    (h : Alike allowed allowed.opened opened j k) :
    LookAlike allowed j.toDocument k.toDocument :=
  ⟨_, fromAlike_follows allowed, opened, j, k, h, rfl, rfl⟩

end Records

end Secrecy

end GatedQuery
