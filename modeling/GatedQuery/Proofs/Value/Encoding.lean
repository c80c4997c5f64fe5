import GatedQuery.Document.Values
import GatedQuery.Proofs.Solve.Answers
import GatedQuery.Value.Encoding

/-! What is written of objects. A value is written in the same way whether its objects are replaced
by their texts before or while it is written. A document is written as it was read, but for the
objects in it that name their type. -/

namespace GatedQuery

variable {O : Type} [Backend O]

mutual

/-- Making a value plain first does not change how it is written. -/
theorem Value.toJson_plain : ∀ v : Value O, v.plain.toJson = v.toJson
  | .list items => by rw [plain, toJson, toJson, toJsonItems_plain items]
  | .map entries => by rw [plain, toJson, toJson, toJsonMembers_plain entries]
  | .null | .boolean _ | .integer _ | .float _ | .string _ | .object _ => rfl

theorem Value.toJsonItems_plain : ∀ items : List (Value O),
    toJsonItems (plainItems items) = toJsonItems items
  | [] => rfl
  | v :: vs => by rw [plainItems, toJsonItems, toJsonItems, toJson_plain v, toJsonItems_plain vs]

theorem Value.toJsonMembers_plain : ∀ entries : List (String × Value O),
    toJsonMembers (plainEntries entries) = toJsonMembers entries
  | [] => rfl
  | (k, v) :: es => by
      rw [plainEntries, toJsonMembers, toJsonMembers, toJson_plain v, toJsonMembers_plain es]

end

mutual

/-- Plain data stays as it is. -/
theorem Value.plain_plain : ∀ v : Value O, v.plain.plain = v.plain
  | .list items => by rw [plain, plain, plainItems_plain items]
  | .map entries => by rw [plain, plain, plainEntries_plain entries]
  | .null | .boolean _ | .integer _ | .float _ | .string _ | .object _ => rfl

theorem Value.plainItems_plain : ∀ items : List (Value O),
    plainItems (plainItems items) = plainItems items
  | [] => rfl
  | v :: vs => by rw [plainItems, plainItems, plain_plain v, plainItems_plain vs]

theorem Value.plainEntries_plain : ∀ entries : List (String × Value O),
    plainEntries (plainEntries entries) = plainEntries entries
  | [] => rfl
  | (k, v) :: es => by rw [plainEntries, plainEntries, plain_plain v, plainEntries_plain es]

end

namespace Json

mutual

/-- The tree with the text of its type in place of each outermost object that names one. Everything
else stays as and where it is. -/
def withoutRecords : Json → Json
  | object members =>
    match recordType? members with
    | some type => .string ("<" ++ type ++ ">")
    | none => .object (membersWithoutRecords members)
  | array items => .array (itemsWithoutRecords items)
  | j => j

def itemsWithoutRecords : List Json → List Json
  | [] => []
  | j :: js => j.withoutRecords :: itemsWithoutRecords js

def membersWithoutRecords : List (String × Json) → List (String × Json)
  | [] => []
  | (k, j) :: ms => (k, j.withoutRecords) :: membersWithoutRecords ms

end

/-- The objects made from records have the types of the records as their texts. -/
def ShowsTypes (wrap : Record O → O) : Prop :=
  ∀ r, Backend.render (wrap r) = "<" ++ r.typeName ++ ">"

variable {wrap : Record O → O}

mutual

/-- A record is written as its type, whatever is in it. -/
theorem toJson_toValue (shows : ShowsTypes wrap) :
    ∀ j : Json, (j.toValue wrap).toJson = j.withoutRecords
  | array items => by rw [toValue, Value.toJson, withoutRecords, toJsonItems_toValues shows items]
  | object members => by
      rw [toValue, assemble, withoutRecords]
      cases recordType? members with
      | some type => exact congrArg Json.string (shows _)
      | none => exact congrArg Json.object (toJsonMembers_toEntries shows members)
  | null | boolean _ | integer _ | float _ | string _ => rfl

/-- The items of a document are written without what is in their records. The induction goes with
that on a tree. -/
theorem toJsonItems_toValues (shows : ShowsTypes wrap) :
    ∀ items : List Json, Value.toJsonItems (toValues wrap items) = itemsWithoutRecords items
  | [] => rfl
  | j :: js => by
      rw [toValues, Value.toJsonItems, itemsWithoutRecords, toJson_toValue shows j,
        toJsonItems_toValues shows js]

theorem toJsonMembers_toEntries (shows : ShowsTypes wrap) :
    ∀ members : List (String × Json),
      Value.toJsonMembers (toEntries wrap members) = membersWithoutRecords members
  | [] => rfl
  | (k, j) :: ms => by
      rw [toEntries, Value.toJsonMembers, membersWithoutRecords, toJson_toValue shows j,
        toJsonMembers_toEntries shows ms]

end

/-- A document is written back with each record replaced by its text. -/
theorem toJson_toDocument (j : Json) : j.toDocument.toJson = j.withoutRecords :=
  toJson_toValue (fun _ => rfl) j

end Json

/-- Objects are written alike, whether or not they have been replaced by their texts before: what is
written of a plain value is what is written of the value, a plain value is its own plain form, and
it holds no object. Of a JSON document, whether or not it is made plain, what is written is the
document itself with each outermost object that names its type replaced by the text of this type. -/
theorem plain_written_alike :
    (∀ v : Value O, v.plain.toJson = v.toJson ∧ v.plain.plain = v.plain ∧
      ∀ o, ¬ Value.Holds o v.plain) ∧
    ∀ j : Json, j.toDocument.toJson = j.withoutRecords ∧
      j.toDocument.plain.toJson = j.withoutRecords := by
  refine ⟨fun v => ⟨v.toJson_plain, v.plain_plain, fun o => v.not_holds_plain o⟩, fun j => ?_⟩
  rw [Value.toJson_plain]
  exact ⟨j.toJson_toDocument, j.toJson_toDocument⟩

/-- Nothing is written of what is in a record, and an object with another kind of type is none. -/
example :
    (Json.object
      [("a", .object [("b", .object [("__type__", .string "U")]), ("__type__", .string "T")]),
        ("c", .array [.object [("__type__", .null)], .object []])]).toDocument.toJson =
    .object [("a", .string "<T>"), ("c", .array [.object [("__type__", .null)], .object []])] :=
  rfl

end GatedQuery
