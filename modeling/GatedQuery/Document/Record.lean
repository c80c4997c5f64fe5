import GatedQuery.Value.Backend

/-! A record is an object with named fields. Its fields are its attributes. A field that holds a map or
another object can also be called with a key, which looks an entry up; a key without an entry gives
null. -/

namespace GatedQuery

/-- An object with a type and fields, over the objects of a backend. -/
structure Record (O : Type) where
  typeName : String
  fields : List (String × Value O)

namespace Record

variable {O : Type}

def read (r : Record O) (name : String) : Option (Value O) :=
  r.fields.lookup name

/-- The entry of a map or an object under the key that is the only argument. -/
def lookUp [Inspectable O] (table : Value O) (args : Arguments O) :
    Except CallFailure (Value O) := do
  args.checkAgainst ["key"]
  let key ← args.getString 0 "key"
  let entry :=
    match table with
    | .object o => Inspectable.read o key
    | _ => table.get? key
  return entry.getD .null

/-- Whether a field can be called: it has entries. -/
def isTable : Value O → Bool
  | .map _ | .object _ => true
  | _ => false

/-- Call a field. A call without arguments is no lookup. -/
def call [Inspectable O] (r : Record O) (name : String) (args : Arguments O) :
    Option (Except CallFailure (Value O)) := do
  let table ← r.read name
  if args.isEmpty || !isTable table then none else some (lookUp table args)

end Record

/-- The objects of a JSON document: records all the way down. -/
inductive DocumentObject where
  | record (r : Record DocumentObject)

namespace DocumentObject

def toRecord : DocumentObject → Record DocumentObject
  | record r => r

instance : Inspectable DocumentObject where
  typeName o := o.toRecord.typeName
  read o := o.toRecord.read

instance : Backend DocumentObject where
  call o := o.toRecord.call

end DocumentObject

end GatedQuery
