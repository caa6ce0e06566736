import RecordStore.KeyMap
import RecordStore.Schema
import RecordStore.Value.Coercion
import RecordStore.Value.Typed

/-!
# `RecordStore.Entity`: typed records

An entity holds values under field names. It has two outer forms: the generic form, which names
every declared field and keeps values as they are, and the document, which is what the search
engine stores: JSON values under document names.

Both forms are read in two steps. First each declared field gets its value, `coerce`d or read from
JSON to the declared type; then the columns take their values in order, each at its shape. A taken
value is gone, so a second column of the same name finds none.

* `Entity.value?_put_self`, `Entity.value?_put_of_ne`: what putting a value does to a look-up.
* `Entity.eq_of_value?`: the values of its fields determine an entity.
-/

set_option autoImplicit false

namespace RecordStore

/-- A typed record: values under field names, in key order. -/
@[ext]
structure Entity where
  values : List (String × Value)
  sorted : KeyMap.Sorted values

namespace Entity

/-- The entity without values. -/
def empty : Entity :=
  ⟨[], KeyMap.sorted_nil⟩

/-- The entity with a value put under a name. -/
def put (e : Entity) (name : String) (v : Value) : Entity :=
  ⟨KeyMap.insert name v e.values, KeyMap.sorted_insert e.sorted⟩

/-- The value of a field, if it is present. -/
def value? (e : Entity) (field : String) : Option Value :=
  KeyMap.get? field e.values

/-- The two lists hold equal values under the same names. -/
def sameValues : List (String × Value) → List (String × Value) → Bool
  | [], [] => true
  | (k, v) :: rest, (l, w) :: rest' => k == l && v.same w && sameValues rest rest'
  | _, _ => false

/-- The two entities hold equal values under the same names. -/
def same (a b : Entity) : Bool :=
  sameValues a.values b.values

/-- The entity without values has none under any name. -/
theorem value?_empty (name : String) : empty.value? name = none :=
  rfl

/-- A value that was put under a name is found there. -/
theorem value?_put_self (e : Entity) (name : String) (v : Value) :
    (e.put name v).value? name = some v :=
  KeyMap.get?_insert_self name v e.values

/-- A value put under another name changes nothing under this one. -/
theorem value?_put_of_ne {name other : String} (h : other ≠ name) (e : Entity) (v : Value) :
    (e.put name v).value? other = e.value? other :=
  KeyMap.get?_insert_of_ne h v e.values

/-- An entity is determined by the values of its fields. -/
theorem eq_of_value? {a b : Entity} (h : ∀ name, a.value? name = b.value? name) : a = b :=
  Entity.ext (KeyMap.eq_of_get? a.sorted b.sorted h)

end Entity

namespace Schema

/-! ### Outer forms -/

/-- The generic form: every declared field with its value, if there is one. -/
def toGeneric (s : Schema) (e : Entity) : List (String × Option Value) :=
  KeyMap.ofList (s.fields.map fun f => (f.name, e.value? f.name))

/-- The document: under each document name the JSON form of the value, `null` for none. Of two
fields with one document name the later one is written. -/
def toDocument (s : Schema) (e : Entity) : List (String × Json) :=
  KeyMap.ofList (s.fields.map fun f => (f.documentName, Value.optionToJson (e.value? f.name)))

/-! ### Building entities -/

/-- The values that `read` gives to the fields, in order; the first error is reported for its
field. A later field with the same name replaces the value, unless it has none. -/
def gather (s : Schema) (read : Field → Except Error (Option Value)) :
    List Field → List (String × Value) → Except Error (List (String × Value))
  | [], values => .ok values
  | f :: rest, values =>
    match read f with
    | .error e => .error (e.inField s.name f.name)
    | .ok none => gather s read rest values
    | .ok (some v) => gather s read rest (KeyMap.insert f.name v values)

/-- The entity that the columns make of the values: each takes the one under its name. -/
def take (s : Schema) : List Column → List (String × Value) → Entity → Except Error Entity
  | [], _, taken => .ok taken
  | c :: rest, values, taken =>
    match KeyMap.get? c.field.name values with
    | none =>
      if c.required then .error (.mismatch (.absent s.name c.field.name))
      else take s rest values taken
    | some v =>
      match Value.extract c.shape v with
      | .error cause => .error (.mismatch (.inField s.name c.field.name cause))
      | .ok x =>
        take s rest (KeyMap.erase c.field.name values)
          (taken.put c.field.name (Value.ofTyped c.shape x))

/-- The entity with the values that `read` gives to the declared fields. -/
def build (s : Schema) (read : Field → Except Error (Option Value)) : Except Error Entity :=
  match s.gather read s.fields [] with
  | .error e => .error e
  | .ok values => s.take s.columns values Entity.empty

/-- The value of a field in a generic form, brought to the declared type. -/
def readGeneric (data : List (String × Option Value)) (f : Field) :
    Except Error (Option Value) :=
  match (KeyMap.get? f.name data).join with
  | none => .ok none
  | some v => (Value.coerce f.type v).map some

/-- The entity with the given generic form; a missing name is an absent value. -/
def ofGeneric (s : Schema) (data : List (String × Option Value)) : Except Error Entity :=
  s.build (readGeneric data)

/-- The value of a field in a document. -/
def readDocument (data : List (String × Json)) (f : Field) : Except Error (Option Value) :=
  Value.ofJson f.type ((KeyMap.get? f.documentName data).getD .null)

/-- The entity with the given document; a missing name is an absent value. -/
def ofDocument (s : Schema) (data : List (String × Json)) : Except Error Entity :=
  s.build (readDocument data)

end Schema

end RecordStore
