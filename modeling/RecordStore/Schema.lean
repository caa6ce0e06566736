import RecordStore.Field

/-!
# `RecordStore.Schema`: entity types

An entity type has a name and columns in a fixed order. A column is a field together with how an
entity takes its value: at which shape, and whether it can do without it. Fields are looked up by
their own names only, and of two fields with one name the first is found.
-/

set_option autoImplicit false

namespace RecordStore

/-- A field and how an entity takes its value:

- `field`: the field;
- `shape`: the shape at which the value is taken;
- `required`: the entity cannot do without the value. -/
structure Column where
  field : Field
  shape : Shape
  required : Bool
deriving DecidableEq

/-- An entity type:

- `name`: the name that messages use;
- `columns`: the columns, in order. -/
structure Schema where
  name : String
  columns : List Column
deriving DecidableEq

namespace Schema

/-- The fields, in order. -/
def fields (s : Schema) : List Field :=
  s.columns.map Column.field

/-- The field with the given name. -/
def field? (s : Schema) (name : String) : Option Field :=
  s.fields.find? fun f => f.name == name

end Schema

end RecordStore
