/-!
# `RecordStore.FieldType`: the types of fields

A field holds a scalar or a list of scalars. `Shape` is the wider family of types that a value can
be read as: lists may be nested in it to any depth.
-/

set_option autoImplicit false

namespace RecordStore

/-- The type of a single value:

- `string`: texts;
- `integer`: whole numbers of 64 bits;
- `float`: doubles;
- `boolean`: truth values;
- `dateTime`: points in time. -/
inductive ScalarType where
  | string
  | integer
  | float
  | boolean
  | dateTime
deriving DecidableEq

namespace ScalarType

/-- All scalar types. -/
def all : List ScalarType :=
  [.string, .integer, .float, .boolean, .dateTime]

/-- The name of the type. -/
def name : ScalarType → String
  | .string => "string"
  | .integer => "integer"
  | .float => "float"
  | .boolean => "boolean"
  | .dateTime => "date-time"

/-- Fields of this type can be compared with a bound. -/
def isOrdered : ScalarType → Bool
  | .integer => true
  | .float => true
  | .dateTime => true
  | .string => false
  | .boolean => false

end ScalarType

/-- The declared type of a field: one value, or any number of values. -/
inductive FieldType where
  | scalar (element : ScalarType)
  | list (element : ScalarType)
deriving DecidableEq

namespace FieldType

/-- The type of the field's value, or of each of its values. -/
def element : FieldType → ScalarType
  | .scalar t => t
  | .list t => t

/-- The field holds a list. -/
def isList : FieldType → Bool
  | .scalar _ => false
  | .list _ => true

/-- The name of the type. -/
def name : FieldType → String
  | .scalar t => t.name
  | .list t => "list of " ++ t.name

end FieldType

/-- A type that a value can be read as: a single value, or a list of what is of another such type. -/
inductive Shape where
  | scalar (element : ScalarType)
  | list (items : Shape)
deriving DecidableEq

/-- The shape of a field's type. -/
def FieldType.shape : FieldType → Shape
  | .scalar t => .scalar t
  | .list t => .list (.scalar t)

end RecordStore
