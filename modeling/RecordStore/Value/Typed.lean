import RecordStore.Error

/-!
# `RecordStore.Value.Typed`: values read as a type

Each shape has a carrier, the type of what a value of that shape holds. `ofTyped` puts an element
of the carrier into a value, and `extract` takes it out again. Extraction converts nothing: a
value of another kind is a mismatch, and in a list the first such item decides the error.
-/

set_option autoImplicit false

namespace RecordStore

/-- What a scalar of the type holds. -/
def ScalarType.Carrier : ScalarType → Type
  | .string => String
  | .integer => Int64
  | .float => Binary64
  | .boolean => Bool
  | .dateTime => Calendar.DateTime

/-- What a value of the shape holds. -/
def Shape.Carrier : Shape → Type
  | .scalar t => t.Carrier
  | .list s => List s.Carrier

namespace Value

/-- The scalar that holds `x`. -/
def ofScalar : (t : ScalarType) → t.Carrier → Value
  | .string, x => .string x
  | .integer, x => .integer x
  | .float, x => .float x
  | .boolean, x => .boolean x
  | .dateTime, x => .dateTime x

/-- The value that holds `x`. -/
def ofTyped : (s : Shape) → s.Carrier → Value
  | .scalar t, x => ofScalar t x
  | .list s, xs => .list (List.map (ofTyped s) xs)

/-- What a scalar of type `t` holds. -/
def extractScalar : (t : ScalarType) → Value → Except Mismatch t.Carrier
  | .string, .string x => .ok x
  | .integer, .integer x => .ok x
  | .float, .float x => .ok x
  | .boolean, .boolean x => .ok x
  | .dateTime, .dateTime x => .ok x
  | t, v => .error (.wrongKind t.name v)

/-- The results of `read` on all items, or the first error. -/
def extractItems {α : Type} (read : Value → Except Mismatch α) :
    List Value → Except Mismatch (List α)
  | [] => .ok []
  | v :: rest =>
    match read v with
    | .error e => .error e
    | .ok x =>
      match extractItems read rest with
      | .error e => .error e
      | .ok xs => .ok (x :: xs)

/-- What a value of the shape holds. -/
def extract : (s : Shape) → Value → Except Mismatch s.Carrier
  | .scalar t, v => extractScalar t v
  | .list s, .list items => extractItems (extract s) items
  | .list _, v => .error (.wrongKind "list" v)

end Value

end RecordStore
