import RecordStore.Value.Json

/-!
# `RecordStore.Value.Coercion`: values of another type

`coerce` brings a value to a declared type. A value that conforms is kept as it is; any other is
read again from its JSON form, the items of a list one by one where the type is a list type. What
comes out conforms to the type, or there is an error.
-/

set_option autoImplicit false

namespace RecordStore.Value

/-- `v`, which has to conform to the type. -/
def fitted (type : FieldType) (v : Value) : Except Error Value :=
  if v.conformsTo type then .ok v else .error (.mismatch (.unfit v type))

/-- `v` if it conforms to the type, else the value of that type that its JSON form represents. -/
def coerceWhole (type : FieldType) (v : Value) : Except Error Value :=
  if v.conformsTo type then .ok v
  else
    match ofJson type v.toJson with
    | .error e => .error e
    | .ok none => .error (.mismatch (.unfit v type))
    | .ok (some w) => fitted type w

/-- The items of a list, each brought to the type `t`, or the first error. An item that is a list
itself is read as a whole like any other, since `t` is no list type. -/
def coerceItems (t : ScalarType) : List Value → Except Error (List Value)
  | [] => .ok []
  | v :: rest =>
    match coerceWhole (.scalar t) v with
    | .error e => .error e
    | .ok w =>
      match coerceItems t rest with
      | .error e => .error e
      | .ok ws => .ok (w :: ws)

/-- `v` brought to the declared type. -/
def coerce (type : FieldType) (v : Value) : Except Error Value :=
  if v.conformsTo type then .ok v
  else
    match type, v with
    | .list t, .list items =>
      match coerceItems t items with
      | .error e => .error e
      | .ok ws => fitted (.list t) (.list ws)
    | _, _ => coerceWhole type v

end RecordStore.Value
