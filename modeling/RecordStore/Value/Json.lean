import RecordStore.Calendar.Reader
import RecordStore.Decimal.Numeral
import RecordStore.Error
import RecordStore.Text.Blank

/-!
# `RecordStore.Value.Json`: the JSON form of values

`toJson` writes a value: date-times become texts, lists become arrays, and all else is JSON
already, except that a double which is not finite has no JSON form and becomes `null`.

`ofJson` reads a value of a declared type. It is more generous than `toJson` is: each scalar type
takes what it can represent, as `string?`, `integer?`, `double?` and `truth?` say. An array is
read item by item against the type of the field's elements, whether the field is a list or not,
so its shape is kept; the first item that cannot be read decides the error.
-/

set_option autoImplicit false

namespace RecordStore.Value

open RecordStore.Text

/-! ### Writing -/

mutual

/-- The JSON form of a value. -/
def toJson : Value → Json
  | .string s => .string s
  | .integer n => .int n.toInt
  | .float x => if x.isFinite then .float x else .null
  | .boolean b => .bool b
  | .dateTime t => .string t.text
  | .list items => .array (toJsonItems items)

/-- The JSON forms of values. -/
def toJsonItems : List Value → List Json
  | [] => []
  | v :: rest => toJson v :: toJsonItems rest

end

/-- The JSON form of a value that may be absent. -/
def optionToJson : Option Value → Json
  | some v => v.toJson
  | none => .null

/-- The JSON forms of the items stand in the order of the items. -/
theorem toJsonItems_eq_map (items : List Value) : toJsonItems items = items.map toJson := by
  induction items with
  | nil => rfl
  | cons v rest ih => simp [toJsonItems, ih]

/-! ### Reading scalars -/

/-- The 64-bit number equal to `n`, if `n` is in range. -/
def int64? (n : Int) : Option Int64 :=
  if -0x8000000000000000 ≤ n ∧ n < 0x8000000000000000 then some (Int64.ofInt n) else none

/-- A text is its own value, and a number or a truth value is its JSON text. -/
def string? : Json → Option String
  | .string s => some s
  | .int n => some (Json.int n).text
  | .float x => some (Json.float x).text
  | .bool b => some (Json.bool b).text
  | _ => none

/-- The 64-bit number equal to a double. The bound on the magnitude is the largest 64-bit number,
which is one more as a double. -/
def wholeInt64? (x : Binary64) : Option Int64 :=
  if x.isWhole && x.abs.order? (.ofInt 0x7FFFFFFFFFFFFFFF) == some .lt then some x.toInt64
  else none

/-- A whole number in range, a double that is equal to one, or a text that is such a number with
an optional sign. A whole number out of range is tried as a double. -/
def integer? : Json → Option Int64
  | .int n => (int64? n).or (wholeInt64? (.ofInt n))
  | .float x => wholeInt64? x
  | .string s => (Decimal.intValue? (trim s.toList)).bind int64?
  | _ => none

/-- A number, rounded to a double, or a text that names a double; either must be finite. -/
def double? (raw : Json) : Option Binary64 :=
  let x? : Option Binary64 :=
    match raw with
    | .int n => some (.ofInt n)
    | .float x => some x
    | .string s => Decimal.double? (trim s.toList)
    | _ => none
  x?.filter Binary64.isFinite

/-- A truth value, one of four words in any case of letters, or the whole number one or zero. -/
def truth? : Json → Option Bool
  | .bool b => some b
  | .string s =>
    let word := Decimal.lowerCase (trim s.toList)
    if word = ['t', 'r', 'u', 'e'] ∨ word = ['1'] then some true
    else if word = ['f', 'a', 'l', 's', 'e'] ∨ word = ['0'] then some false
    else none
  | .int n => if n = 1 then some true else if n = 0 then some false else none
  | _ => none

/-- The value that a text in one of the layouts of date-times names. -/
def readDateTime (s : String) : Except Error Calendar.DateTime :=
  match Calendar.DateTime.ofTrimmed? (trim s.toList) with
  | some t => .ok t
  | none => .error (.notDateTime (String.ofList (trim s.toList)))

/-- A scalar that was read, or the mismatch of `raw` with the type. -/
def orUnreadable (raw : Json) (t : ScalarType) (v? : Option Value) : Except Error Value :=
  match v? with
  | some v => .ok v
  | none => .error (.mismatch (.unreadable raw t))

/-- The scalar of type `t` that a JSON value represents. -/
def readScalar (t : ScalarType) (raw : Json) : Except Error Value :=
  match t with
  | .string => orUnreadable raw t ((string? raw).map .string)
  | .integer => orUnreadable raw t ((integer? raw).map .integer)
  | .float => orUnreadable raw t ((double? raw).map .float)
  | .boolean => orUnreadable raw t ((truth? raw).map .boolean)
  | .dateTime =>
    match raw with
    | .string s => (readDateTime s).map .dateTime
    | _ => orUnreadable raw t none

/-! ### Reading values -/

/-- The list of the values of an array, which is a value that is there. -/
def listed (items : Except Error (List Value)) : Except Error (Option Value) :=
  items.map fun vs => some (.list vs)

/-- What an array that was read by itself is among the items of an array, where it must be a
value. -/
def nestedItem : Except Error (Option Value) → Except Error Value
  | .ok (some v) => .ok v
  | .ok none => .error (.mismatch .emptyNested)
  | .error e => .error e

mutual

/-- The value of a JSON value inside an array, with elements of type `t`. -/
def readItem (t : ScalarType) : Json → Except Error Value
  | .null => .error (.mismatch (.nullItem t))
  | .array items => nestedItem (listed (readItems t items))
  | .bool b => readScalar t (.bool b)
  | .int n => readScalar t (.int n)
  | .float x => readScalar t (.float x)
  | .string s => readScalar t (.string s)
  | .object members => readScalar t (.object members)

/-- The values of the items of an array, or the first error. -/
def readItems (t : ScalarType) : List Json → Except Error (List Value)
  | [] => .ok []
  | j :: rest =>
    match readItem t j with
    | .error e => .error e
    | .ok v =>
      match readItems t rest with
      | .error e => .error e
      | .ok vs => .ok (v :: vs)

end

/-- An array among the items of an array is the list of its values: it is never read as no
value. -/
theorem readItem_array (t : ScalarType) (items : List Json) :
    readItem t (.array items) = (readItems t items).map .list := by
  rw [readItem]
  cases readItems t items with
  | ok vs => rfl
  | error e => rfl

/-- The value of the declared type that a JSON value represents; `null` is absence. -/
def ofJson (type : FieldType) : Json → Except Error (Option Value)
  | .null => .ok none
  | .array items => listed (readItems type.element items)
  | raw => (readScalar type.element raw).map some

end RecordStore.Value
