import RecordStore.Binary64.Layout
import RecordStore.Calendar.Printer
import RecordStore.FieldType
import RecordStore.Text.Quoted

/-!
# `RecordStore.Value.Basic`: the values of fields

A value is a scalar of one of the five types or a list of values. This module holds its type
tests, its order, its equality and the form in which it is shown to a reader.

Only scalars of one type are ordered. Equality is that of numbers: a value that is no number
differs from itself, and the two zeros are equal.
-/

set_option autoImplicit false

namespace RecordStore

/-- The value of a field; an absent value is `none`:

- `string`: a text;
- `integer`: a whole number of 64 bits;
- `float`: a double;
- `boolean`: a truth value;
- `dateTime`: a point in time;
- `list`: a list. -/
inductive Value where
  | string (s : String)
  | integer (n : Int64)
  | float (x : Binary64)
  | boolean (b : Bool)
  | dateTime (t : Calendar.DateTime)
  | list (items : List Value)

namespace Value

/-! ### Types -/

/-- The type of a scalar. -/
def scalarType? : Value → Option ScalarType
  | .string _ => some .string
  | .integer _ => some .integer
  | .float _ => some .float
  | .boolean _ => some .boolean
  | .dateTime _ => some .dateTime
  | .list _ => none

/-- The items of a list. -/
def items? : Value → Option (List Value)
  | .list items => some items
  | _ => none

/-- The value is a scalar of type `t`. -/
def isScalar (t : ScalarType) (v : Value) : Bool :=
  v.scalarType? == some t

/-- The value is of the declared type: a scalar of it, or a list of such scalars. -/
def conformsTo : Value → FieldType → Bool
  | .list items, .list t => items.all (isScalar t)
  | .list _, .scalar _ => false
  | v, .scalar t => v.isScalar t
  | _, .list _ => false

/-- The name of a value's type; all lists are called a list. -/
def kindName (v : Value) : String :=
  match v.scalarType? with
  | some t => t.name
  | none => "list"

/-! ### Order and equality -/

/-- The order of two scalars of one type: texts by code points, `false` before `true`. -/
def order? : Value → Value → Option Ordering
  | .string a, .string b => some (compare a b)
  | .integer a, .integer b => some (compare a.toInt b.toInt)
  | .float a, .float b => a.order? b
  | .boolean a, .boolean b => some (compare a b)
  | .dateTime a, .dateTime b => some (compare a.instant b.instant)
  | _, _ => none

mutual

/-- The two values are equal. -/
def same : Value → Value → Bool
  | .string a, .string b => a == b
  | .integer a, .integer b => a == b
  | .float a, .float b => a.sameValue b
  | .boolean a, .boolean b => a == b
  | .dateTime a, .dateTime b => a == b
  | .list xs, .list ys => sameItems xs ys
  | _, _ => false

/-- The two lists are equal, item by item. -/
def sameItems : List Value → List Value → Bool
  | [], [] => true
  | x :: xs, y :: ys => same x y && sameItems xs ys
  | _, _ => false

end

/-! ### Display -/

/-- How doubles are shown: positionally, with no `.0`. -/
def floatLayout : Binary64.Layout where
  tie := .up
  positional _ := true
  pointZero := false

mutual

/-- The form in which a value is shown to a reader. -/
def display : Value → String
  | .string s => Text.quoted s
  | .integer n => String.ofList (Decimal.intDigits n.toInt)
  | .float x => String.ofList (floatLayout.text x)
  | .boolean true => "true"
  | .boolean false => "false"
  | .dateTime t => t.text
  | .list items => "[" ++ displayItems items ++ "]"

/-- Values with commas between them. -/
def displayItems : List Value → String
  | [] => ""
  | [v] => display v
  | v :: w :: rest => display v ++ ", " ++ displayItems (w :: rest)

end

end Value

end RecordStore
