import RecordStore.Binary64.Basic
import RecordStore.KeyMap

/-!
# `RecordStore.Json.Basic`: JSON values

A JSON value as the documents, queries and replies of a search engine hold it. A number is either
a whole number, kept exactly, or a double; the readers of this library produce whole numbers in
the signed and unsigned 64-bit ranges only, and finite doubles only. The members of an object
stand in key order, so two objects with the same content are equal.
-/

set_option autoImplicit false

namespace RecordStore

/-- A JSON value:

- `null`: the value `null`;
- `bool`: a truth value;
- `int`: a number without point and exponent;
- `float`: any other number;
- `string`: a text;
- `array`: a sequence of values;
- `object`: named values, in key order. -/
inductive Json where
  | null
  | bool (b : Bool)
  | int (n : Int)
  | float (x : Binary64)
  | string (s : String)
  | array (items : List Json)
  | object (members : List (String × Json))

namespace Json

/-- The object with the given members; of a repeated key the last value counts. -/
def ofMembers (members : List (String × Json)) : Json :=
  .object (KeyMap.ofList members)

/-- The object with one member. -/
def single (key : String) (value : Json) : Json :=
  .object [(key, value)]

/-- The member `key` of an object. -/
def member? (key : String) : Json → Option Json
  | .object members => KeyMap.get? key members
  | _ => none

/-- The items of an array. -/
def items? : Json → Option (List Json)
  | .array items => some items
  | _ => none

/-- The members of an object. -/
def members? : Json → Option (List (String × Json))
  | .object members => some members
  | _ => none

/-- The text of a string. -/
def string? : Json → Option String
  | .string s => some s
  | _ => none

/-- The truth value of a boolean. -/
def bool? : Json → Option Bool
  | .bool b => some b
  | _ => none

/-- The value of a whole number that fits 64 bits without a sign. -/
def count? : Json → Option Nat
  | .int n => if 0 ≤ n ∧ n < 0x10000000000000000 then some n.toNat else none
  | _ => none

end Json

end RecordStore
