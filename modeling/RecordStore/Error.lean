import RecordStore.Field
import RecordStore.Json.Printer
import RecordStore.Operator
import RecordStore.Value.Basic

/-!
# `RecordStore.Error`: what can be wrong with an input

The causes for which a value, a filter or an entity is refused, and the wording of each.
-/

set_option autoImplicit false

namespace RecordStore

/-- A value that is not of the type it should have:

- `unreadable`: a JSON value that the type cannot represent;
- `nullItem`: `null` among the items of an array;
- `emptyNested`: an array among the items of an array that is read as no value;
- `unfit`: a value that does not conform to the type, nor does what it could be turned into;
- `wrongKind`: a value of another kind than the one that is read;
- `absent`: a required field without a value;
- `inField`: a mismatch in the value of a field. -/
inductive Mismatch where
  | unreadable (raw : Json) (type : ScalarType)
  | nullItem (type : ScalarType)
  | emptyNested
  | unfit (value : Value) (type : FieldType)
  | wrongKind (expected : String) (value : Value)
  | absent (entity field : String)
  | inField (entity field : String) (cause : Mismatch)

namespace Mismatch

/-- What is wrong, in words. -/
def message : Mismatch → String
  | .unreadable raw type => "cannot represent " ++ raw.text ++ " as " ++ type.name
  | .nullItem type => "null is not a valid " ++ type.name ++ " list element"
  | .emptyNested => "empty nested list"
  | .unfit value type => "cannot represent " ++ value.display ++ " as " ++ type.name
  | .wrongKind expected value =>
    "expected " ++ expected ++ ", got " ++ value.kindName ++ " " ++ value.display
  | .absent entity field => entity ++ "." ++ field ++ " is required but absent"
  | .inField entity field cause => entity ++ "." ++ field ++ ": " ++ cause.message

end Mismatch

/-- A JSON value that does not describe a filter:

- `noOperator`: the member `operator` is missing;
- `wrongKind`: a value of another kind than the one that is expected there;
- `tooShort`: an array with fewer than two items;
- `tooLong`: an array with more than four items. -/
inductive DescriptionFault where
  | noOperator
  | wrongKind (raw : Json) (expected : String)
  | tooShort
  | tooLong (length : Nat)

namespace DescriptionFault

/-- The kind of a JSON value, with its text where that is short. -/
def kindOf : Json → String
  | .null => "null"
  | .bool b => "boolean `" ++ (Json.bool b).text ++ "`"
  | .int n => "integer `" ++ (Json.int n).text ++ "`"
  | .float x => "floating point `" ++ (Json.float x).text ++ "`"
  | .string s => "string " ++ Text.quoted s
  | .array _ => "sequence"
  | .object _ => "map"

/-- What is wrong, in words. -/
def message : DescriptionFault → String
  | .noOperator => "missing field `operator`"
  | .wrongKind raw expected => "invalid type: " ++ kindOf raw ++ ", expected " ++ expected
  | .tooShort => "invalid length 1, expected struct FilterDescription with 4 elements"
  | .tooLong length => "invalid length " ++ String.ofList (Decimal.digits length) ++
      ", expected fewer elements in array"

end DescriptionFault

/-- The parts of a filter do not fit together:

- `noField`: the operator needs a field;
- `noValue`: the operator needs a value;
- `notList`: the operator needs a list;
- `emptyList`: the operator needs a list with at least one item;
- `unordered`: the operator needs a field with an order;
- `wrongType`: the value is not of the type of the field's elements;
- `malformed`: the description is not one of a filter. -/
inductive FilterFault where
  | noField (operator : Operator)
  | noValue (operator : Operator)
  | notList (operator : Operator)
  | emptyList (operator : Operator)
  | unordered (field : String)
  | wrongType (value : Value) (type : ScalarType)
  | malformed (fault : DescriptionFault)

namespace FilterFault

/-- What is wrong, in words. -/
def message : FilterFault → String
  | .noField operator => operator.label ++ " filter missing field."
  | .noValue operator => operator.label ++ " filter missing 'value'."
  | .notList operator => operator.label ++ " filter 'value' must be a list."
  | .emptyList operator => operator.label ++ " filter 'value' must not be empty."
  | .unordered field => "Field " ++ field ++ " is not a numeric field"
  | .wrongType value type => "Value " ++ value.display ++ " is not of type " ++ type.name
  | .malformed fault => "malformed filter description: " ++ fault.message

end FilterFault

/-- An input that is refused:

- `mismatch`: a value of the wrong type;
- `notDateTime`: a text that is no date-time;
- `invalidFilter`: a filter whose parts do not fit together;
- `unknownOperator`: a word that is no operator;
- `unknownField`: a field that the entity does not declare. -/
inductive Error where
  | mismatch (cause : Mismatch)
  | notDateTime (text : String)
  | invalidFilter (fault : FilterFault)
  | unknownOperator (word : String)
  | unknownField (entity field : String)

namespace Error

/-- What is wrong, in words. -/
def message : Error → String
  | .mismatch cause => "type mismatch: " ++ cause.message
  | .notDateTime text => "parse error: `" ++ text ++ "` is not an ISO-8601 date-time"
  | .invalidFilter fault => "invalid filter: " ++ fault.message
  | .unknownOperator word => "invalid operator: " ++ word
  | .unknownField entity field => "unknown field `" ++ field ++ "` on entity " ++ entity

/-- The error as it is reported for the value of a field: a mismatch names the field. -/
def inField (entity field : String) : Error → Error
  | .mismatch cause => .mismatch (.inField entity field cause)
  | e => e

end Error

end RecordStore
