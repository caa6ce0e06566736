import RecordStore.Json.Basic

/-!
# `RecordStore.Operator`: the operators of the filter language

Each operator has a word, by which descriptions name it, and a label, by which messages do. As a
JSON value an operator is its word; an object with the word as its only key and `null` under it is
read too.

* `ofWord?_word`, `eq_word_of_ofWord?`: the words determine the operators and the other way round.
* `ofJson?_eq_some_iff`: the JSON values that an operator is read from.
-/

set_option autoImplicit false

namespace RecordStore

/-- An operator of the filter language. -/
inductive Operator where
  | is
  | isNot
  | isOneOf
  | isNotOneOf
  | greaterThan
  | lessThan
  | present
  | absent
  | anyOf
deriving DecidableEq

namespace Operator

/-- All operators. -/
def all : List Operator :=
  [.is, .isNot, .isOneOf, .isNotOneOf, .greaterThan, .lessThan, .present, .absent, .anyOf]

/-- The word for an operator. -/
def word : Operator → String
  | .is => "is"
  | .isNot => "is_not"
  | .isOneOf => "is_in"
  | .isNotOneOf => "is_not_in"
  | .greaterThan => "gt"
  | .lessThan => "lt"
  | .present => "exists"
  | .absent => "does_not_exist"
  | .anyOf => "or"

/-- The name of an operator in messages. -/
def label : Operator → String
  | .is => "Is"
  | .isNot => "Is Not"
  | .isOneOf => "Is One Of"
  | .isNotOneOf => "Is Not One Of"
  | .greaterThan => "Greater Than"
  | .lessThan => "Less Than"
  | .present => "Exists"
  | .absent => "Does Not Exist"
  | .anyOf => "Or"

/-- The operator that a word stands for. -/
def ofWord? (s : String) : Option Operator :=
  all.find? fun op => op.word == s

/-- The word for an operator stands for it. -/
theorem ofWord?_word (op : Operator) : ofWord? op.word = some op := by
  cases op <;> decide

/-- A word stands only for the operator it is the word for. -/
theorem eq_word_of_ofWord? {s : String} {op : Operator} (h : ofWord? s = some op) :
    s = op.word := by
  have := List.find?_some h
  exact (beq_iff_eq.mp this).symm

/-- The operator that a JSON value is. -/
def ofJson? : Json → Option Operator
  | .string word => ofWord? word
  | .object [(word, .null)] => ofWord? word
  | _ => none

/-- An operator is read from its word and from the object of its word and `null`, and from no other
JSON value. -/
theorem ofJson?_eq_some_iff {raw : Json} {op : Operator} :
    ofJson? raw = some op ↔ raw = .string op.word ∨ raw = .single op.word .null := by
  constructor
  · intro h
    unfold ofJson? at h
    split at h
    · exact .inl (congrArg Json.string (eq_word_of_ofWord? h))
    · exact .inr (congrArg (Json.single · .null) (eq_word_of_ofWord? h))
    · cases h
  · rintro (rfl | rfl)
    · exact ofWord?_word op
    · exact ofWord?_word op

end Operator

end RecordStore
