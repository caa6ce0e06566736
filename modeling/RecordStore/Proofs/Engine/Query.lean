import RecordStore.Json.Basic

/-!
# `RecordStore.Proofs.Engine.Query`: what a query asks of a document

The meaning of the part of the query language that filters are turned into. A name stands for
values of a document, those of an array one by one and `null` for none, so an empty array is as
good as a missing member. A clause is an object with one member, whose key says what is asked of
the values. `matches?` has no answer for a query that is not made of such clauses.

* `resolve`: the values that a name stands for.
* `matches?`: whether a document matches a query.
* `matches?_term`, `matches?_terms`, `matches?_range`, `matches?_exists`: clauses on one name.
* `matches?_mustNot`, `matches?_should`, `matches?_filter`: combinations.
-/

set_option autoImplicit false

namespace RecordStore.Engine

open RecordStore.Json (single)

/-! ### Values of a document -/

/-- What stands before the last `.keyword` of a name that ends in it. -/
def stem? (name : String) : Option String :=
  let suffix := ".keyword".toList
  let chars := name.toList
  if suffix.isSuffixOf chars then some (String.ofList (chars.take (chars.length - suffix.length)))
  else none

/-- The value is not `null`. -/
def isPresent : Json → Bool
  | .null => false
  | _ => true

/-- The values that a member of a document holds. -/
def valuesOf : Option Json → List Json
  | none => []
  | some .null => []
  | some (.array items) => items.filter isPresent
  | some raw => [raw]

/-- The values that a name stands for: those under it, or where the document has nothing under
it, not even `null`, those under the name without `.keyword`. -/
def resolve (document : List (String × Json)) (name : String) : List Json :=
  valuesOf ((KeyMap.get? name document).or
    ((stem? name).bind fun base => KeyMap.get? base document))

/-! ### Comparisons -/

mutual

/-- The two values are equal; a whole number and a double never are. -/
def same : Json → Json → Bool
  | .null, .null => true
  | .bool a, .bool b => a == b
  | .int a, .int b => a == b
  | .float a, .float b => a.sameValue b
  | .string a, .string b => a == b
  | .array a, .array b => sameItems a b
  | .object a, .object b => sameMembers a b
  | _, _ => false

/-- The two sequences are equal, item by item. -/
def sameItems : List Json → List Json → Bool
  | [], [] => true
  | a :: as, b :: bs => same a b && sameItems as bs
  | _, _ => false

/-- The two objects have equal members. -/
def sameMembers : List (String × Json) → List (String × Json) → Bool
  | [], [] => true
  | (k, a) :: as, (l, b) :: bs => k == l && same a b && sameMembers as bs
  | _, _ => false

end

/-- The exact value of a number, as a multiple of the smallest magnitude of a double. -/
def units? : Json → Option Int
  | .int n => some (n * Binary64.unitsPerOne)
  | .float x => if x.isNaN then none else some x.units
  | _ => none

/-- The order of two numbers by their exact values or of two texts by code points. -/
def order? (a b : Json) : Option Ordering :=
  match a, b with
  | .string s, .string t => some (compare s t)
  | _, _ =>
    match units? a, units? b with
    | some x, some y => some (compare x y)
    | _, _ => none

/-- The value keeps the bound that the word names. -/
def isWithin (value : Json) (word : String) (bound : Json) : Bool :=
  if word = "gt" then order? value bound == some .gt
  else if word = "lt" then order? value bound == some .lt
  else false

/-! ### Clauses -/

/-- What a clause asks of the values that a name stands for. -/
def matchesName? (document : List (String × Json)) (kind name : String) (operand : Json) :
    Option Bool :=
  let values := resolve document name
  if kind = "term" then
    match operand with
    | .array _ => none
    | _ => some (values.any fun value => same value operand)
  else if kind = "terms" then
    match operand with
    | .array operands => some (values.any fun value => operands.any (same value))
    | _ => none
  else if kind = "range" then
    match operand with
    | .object bounds =>
      some (values.any fun value => bounds.all fun bound => isWithin value bound.1 bound.2)
    | _ => none
  else none

/-- Whether a document matches a clause that has no clauses in it. -/
def matchesLeaf? (document : List (String × Json)) (kind : String) (body : Json) : Option Bool :=
  if kind = "match_none" then some false
  else if kind = "exists" then
    match body.member? "field" with
    | some (.string name) => some !(resolve document name).isEmpty
    | _ => none
  else
    match body with
    | .object [(name, operand)] => matchesName? document kind name operand
    | _ => none

/-- The answers to the clauses of a combination: to those that must match, to those that must not
match, and to those of which one must match if there are any. -/
structure Answers where
  filter : List Bool
  mustNot : List Bool
  should : List Bool

/-- The combination matches. -/
def Answers.holds (a : Answers) : Bool :=
  a.filter.all id && !a.mustNot.any id && (a.should.isEmpty || a.should.any id)

/-- The answers with those for a key put in; the clauses under any other key are not looked at. -/
def Answers.put (a : Answers) (key : String) (clauses : Option (List Bool)) : Option Answers :=
  if key = "filter" then clauses.map fun answers => { a with filter := answers }
  else if key = "must_not" then clauses.map fun answers => { a with mustNot := answers }
  else if key = "should" then clauses.map fun answers => { a with should := answers }
  else some a

mutual

/-- Whether a document matches a query; `none` for a query that is not understood. -/
def matches? (document : List (String × Json)) : Json → Option Bool
  | .object members => matchesMembers? document members
  | _ => none

/-- Whether a document matches the clause with the given members, which must be one. -/
def matchesMembers? (document : List (String × Json)) : List (String × Json) → Option Bool
  | [(kind, body)] =>
    if kind = "bool" then matchesBool? document body else matchesLeaf? document kind body
  | _ => none

/-- Whether a document matches a combination of clauses. -/
def matchesBool? (document : List (String × Json)) : Json → Option Bool
  | .object parts => (answers? document parts).map Answers.holds
  | _ => some true

/-- The answers to the clauses under the keys of a combination. -/
def answers? (document : List (String × Json)) : List (String × Json) → Option Answers
  | [] => some ⟨[], [], []⟩
  | (key, clauses) :: rest =>
    (answers? document rest).bind fun a => a.put key (matchesClauses? document clauses)

/-- The answers to the clauses in an array, or to the one that stands there alone. -/
def matchesClauses? (document : List (String × Json)) : Json → Option (List Bool)
  | .array clauses => matchesAll? document clauses
  | .object members => (matchesMembers? document members).map fun answer => [answer]
  | _ => none

/-- The answers to several clauses. -/
def matchesAll? (document : List (String × Json)) : List Json → Option (List Bool)
  | [] => some []
  | clause :: rest =>
    (matches? document clause).bind fun answer =>
      (matchesAll? document rest).map fun answers => answer :: answers

end

/-! ### Clauses on one name -/

section Clauses

variable (document : List (String × Json))

/-- Nothing matches the clause that says so. -/
theorem matches?_matchNone (body : Json) :
    matches? document (single "match_none" body) = some false := rfl

/-- A document matches a term if some value is equal to it. -/
theorem matches?_term (name : String) {operand : Json} (h : ∀ items, operand ≠ .array items) :
    matches? document (single "term" (single name operand)) =
      some ((resolve document name).any fun value => same value operand) := by
  cases operand with
  | array items => exact absurd rfl (h items)
  | null | bool | int | float | string | object => rfl

/-- A document matches several terms if some value is equal to one of them. -/
theorem matches?_terms (name : String) (operands : List Json) :
    matches? document (single "terms" (single name (.array operands))) =
      some ((resolve document name).any fun value => operands.any (same value)) := rfl

/-- A document matches a range if some value keeps its bound. -/
theorem matches?_range (name word : String) (bound : Json) :
    matches? document (single "range" (single name (single word bound))) =
      some ((resolve document name).any fun value => isWithin value word bound) := by
  show some ((resolve document name).any fun value => isWithin value word bound && true) = _
  simp only [Bool.and_true]

/-- A document has something under a name if the name stands for some value. -/
theorem matches?_exists (name : String) :
    matches? document (single "exists" (single "field" (.string name))) =
      some !(resolve document name).isEmpty := rfl

/-! ### Combinations -/

/-- A document matches the negation of a clause if it does not match the clause. -/
theorem matches?_mustNot {key : String} {body : Json} {answer : Bool}
    (h : matches? document (single key body) = some answer) :
    matches? document (single "bool" (single "must_not" (single key body))) = some !answer := by
  have hclause : matchesMembers? document [(key, body)] = some answer := h
  have hclauses : matchesClauses? document (single key body) = some [answer] := by
    show (matchesMembers? document [(key, body)]).map _ = _
    rw [hclause]
    rfl
  show ((answers? document [("must_not", single key body)]).map Answers.holds) = _
  rw [answers?, hclauses]
  cases answer <;> rfl

/-- A document matches a disjunction of some clauses if it matches one of them. -/
theorem matches?_should {clauses : List Json} {answers : List Bool}
    (h : matchesAll? document clauses = some answers) (hne : answers ≠ []) :
    matches? document (single "bool" (single "should" (.array clauses))) =
      some (answers.any id) := by
  have hclauses : matchesClauses? document (.array clauses) = some answers := h
  show ((answers? document [("should", .array clauses)]).map Answers.holds) = _
  rw [answers?, hclauses]
  cases answers with
  | nil => exact absurd rfl hne
  | cons answer rest => rfl

/-- A document matches a conjunction of clauses if it matches each of them. -/
theorem matches?_filter {clauses : List Json} {answers : List Bool}
    (h : matchesAll? document clauses = some answers) :
    matches? document (single "bool" (single "filter" (.array clauses))) =
      some (answers.all id) := by
  have hclauses : matchesClauses? document (.array clauses) = some answers := h
  show ((answers? document [("filter", .array clauses)]).map Answers.holds) = _
  rw [answers?, hclauses]
  show some (answers.all id && true && true) = _
  rw [Bool.and_true, Bool.and_true]

end Clauses

end RecordStore.Engine
