import RecordStore.Error

/-!
# `RecordStore.Filter.Basic`: the filter language

A filter is a condition on entities. Five kinds of condition make it up; all but the disjunction
speak of one field, and three of them have a negated form. `Filter.new` builds a filter from an
operator and what it is applied to, and refuses what does not fit: operands are values of the type
of the field's elements, a membership list is not empty, and a bound needs a field with an order.
`Filter.is` and the other comparisons are the same for one operator each.
-/

set_option autoImplicit false

namespace RecordStore

/-- The side of a bound on which values are looked for. -/
inductive Side where
  | above
  | below
deriving DecidableEq

namespace Side

/-- What stands between the field and the bound in a sentence. -/
def phrase : Side → String
  | .above => " is greater than "
  | .below => " is less than "

/-- The word for the side in a query. -/
def word : Side → String
  | .above => "gt"
  | .below => "lt"

end Side

/-- A condition on entities:

- `equal`: the field is equal to a value; or, negated, it is not;
- `member`: the field is equal to one of several values; or, negated, to none;
- `beyond`: the field is beyond a bound;
- `present`: the field has a value; or, negated, it has none;
- `anyOf`: some of the filters hold. -/
inductive Filter where
  | equal (negated : Bool) (field : Field) (value : Value)
  | member (negated : Bool) (field : Field) (values : List Value)
  | beyond (side : Side) (field : Field) (bound : Value)
  | present (negated : Bool) (field : Field)
  | anyOf (filters : List Filter)

namespace Filter

/-! ### Parts -/

/-- The operator of a filter. -/
def operator : Filter → Operator
  | .equal false _ _ => .is
  | .equal true _ _ => .isNot
  | .member false _ _ => .isOneOf
  | .member true _ _ => .isNotOneOf
  | .beyond .above _ _ => .greaterThan
  | .beyond .below _ _ => .lessThan
  | .present false _ => .present
  | .present true _ => .absent
  | .anyOf _ => .anyOf

/-- The field that a filter speaks of. -/
def field? : Filter → Option Field
  | .equal _ f _ => some f
  | .member _ f _ => some f
  | .beyond _ f _ => some f
  | .present _ f => some f
  | .anyOf _ => none

/-- The operand of a filter; several values are one list. -/
def value? : Filter → Option Value
  | .equal _ _ v => some v
  | .member _ _ vs => some (.list vs)
  | .beyond _ _ v => some v
  | .present _ _ => none
  | .anyOf _ => none

/-- The filters that a disjunction is made of. -/
def filters : Filter → List Filter
  | .anyOf fs => fs
  | _ => []

/-! ### Construction -/

/-- The value is of the type of the field's elements. -/
def checkType (f : Field) (v : Value) : Except FilterFault Unit :=
  if v.isScalar f.type.element then .ok () else .error (.wrongType v f.type.element)

/-- All values are of the type of the field's elements; the first that is not is reported. -/
def checkTypes (f : Field) : List Value → Except FilterFault Unit
  | [] => .ok ()
  | v :: rest =>
    match checkType f v with
    | .error e => .error e
    | .ok () => checkTypes f rest

/-- The field that an operator needs. -/
def needField (op : Operator) : Option Field → Except FilterFault Field
  | some f => .ok f
  | none => .error (.noField op)

/-- The value that an operator needs. -/
def needValue (op : Operator) : Option Value → Except FilterFault Value
  | some v => .ok v
  | none => .error (.noValue op)

/-- A comparison with one value. -/
def newEqual (op : Operator) (negated : Bool) (field : Option Field) (value : Option Value) :
    Except FilterFault Filter := do
  let f ← needField op field
  let v ← needValue op value
  checkType f v
  pure (.equal negated f v)

/-- A comparison with several values. -/
def newMember (op : Operator) (negated : Bool) (field : Option Field) (value : Option Value) :
    Except FilterFault Filter := do
  let f ← needField op field
  let v ← needValue op value
  match v with
  | .list [] => .error (.emptyList op)
  | .list (v :: vs) =>
    checkTypes f (v :: vs)
    pure (.member negated f (v :: vs))
  | _ => .error (.notList op)

/-- A comparison with a bound. The field is checked before the value is asked for. -/
def newBeyond (op : Operator) (side : Side) (field : Option Field) (value : Option Value) :
    Except FilterFault Filter := do
  let f ← needField op field
  if f.type.isList || !f.type.element.isOrdered then .error (.unordered f.name)
  else
    let v ← needValue op value
    checkType f v
    pure (.beyond side f v)

/-- The filter with the given operator and parts. Only a disjunction looks at `filters`, and only
comparisons look at `value`. -/
def new (op : Operator) (field : Option Field) (value : Option Value) (filters : List Filter) :
    Except FilterFault Filter :=
  match op with
  | .is => newEqual op false field value
  | .isNot => newEqual op true field value
  | .isOneOf => newMember op false field value
  | .isNotOneOf => newMember op true field value
  | .greaterThan => newBeyond op .above field value
  | .lessThan => newBeyond op .below field value
  | .present => (needField op field).map (.present false)
  | .absent => (needField op field).map (.present true)
  | .anyOf => .ok (.anyOf filters)

/-! ### Comparisons

A comparison can be made of its field and its operand alone. The filters that have no operand are
the constructors `present` and `anyOf` themselves. -/

/-- The comparison of a field with an operand. -/
def comparison (op : Operator) (field : Field) (value : Value) : Except FilterFault Filter :=
  new op (some field) (some value) []

/-- The field is equal to the value. -/
def is (field : Field) (value : Value) : Except FilterFault Filter :=
  comparison .is field value

/-- The field is not equal to the value. -/
def isNot (field : Field) (value : Value) : Except FilterFault Filter :=
  comparison .isNot field value

/-- The field is equal to one of the values in a list. -/
def isOneOf (field : Field) (values : Value) : Except FilterFault Filter :=
  comparison .isOneOf field values

/-- The field is equal to none of the values in a list. -/
def isNotOneOf (field : Field) (values : Value) : Except FilterFault Filter :=
  comparison .isNotOneOf field values

/-- The field is above the bound. -/
def greaterThan (field : Field) (bound : Value) : Except FilterFault Filter :=
  comparison .greaterThan field bound

/-- The field is below the bound. -/
def lessThan (field : Field) (bound : Value) : Except FilterFault Filter :=
  comparison .lessThan field bound

/-! ### Equality -/

mutual

/-- The two filters are equal: the same fields, and equal operands. -/
def same : Filter → Filter → Bool
  | .equal n f v, .equal m g w => n == m && f == g && v.same w
  | .member n f vs, .member m g ws => n == m && f == g && Value.sameItems vs ws
  | .beyond s f v, .beyond t g w => s == t && f == g && v.same w
  | .present n f, .present m g => n == m && f == g
  | .anyOf fs, .anyOf gs => sameFilters fs gs
  | _, _ => false

/-- The two lists are equal, filter by filter. -/
def sameFilters : List Filter → List Filter → Bool
  | [], [] => true
  | f :: fs, g :: gs => same f g && sameFilters fs gs
  | _, _ => false

end

/-! ### Display -/

mutual

/-- The filter as a sentence. -/
def display : Filter → String
  | .equal negated f v => f.name ++ (if negated then " is not " else " is ") ++ v.display
  | .member negated f vs =>
    f.name ++ (if negated then " is not one of " else " is one of ") ++ (Value.list vs).display
  | .beyond side f v => f.name ++ side.phrase ++ v.display
  | .present negated f => f.name ++ (if negated then " does not exist" else " exists")
  | .anyOf fs => displayAny fs

/-- Filters as one sentence. -/
def displayAny : List Filter → String
  | [] => ""
  | [f] => display f
  | f :: g :: rest => display f ++ " OR " ++ displayAny (g :: rest)

end

end Filter

end RecordStore
