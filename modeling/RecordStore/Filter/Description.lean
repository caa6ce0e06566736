import RecordStore.Filter.Basic
import RecordStore.Schema
import RecordStore.Value.Json

/-!
# `RecordStore.Filter.Description`: filters as data

A description names the field and the operator of a filter by words and holds the operand as JSON.
`Filter.describe` writes one, `Description.build` makes a filter of it again, looking up the field
in a schema and reading the operand at the field's type. `Description.toJson` and
`Description.ofJson` are its form as a JSON object; `ofJson` also takes an array of the four parts
in order.
-/

set_option autoImplicit false

namespace RecordStore

/-- A filter as data: the name of its field, the word for its operator, its operand, and the filters
of a disjunction. -/
inductive Description where
  | mk (field : Option String) (operator : String) (value : Option Json)
    (filters : Option (List Description))

namespace Description

/-! ### Filters and descriptions -/

/-- The value that an operator is applied to: it is read only if there is a field to read it
for. -/
def readValue (field : Option Field) (value : Option Json) : Except Error (Option Value) :=
  match field, value with
  | some f, some raw => Value.ofJson f.type raw
  | _, _ => .ok none

/-- The field with the given name, which must be declared. -/
def findField (s : Schema) : Option String → Except Error (Option Field)
  | none => .ok none
  | some name =>
    match s.field? name with
    | some f => .ok (some f)
    | none => .error (.unknownField s.name name)

/-- A filter that is no disjunction. -/
def buildLeaf (s : Schema) (op : Operator) (field : Option String) (value : Option Json) :
    Except Error Filter :=
  match findField s field with
  | .error e => .error e
  | .ok f =>
    match readValue f value with
    | .error e => .error e
    | .ok v =>
      match Filter.new op f v [] with
      | .error fault => .error (.invalidFilter fault)
      | .ok filter => .ok filter

mutual

/-- The filter that a description stands for. -/
def build (s : Schema) : Description → Except Error Filter
  | .mk field operator value filters =>
    match Operator.ofWord? operator with
    | none => .error (.unknownOperator operator)
    | some .anyOf =>
      match filters with
      | none => .ok (.anyOf [])
      | some ds =>
        match buildAll s ds with
        | .error e => .error e
        | .ok fs => .ok (.anyOf fs)
    | some op => buildLeaf s op field value

/-- The filters that several descriptions stand for, or the first error. -/
def buildAll (s : Schema) : List Description → Except Error (List Filter)
  | [] => .ok []
  | d :: rest =>
    match build s d with
    | .error e => .error e
    | .ok f =>
      match buildAll s rest with
      | .error e => .error e
      | .ok fs => .ok (f :: fs)

end

/-! ### JSON form -/

mutual

/-- The description as a JSON object; what is absent is left out. -/
def toJson : Description → Json
  | .mk field operator value filters =>
    .ofMembers (
      (field.toList.map fun name => ("field", .string name)) ++
      [("operator", .string operator)] ++
      (value.toList.map fun raw => ("value", raw)) ++
      (match filters with
        | none => []
        | some ds => [("filters", .array (toJsonAll ds))]))

/-- The descriptions as JSON objects. -/
def toJsonAll : List Description → List Json
  | [] => []
  | d :: rest => toJson d :: toJsonAll rest

end

/-- A text where one is expected. -/
def decodeText : Json → Except DescriptionFault String
  | .string s => .ok s
  | raw => .error (.wrongKind raw "a string")

/-- A text or `null`. -/
def decodeOptionalText : Json → Except DescriptionFault (Option String)
  | .null => .ok none
  | raw => (decodeText raw).map some

/-- Any value; `null` is absence. -/
def decodeValue : Json → Option Json
  | .null => none
  | raw => some raw

/-- What is known of a description while the members of an object are met, in key order. -/
structure Partial where
  field : Option String
  operator : Option String
  value : Option Json
  filters : Option (List Description)

/-- The description that is known when all members have been met. -/
def Partial.finish (p : Partial) : Except DescriptionFault Description :=
  match p.operator with
  | some operator => .ok (.mk p.field operator p.value p.filters)
  | none => .error .noOperator

mutual

/-- The description that a JSON value is. -/
def decode : Json → Except DescriptionFault Description
  | .object members => decodeMembers members ⟨none, none, none, none⟩
  | .array items => decodeParts items
  | .null => .error (.wrongKind .null "struct FilterDescription")
  | .bool b => .error (.wrongKind (.bool b) "struct FilterDescription")
  | .int n => .error (.wrongKind (.int n) "struct FilterDescription")
  | .float x => .error (.wrongKind (.float x) "struct FilterDescription")
  | .string s => .error (.wrongKind (.string s) "struct FilterDescription")

/-- The description with the given members, of which some have been met before. -/
def decodeMembers : List (String × Json) → Partial → Except DescriptionFault Description
  | [], p => p.finish
  | (key, raw) :: rest, p =>
    if key = "field" then
      match decodeOptionalText raw with
      | .error e => .error e
      | .ok field => decodeMembers rest { p with field := field }
    else if key = "operator" then
      match decodeText raw with
      | .error e => .error e
      | .ok operator => decodeMembers rest { p with operator := some operator }
    else if key = "value" then decodeMembers rest { p with value := decodeValue raw }
    else if key = "filters" then
      match decodeFilters raw with
      | .error e => .error e
      | .ok filters => decodeMembers rest { p with filters := filters }
    else decodeMembers rest p

/-- The description with the given parts, in order. -/
def decodeParts : List Json → Except DescriptionFault Description
  | [] => .error .tooShort
  | [field] =>
    match decodeOptionalText field with
    | .error e => .error e
    | .ok _ => .error .tooShort
  -- Value and filters may be missing at the end.
  | [field, operator] =>
    match decodeOptionalText field with
    | .error e => .error e
    | .ok field =>
      match decodeText operator with
      | .error e => .error e
      | .ok operator => .ok (.mk field operator none none)
  | [field, operator, value] =>
    match decodeOptionalText field with
    | .error e => .error e
    | .ok field =>
      match decodeText operator with
      | .error e => .error e
      | .ok operator => .ok (.mk field operator (decodeValue value) none)
  | field :: operator :: value :: filters :: rest =>
    match decodeOptionalText field with
    | .error e => .error e
    | .ok field =>
      match decodeText operator with
      | .error e => .error e
      | .ok operator =>
        match decodeFilters filters with
        | .error e => .error e
        | .ok filters =>
          if rest.isEmpty then .ok (.mk field operator (decodeValue value) filters)
          else .error (.tooLong (rest.length + 4))

/-- The descriptions in an array; `null` is absence. -/
def decodeFilters : Json → Except DescriptionFault (Option (List Description))
  | .null => .ok none
  | .array items =>
    match decodeAll items with
    | .error e => .error e
    | .ok ds => .ok (some ds)
  | .bool b => .error (.wrongKind (.bool b) "a sequence")
  | .int n => .error (.wrongKind (.int n) "a sequence")
  | .float x => .error (.wrongKind (.float x) "a sequence")
  | .string s => .error (.wrongKind (.string s) "a sequence")
  | .object members => .error (.wrongKind (.object members) "a sequence")

/-- The descriptions that several JSON values are, or the first fault. -/
def decodeAll : List Json → Except DescriptionFault (List Description)
  | [] => .ok []
  | j :: rest =>
    match decode j with
    | .error e => .error e
    | .ok d =>
      match decodeAll rest with
      | .error e => .error e
      | .ok ds => .ok (d :: ds)

end

/-- The filter that a JSON value describes. The whole description is decoded before anything is
built. -/
def buildJson (s : Schema) (raw : Json) : Except Error Filter :=
  match decode raw with
  | .error fault => .error (.invalidFilter (.malformed fault))
  | .ok d => d.build s

end Description

namespace Filter

mutual

/-- The description of a filter. -/
def describe : Filter → Description
  | .anyOf fs => .mk none Operator.anyOf.word none (some (describeAll fs))
  | .equal n f v =>
    .mk (some f.name) (Filter.equal n f v).operator.word (some v.toJson) none
  | .member n f vs =>
    .mk (some f.name) (Filter.member n f vs).operator.word (some (Value.list vs).toJson) none
  | .beyond s f v => .mk (some f.name) (Filter.beyond s f v).operator.word (some v.toJson) none
  | .present n f => .mk (some f.name) (Filter.present n f).operator.word none none

/-- The descriptions of several filters. -/
def describeAll : List Filter → List Description
  | [] => []
  | f :: rest => describe f :: describeAll rest

end

end Filter

end RecordStore
