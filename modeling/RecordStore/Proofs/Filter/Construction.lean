import RecordStore.Filter.Basic
import RecordStore.Proofs.Outcome

/-!
# `RecordStore.Proofs.Filter.Construction`: what `Filter.new` accepts

Whether an operator can be applied to a field and an operand is a matter of these alone:
`Operator.Takes` says what an operator can be applied to, and `Operator.Refuses` names the first
fault of all else. `Filter.new` decides between the two, and what it makes has the parts that it
was given.

* `takes_or_refuses`: one of the two is the case.
* `new_of_takes`, `new_of_refuses`: what `Filter.new` does in either case.
* `new_decides`: when it does so.
* `hasParts_of_new`, `takes_of_new`: what is made has these parts, and its operator takes them.
-/

set_option autoImplicit false

namespace RecordStore

/-! ### What operators can be applied to -/

/-- The kinds of condition. All but the disjunction have two operators. -/
inductive Kind where
  | equality
  | membership
  | bound
  | presence
  | disjunction
deriving DecidableEq

/-- The kind of condition that an operator makes. -/
def Operator.kind : Operator → Kind
  | .is => .equality
  | .isNot => .equality
  | .isOneOf => .membership
  | .isNotOneOf => .membership
  | .greaterThan => .bound
  | .lessThan => .bound
  | .present => .presence
  | .absent => .presence
  | .anyOf => .disjunction

/-- The field holds one number or one date-time. -/
def Field.IsOrdered (f : Field) : Prop :=
  f.type = .scalar .integer ∨ f.type = .scalar .float ∨ f.type = .scalar .dateTime

instance (f : Field) : Decidable f.IsOrdered :=
  inferInstanceAs (Decidable
    (f.type = .scalar .integer ∨ f.type = .scalar .float ∨ f.type = .scalar .dateTime))

/-- The fields with an order are no lists, and their elements are of a type with an order. -/
theorem Field.isOrdered_iff (f : Field) :
    f.IsOrdered ↔ f.type.isList = false ∧ f.type.element.isOrdered = true := by
  obtain ⟨name, type, documentAlias, keywordAlias⟩ := f
  cases type with
  | list t => simp [IsOrdered, FieldType.isList]
  | scalar t =>
    cases t <;> simp [IsOrdered, FieldType.isList, FieldType.element, ScalarType.isOrdered]

/-- The value is a scalar of the type of the field's elements. -/
def Field.Admits (f : Field) (v : Value) : Prop :=
  v.scalarType? = some f.type.element

instance (f : Field) (v : Value) : Decidable (f.Admits v) :=
  inferInstanceAs (Decidable (v.scalarType? = some f.type.element))

/-- What a field admits passes the type test. -/
theorem Field.admits_iff {f : Field} {v : Value} :
    f.Admits v ↔ v.isScalar f.type.element = true :=
  beq_iff_eq.symm

namespace Operator

/-- The operator can be applied to the field and the operand: an equality to a value that the field
admits, a membership to a list of such values that is not empty, a bound to such a value if the
field has an order, a presence to any field, and a disjunction to anything. -/
def Takes (op : Operator) (field : Option Field) (value : Option Value) : Prop :=
  match op.kind with
  | .equality => ∃ f v, field = some f ∧ value = some v ∧ f.Admits v
  | .membership => ∃ f vs, field = some f ∧ value = some (.list vs) ∧ vs ≠ [] ∧ ∀ v ∈ vs, f.Admits v
  | .bound => ∃ f v, field = some f ∧ value = some v ∧ f.IsOrdered ∧ f.Admits v
  | .presence => ∃ f, field = some f
  | .disjunction => True

/-- The first fault that an operator finds in a field and an operand:

- `noField`: there is no field, and the operator needs one;
- `unordered`: the field has no order, and the operand is to be a bound;
- `noValue`: there is no operand, and the operator needs one;
- `notList`, `emptyList`: the operand is to be a list with an item;
- `item`: an item of the list is not admitted, and no item before it was at fault;
- `operand`: the operand is not admitted. -/
inductive Refuses : Operator → Option Field → Option Value → FilterFault → Prop where
  | noField {op : Operator} {value : Option Value} (hop : op.kind ≠ .disjunction) :
      Refuses op none value (.noField op)
  | unordered {op : Operator} {f : Field} {value : Option Value} (hop : op.kind = .bound)
      (hf : ¬f.IsOrdered) : Refuses op (some f) value (.unordered f.name)
  | noValue {op : Operator} {f : Field} (hop : op.kind ≠ .presence ∧ op.kind ≠ .disjunction)
      (hf : op.kind = .bound → f.IsOrdered) : Refuses op (some f) none (.noValue op)
  | notList {op : Operator} {f : Field} {v : Value} (hop : op.kind = .membership)
      (hv : ∀ vs, v ≠ .list vs) : Refuses op (some f) (some v) (.notList op)
  | emptyList {op : Operator} {f : Field} (hop : op.kind = .membership) :
      Refuses op (some f) (some (.list [])) (.emptyList op)
  | item {op : Operator} {f : Field} {before : List Value} {v : Value} {after : List Value}
      (hop : op.kind = .membership) (hbefore : ∀ w ∈ before, f.Admits w) (hv : ¬f.Admits v) :
      Refuses op (some f) (some (.list (before ++ v :: after))) (.wrongType v f.type.element)
  | operand {op : Operator} {f : Field} {v : Value}
      (hop : op.kind = .equality ∨ op.kind = .bound ∧ f.IsOrdered) (hv : ¬f.Admits v) :
      Refuses op (some f) (some v) (.wrongType v f.type.element)

/-- What an operator cannot be applied to has a fault. -/
theorem takes_or_refuses (op : Operator) (field : Option Field) (value : Option Value) :
    op.Takes field value ∨ ∃ fault, op.Refuses field value fault := by
  rw [Takes]
  -- The cases are the checks in their order: the field, its order, the operand.
  cases field with
  | none =>
    cases hop : op.kind with
    | disjunction => exact .inl trivial
    | equality | membership | bound | presence =>
      exact .inr ⟨_, .noField (by simp [hop])⟩
  | some f =>
    cases hop : op.kind with
    | disjunction => exact .inl trivial
    | presence => exact .inl ⟨f, rfl⟩
    | equality =>
      cases value with
      | none => exact .inr ⟨_, .noValue (by simp [hop]) (by simp [hop])⟩
      | some v =>
        by_cases hv : f.Admits v
        · exact .inl ⟨f, v, rfl, rfl, hv⟩
        · exact .inr ⟨_, .operand (.inl hop) hv⟩
    | bound =>
      by_cases hf : f.IsOrdered
      · cases value with
        | none => exact .inr ⟨_, .noValue (by simp [hop]) fun _ => hf⟩
        | some v =>
          by_cases hv : f.Admits v
          · exact .inl ⟨f, v, rfl, rfl, hf, hv⟩
          · exact .inr ⟨_, .operand (.inr ⟨hop, hf⟩) hv⟩
      · exact .inr ⟨_, .unordered hop hf⟩
    | membership =>
      cases value with
      | none => exact .inr ⟨_, .noValue (by simp [hop]) (by simp [hop])⟩
      | some v =>
        cases v with
        | string | integer | float | boolean | dateTime =>
          exact .inr ⟨_, .notList hop (by simp)⟩
        | list vs =>
          by_cases hvs : vs = []
          · subst hvs
            exact .inr ⟨_, .emptyList hop⟩
          · have hitems : ∀ v ∈ vs, f.Admits v ∨ ∃ _ : Unit, ¬f.Admits v := fun v _ =>
              (Decidable.em (f.Admits v)).imp id fun hv => ⟨(), hv⟩
            rcases all_or_first hitems with hall | ⟨before, v, after, -, rfl, hbefore, hv⟩
            · exact .inl ⟨f, vs, rfl, rfl, hvs, hall⟩
            · exact .inr ⟨_, .item hop hbefore hv⟩

end Operator

namespace Filter

/-! ### Checks -/

/-- An operand that the field admits passes the check, and any other does not. -/
theorem checkType_eq (f : Field) (v : Value) :
    checkType f v =
      if f.Admits v then .ok () else .error (.wrongType v f.type.element) := by
  rw [checkType]
  by_cases hv : f.Admits v
  · rw [if_pos hv, if_pos (Field.admits_iff.mp hv)]
  · rw [if_neg hv, if_neg fun h => hv (Field.admits_iff.mpr h)]

/-- Operands that the field admits pass the check. -/
theorem checkTypes_of_admits {f : Field} {vs : List Value} (h : ∀ v ∈ vs, f.Admits v) :
    checkTypes f vs = .ok () := by
  induction vs with
  | nil => rfl
  | cons v rest ih =>
    rw [checkTypes, checkType_eq, if_pos (h v List.mem_cons_self)]
    exact ih fun w hw => h w (List.mem_cons_of_mem _ hw)

/-- Of several operands the first that the field does not admit is reported. -/
theorem checkTypes_of_not_admits {f : Field} {before : List Value} {v : Value}
    (hbefore : ∀ w ∈ before, f.Admits w) (hv : ¬f.Admits v) (after : List Value) :
    checkTypes f (before ++ v :: after) = .error (.wrongType v f.type.element) := by
  induction before with
  | nil => rw [List.nil_append, checkTypes, checkType_eq, if_neg hv]
  | cons w rest ih =>
    rw [List.cons_append, checkTypes, checkType_eq, if_pos (hbefore w List.mem_cons_self)]
    exact ih fun x hx => hbefore x (List.mem_cons_of_mem _ hx)

/-- The check for an order finds the fields that hold one number or one date-time. -/
theorem isList_or_not_isOrdered (f : Field) :
    (f.type.isList || !f.type.element.isOrdered) = !decide f.IsOrdered := by
  rw [← decide_not, Bool.eq_iff_iff, decide_eq_true_iff, f.isOrdered_iff]
  cases f.type.isList <;> cases f.type.element.isOrdered <;> simp

/-! ### Comparisons -/

/-- A field and an operand make an equality if the field admits the operand. -/
theorem newEqual_some (op : Operator) (n : Bool) (f : Field) (v : Value) :
    newEqual op n (some f) (some v) =
      if f.Admits v then .ok (.equal n f v) else .error (.wrongType v f.type.element) := by
  simp only [newEqual, needField, needValue, bind, Except.bind, checkType_eq]
  by_cases hv : f.Admits v
  · simp only [if_pos hv]
    rfl
  · simp only [if_neg hv]

/-- A field and several operands make a membership if all operands pass the check. -/
theorem newMember_some (op : Operator) (n : Bool) (f : Field) {vs : List Value} (h : vs ≠ []) :
    newMember op n (some f) (some (.list vs)) =
      (checkTypes f vs).map fun _ => .member n f vs := by
  cases vs with
  | nil => exact absurd rfl h
  | cons v rest =>
    simp only [newMember, needField, needValue, bind, Except.bind]
    cases checkTypes f (v :: rest) <;> rfl

/-- A field and several operands that it admits make a membership. -/
theorem newMember_of_admits (op : Operator) (n : Bool) {f : Field} {vs : List Value}
    (hne : vs ≠ []) (hvs : ∀ v ∈ vs, f.Admits v) :
    newMember op n (some f) (some (.list vs)) = .ok (.member n f vs) := by
  rw [newMember_some op n f hne, checkTypes_of_admits hvs]
  rfl

/-- An operand that is no list makes no membership. -/
theorem newMember_of_not_list (op : Operator) (n : Bool) (f : Field) {v : Value}
    (h : ∀ vs, v ≠ .list vs) : newMember op n (some f) (some v) = .error (.notList op) := by
  cases v with
  | list vs => exact absurd rfl (h vs)
  | string | integer | float | boolean | dateTime => rfl

/-- A field without an order has no bounds. -/
theorem newBeyond_of_not_isOrdered (op : Operator) (side : Side) {f : Field} (h : ¬f.IsOrdered)
    (value : Option Value) : newBeyond op side (some f) value = .error (.unordered f.name) := by
  simp only [newBeyond, needField, bind, Except.bind, isList_or_not_isOrdered, h, decide_false,
    Bool.not_false, if_true]

/-- With an order a field needs a bound. -/
theorem newBeyond_none (op : Operator) (side : Side) {f : Field} (h : f.IsOrdered) :
    newBeyond op side (some f) none = .error (.noValue op) := by
  simp only [newBeyond, needField, needValue, bind, Except.bind, isList_or_not_isOrdered, h,
    decide_true, Bool.not_true, Bool.false_eq_true, if_false]

/-- A field with an order and an operand make a bound if the field admits the operand. -/
theorem newBeyond_some (op : Operator) (side : Side) {f : Field} (h : f.IsOrdered) (v : Value) :
    newBeyond op side (some f) (some v) =
      if f.Admits v then .ok (.beyond side f v) else .error (.wrongType v f.type.element) := by
  simp only [newBeyond, needField, needValue, bind, Except.bind, isList_or_not_isOrdered, h,
    decide_true, Bool.not_true, Bool.false_eq_true, if_false, checkType_eq]
  by_cases hv : f.Admits v
  · simp only [if_pos hv]
    rfl
  · simp only [if_neg hv]

/-! ### Construction -/

/-- The filter has the operator and, as far as the operator uses them, the other parts. -/
structure HasParts (f : Filter) (op : Operator) (field : Option Field) (value : Option Value)
    (filters : List Filter) : Prop where
  operator : f.operator = op
  field : f.field? = if op.kind = .disjunction then none else field
  value : f.value? = if op.kind = .presence ∨ op.kind = .disjunction then none else value
  filters : f.filters = if op.kind = .disjunction then filters else []

variable {op : Operator} {field : Option Field} {value : Option Value}

/-- What an operator can be applied to is made a filter with these parts. -/
theorem new_of_takes (h : op.Takes field value) (filters : List Filter) :
    ∃ f, Filter.new op field value filters = .ok f ∧ f.HasParts op field value filters := by
  cases op with
  | is | isNot =>
    obtain ⟨f, v, rfl, rfl, hv⟩ := h
    exact ⟨_, (newEqual_some _ _ f v).trans (if_pos hv), ⟨rfl, rfl, rfl, rfl⟩⟩
  | isOneOf | isNotOneOf =>
    obtain ⟨f, vs, rfl, rfl, hne, hvs⟩ := h
    exact ⟨_, newMember_of_admits _ _ hne hvs, ⟨rfl, rfl, rfl, rfl⟩⟩
  | greaterThan | lessThan =>
    obtain ⟨f, v, rfl, rfl, hf, hv⟩ := h
    exact ⟨_, (newBeyond_some _ _ hf v).trans (if_pos hv), ⟨rfl, rfl, rfl, rfl⟩⟩
  | present | absent =>
    obtain ⟨f, rfl⟩ := h
    exact ⟨_, rfl, ⟨rfl, rfl, rfl, rfl⟩⟩
  | anyOf => exact ⟨_, rfl, ⟨rfl, rfl, rfl, rfl⟩⟩

/-- What an operator finds a fault in is refused with this fault. -/
theorem new_of_refuses {fault : FilterFault} (h : op.Refuses field value fault)
    (filters : List Filter) : Filter.new op field value filters = .error fault := by
  -- A fault belongs to some kinds of condition, and a kind has one check for its two operators.
  cases h with
  | noField hop =>
    cases op with
    | anyOf => exact absurd rfl hop
    | is | isNot | isOneOf | isNotOneOf | greaterThan | lessThan | present | absent => rfl
  | unordered hop hf =>
    cases op with
    | greaterThan | lessThan => exact newBeyond_of_not_isOrdered _ _ hf _
    | is | isNot | isOneOf | isNotOneOf | present | absent | anyOf => cases hop
  | noValue hop hf =>
    cases op with
    | is | isNot | isOneOf | isNotOneOf => rfl
    | greaterThan | lessThan => exact newBeyond_none _ _ (hf rfl)
    | present | absent => exact absurd rfl hop.1
    | anyOf => exact absurd rfl hop.2
  | notList hop hv =>
    cases op with
    | isOneOf | isNotOneOf => exact newMember_of_not_list _ _ _ hv
    | is | isNot | greaterThan | lessThan | present | absent | anyOf => cases hop
  | emptyList hop =>
    cases op with
    | isOneOf | isNotOneOf => rfl
    | is | isNot | greaterThan | lessThan | present | absent | anyOf => cases hop
  | item hop hbefore hv =>
    have hcheck := checkTypes_of_not_admits hbefore hv
    cases op with
    | isOneOf | isNotOneOf =>
      exact (newMember_some _ _ _ (by simp)).trans (congrArg _ (hcheck _))
    | is | isNot | greaterThan | lessThan | present | absent | anyOf => cases hop
  | operand hop hv =>
    cases op with
    | is | isNot => exact (newEqual_some _ _ _ _).trans (if_neg hv)
    | greaterThan | lessThan =>
      rcases hop with hop | ⟨-, hf⟩
      · cases hop
      · exact (newBeyond_some _ _ hf _).trans (if_neg hv)
    | isOneOf | isNotOneOf | present | absent | anyOf =>
      rcases hop with hop | ⟨hop, -⟩ <;> cases hop

/-- A filter is made exactly if the operator can be applied, and the fault that is reported is the
first that the operator finds. -/
theorem new_decides (op : Operator) (field : Option Field) (value : Option Value)
    (filters : List Filter) :
    ((∃ f, Filter.new op field value filters = .ok f) ↔ op.Takes field value) ∧
      ∀ fault, Filter.new op field value filters = .error fault ↔ op.Refuses field value fault := by
  refine exists_outcome_iff (op.takes_or_refuses field value) (fun h => ?_) fun fault h =>
    new_of_refuses h filters
  obtain ⟨f, hf, -⟩ := new_of_takes h filters
  exact ⟨f, hf⟩

/-- A filter that is made has the given parts. -/
theorem hasParts_of_new {filters : List Filter} {f : Filter}
    (h : Filter.new op field value filters = .ok f) : f.HasParts op field value filters := by
  have htakes := (new_decides op field value filters).1.mp ⟨f, h⟩
  obtain ⟨g, hg, hparts⟩ := new_of_takes htakes filters
  rw [h] at hg
  cases hg
  exact hparts

/-- A filter that is made has parts that its operator can be applied to. -/
theorem takes_of_new {filters : List Filter} {f : Filter}
    (h : Filter.new op field value filters = .ok f) : f.operator.Takes f.field? f.value? := by
  have hparts := hasParts_of_new h
  have htakes := (new_decides op field value filters).1.mp ⟨f, h⟩
  rw [hparts.operator, hparts.field, hparts.value]
  cases hop : op.kind <;> simp_all [Operator.Takes]

end Filter

end RecordStore
