import RecordStore.Proofs.Calendar.RoundTrip
import RecordStore.Value.Json

/-!
# `RecordStore.Proofs.Value.RoundTrip`: a written value reads back

Reading is the inverse of writing for every value whose scalars are of the type that is read, at
any depth of lists, but for one loss: a double that is not finite is written as `null`. Among the
items of a list that is an error, and by itself it is absence.

* `readItem_toJson`: what becomes of a written value inside an array.
* `ofJson_toJson`, `ofJson_toJson_of_list`: what becomes of a written value by itself.
* `hasElements_of_readItem`, `hasElements_of_ofJson`: what is read is of the type and finite.
* `values_round_trip`: both directions, for every field type.
-/

set_option autoImplicit false

namespace RecordStore.Value

open RecordStore.Text

/-! ### The scalars of a value -/

mutual

/-- All doubles in the value are finite. -/
def isFinite : Value → Bool
  | .float x => x.isFinite
  | .list items => areFinite items
  | .string _ => true
  | .integer _ => true
  | .boolean _ => true
  | .dateTime _ => true

/-- All doubles in the values are finite. -/
def areFinite : List Value → Bool
  | [] => true
  | v :: rest => isFinite v && areFinite rest

end

mutual

/-- All scalars in the value, at any depth of lists, are of type `t`. -/
def hasElements (t : ScalarType) : Value → Bool
  | .list items => haveElements t items
  | .string s => isScalar t (.string s)
  | .integer n => isScalar t (.integer n)
  | .float x => isScalar t (.float x)
  | .boolean b => isScalar t (.boolean b)
  | .dateTime d => isScalar t (.dateTime d)

/-- All scalars in the values are of type `t`. -/
def haveElements (t : ScalarType) : List Value → Bool
  | [] => true
  | v :: rest => hasElements t v && haveElements t rest

end

/-- The values of a list are finite if each one is. -/
theorem areFinite_eq_all (items : List Value) : areFinite items = items.all isFinite := by
  induction items with
  | nil => rfl
  | cons v rest ih => rw [areFinite, List.all_cons, ih]

/-- The scalars in a list are of type `t` if those in each item are. -/
theorem haveElements_eq_all (t : ScalarType) (items : List Value) :
    haveElements t items = items.all (hasElements t) := by
  induction items with
  | nil => rfl
  | cons v rest ih => rw [haveElements, List.all_cons, ih]

/-- A scalar of type `t` has only itself to be of type `t`. -/
theorem hasElements_of_isScalar {t : ScalarType} {v : Value} (h : v.isScalar t = true) :
    v.hasElements t = true := by
  cases v with
  | list items => simp [isScalar, scalarType?] at h
  | string | integer | float | boolean | dateTime => rw [hasElements, h]

/-- A value that conforms to a type has scalars of its element type only. -/
theorem hasElements_of_conformsTo {type : FieldType} {v : Value}
    (h : v.conformsTo type = true) : v.hasElements type.element = true := by
  cases type with
  | scalar t =>
    cases v with
    | list items => simp [conformsTo] at h
    | string | integer | float | boolean | dateTime => exact hasElements_of_isScalar h
  | list t =>
    cases v with
    | list items =>
      simp only [conformsTo, List.all_eq_true] at h
      rw [hasElements, haveElements_eq_all, List.all_eq_true]
      exact fun v hv => hasElements_of_isScalar (h v hv)
    | string | integer | float | boolean | dateTime => simp [conformsTo] at h

/-- A value of a type that is no list type is a scalar. -/
theorem isScalar_of_conformsTo {type : FieldType} (htype : type.isList = false) {v : Value}
    (h : v.conformsTo type = true) : v.isScalar type.element = true := by
  cases type with
  | list t => cases htype
  | scalar t =>
    cases v with
    | list items => cases h
    | string | integer | float | boolean | dateTime => exact h

/-- A value of a list type is a list of scalars. -/
theorem exists_list_of_conformsTo {type : FieldType} (htype : type.isList = true) {v : Value}
    (h : v.conformsTo type = true) : ∃ items, v = .list items := by
  cases type with
  | scalar t => cases htype
  | list t =>
    cases v with
    | list items => exact ⟨items, rfl⟩
    | string | integer | float | boolean | dateTime => cases h

/-! ### Reading what was written -/

/-- A 64-bit number is in range. -/
theorem int64?_toInt (n : Int64) : int64? n.toInt = some n := by
  have hlo : -0x8000000000000000 ≤ n.toInt := n.le_toInt
  have hhi : n.toInt < 0x8000000000000000 := n.toInt_lt
  rw [int64?, if_pos ⟨hlo, hhi⟩, Int64.ofInt_toInt]

/-- A written date-time is read back. -/
theorem readDateTime_text (t : Calendar.DateTime) : readDateTime t.text = .ok t := by
  rw [readDateTime, Calendar.DateTime.text, String.toList_ofList, Calendar.DateTime.trim_chars,
    Calendar.DateTime.ofTrimmed?_chars]

/-- A written finite scalar is read back. -/
theorem readScalar_toJson {t : ScalarType} {v : Value} (ht : v.isScalar t = true)
    (hfin : v.isFinite = true) : readScalar t v.toJson = .ok v := by
  have htype : v.scalarType? = some t := beq_iff_eq.mp ht
  cases v with
  | string s =>
    cases htype
    rfl
  | integer n =>
    cases htype
    simp only [toJson, readScalar, integer?, int64?_toInt, Option.some_or, Option.map_some,
      orUnreadable]
  | float x =>
    cases htype
    have hx : x.isFinite = true := hfin
    simp only [toJson, hx, if_true, readScalar, double?, Option.filter_some, Option.map_some,
      orUnreadable]
  | boolean b =>
    cases htype
    rfl
  | dateTime d =>
    cases htype
    simp only [toJson, readScalar, readDateTime_text, Except.map]
  | list items => cases htype

/-- A double that is not finite is written as `null`. -/
theorem toJson_of_not_isFinite {t : ScalarType} {v : Value} (ht : v.isScalar t = true)
    (hfin : v.isFinite = false) : v.toJson = .null := by
  cases v with
  | float x =>
    have hx : x.isFinite = false := hfin
    simp [toJson, hx]
  | list items => simp [isScalar, scalarType?] at ht
  | string | integer | boolean | dateTime => cases hfin

/-- Only a double that is not finite is written as `null`. -/
theorem toJson_ne_null {v : Value} (h : v.isFinite = true) : v.toJson ≠ .null := by
  cases v with
  | float x =>
    have hx : x.isFinite = true := h
    simp [toJson, hx]
  | string | integer | boolean | dateTime | list => simp [toJson]

/-- A scalar inside an array is read as one by itself is, but `null` is refused there. -/
theorem readItem_eq_readScalar {t : ScalarType} {raw : Json} (hnull : raw ≠ .null)
    (harray : ∀ items, raw ≠ .array items) : readItem t raw = readScalar t raw := by
  cases raw with
  | null => exact absurd rfl hnull
  | array items => exact absurd rfl (harray items)
  | bool | int | float | string | object => rfl

/-- A scalar is not written as an array. -/
theorem toJson_ne_array {t : ScalarType} {v : Value} (h : v.isScalar t = true)
    (items : List Json) : v.toJson ≠ .array items := by
  cases v with
  | float x =>
    rw [toJson]
    split <;> simp
  | list vs => simp [isScalar, scalarType?] at h
  | string | integer | boolean | dateTime => simp [toJson]

/-- A written scalar inside an array is read back, or it is the `null` that is refused there. -/
theorem readItem_toJson_of_isScalar {t : ScalarType} {v : Value} (h : v.isScalar t = true) :
    readItem t v.toJson
      = if v.isFinite then .ok v else .error (.mismatch (.nullItem t)) := by
  split
  · rename_i hfin
    rw [readItem_eq_readScalar (toJson_ne_null hfin) (toJson_ne_array h),
      readScalar_toJson h hfin]
  · rename_i hfin
    rw [toJson_of_not_isFinite h (by simpa using hfin)]
    rfl

mutual

/-- A written value inside an array is read back if it is finite, and else it holds a `null` that
is refused there. -/
theorem readItem_toJson (t : ScalarType) : (v : Value) → v.hasElements t = true →
    readItem t v.toJson = if v.isFinite then .ok v else .error (.mismatch (.nullItem t))
  | .string _, h => readItem_toJson_of_isScalar h
  | .integer _, h => readItem_toJson_of_isScalar h
  | .float _, h => readItem_toJson_of_isScalar h
  | .boolean _, h => readItem_toJson_of_isScalar h
  | .dateTime _, h => readItem_toJson_of_isScalar h
  | .list items, h => by
    rw [toJson, readItem_array, readItems_toJsonItems t items h, isFinite]
    cases areFinite items <;> rfl

/-- Written values inside an array are read back if all are finite. -/
theorem readItems_toJsonItems (t : ScalarType) : (vs : List Value) →
    haveElements t vs = true →
    readItems t (toJsonItems vs)
      = if areFinite vs then .ok vs else .error (.mismatch (.nullItem t))
  | [], _ => rfl
  | v :: rest, h => by
    rw [haveElements, Bool.and_eq_true] at h
    rw [toJsonItems, readItems, readItem_toJson t v h.1, readItems_toJsonItems t rest h.2,
      areFinite]
    cases v.isFinite <;> cases areFinite rest <;> rfl

end

/-- What is not `null` is read as it is inside an array. -/
theorem ofJson_of_ne_null {type : FieldType} {raw : Json} (h : raw ≠ .null) :
    ofJson type raw = (readItem type.element raw).map some := by
  cases raw with
  | null => exact absurd rfl h
  | array items =>
    show listed (readItems type.element items) = _
    rw [readItem_array]
    cases readItems type.element items with
    | ok vs => rfl
    | error e => rfl
  | bool | int | float | string | object => rfl

/-- A written finite value is read back. -/
theorem ofJson_toJson {type : FieldType} {v : Value} (h : v.hasElements type.element = true)
    (hfin : v.isFinite = true) : ofJson type v.toJson = .ok (some v) := by
  rw [ofJson_of_ne_null (toJson_ne_null hfin), readItem_toJson _ v h, if_pos hfin]
  rfl

/-- A scalar that is not finite is read as absent. -/
theorem ofJson_toJson_of_isScalar {type : FieldType} {t : ScalarType} {v : Value}
    (h : v.isScalar t = true) (hfin : v.isFinite = false) :
    ofJson type v.toJson = .ok none := by
  rw [toJson_of_not_isFinite h hfin]
  rfl

/-- A list with something in it that is not finite is refused. -/
theorem ofJson_toJson_of_list {type : FieldType} {items : List Value}
    (h : haveElements type.element items = true) (hfin : areFinite items = false) :
    ofJson type (Value.list items).toJson = .error (.mismatch (.nullItem type.element)) := by
  have hread := readItem_toJson type.element (.list items) h
  rw [isFinite, hfin] at hread
  rw [ofJson_of_ne_null (by simp [toJson]), hread]
  rfl

/-! ### What can be read -/

/-- A scalar that is read is of the type and finite. -/
theorem isScalar_of_readScalar {t : ScalarType} {raw : Json} {v : Value}
    (h : readScalar t raw = .ok v) : v.isScalar t = true ∧ v.isFinite = true := by
  have hread : ∀ {α : Type} {mk : α → Value} {x? : Option α},
      orUnreadable raw t (x?.map mk) = .ok v → ∃ x, x? = some x ∧ v = mk x := by
    intro α mk x? hx
    cases x? with
    | none => cases hx
    | some x => exact ⟨x, rfl, (Except.ok.inj hx).symm⟩
  cases t with
  | string =>
    obtain ⟨x, -, rfl⟩ := hread h
    exact ⟨rfl, rfl⟩
  | integer =>
    obtain ⟨x, -, rfl⟩ := hread h
    exact ⟨rfl, rfl⟩
  | float =>
    obtain ⟨x, hx, rfl⟩ := hread h
    -- The reader of doubles keeps only finite ones.
    exact ⟨rfl, (Option.filter_eq_some_iff.mp hx).2⟩
  | boolean =>
    obtain ⟨x, -, rfl⟩ := hread h
    exact ⟨rfl, rfl⟩
  | dateTime =>
    cases raw with
    | string s =>
      rw [readScalar] at h
      cases hs : readDateTime s with
      | error e =>
        rw [hs] at h
        cases h
      | ok d =>
        rw [hs] at h
        cases h
        exact ⟨rfl, rfl⟩
    | null | bool | int | float | array | object => cases h

mutual

/-- A value that is read inside an array has scalars of the type, and they are finite. -/
theorem hasElements_of_readItem {t : ScalarType} : {raw : Json} → {v : Value} →
    readItem t raw = .ok v → v.hasElements t = true ∧ v.isFinite = true
  | .null, _, h => by cases h
  | .array items, _, h => by
    rw [readItem_array] at h
    cases hitems : readItems t items with
    | error e =>
      rw [hitems] at h
      cases h
    | ok vs =>
      rw [hitems] at h
      cases h
      exact haveElements_of_readItems hitems
  | .bool _, _, h => (isScalar_of_readScalar h).imp hasElements_of_isScalar id
  | .int _, _, h => (isScalar_of_readScalar h).imp hasElements_of_isScalar id
  | .float _, _, h => (isScalar_of_readScalar h).imp hasElements_of_isScalar id
  | .string _, _, h => (isScalar_of_readScalar h).imp hasElements_of_isScalar id
  | .object _, _, h => (isScalar_of_readScalar h).imp hasElements_of_isScalar id

/-- Values that are read inside an array have scalars of the type, and they are finite. -/
theorem haveElements_of_readItems {t : ScalarType} : {raws : List Json} → {vs : List Value} →
    readItems t raws = .ok vs → haveElements t vs = true ∧ areFinite vs = true
  | [], _, h => by
    cases h
    exact ⟨rfl, rfl⟩
  | raw :: rest, _, h => by
    rw [readItems] at h
    cases hfirst : readItem t raw with
    | error e =>
      rw [hfirst] at h
      cases h
    | ok v =>
      cases hrest : readItems t rest with
      | error e =>
        rw [hfirst, hrest] at h
        cases h
      | ok vs =>
        rw [hfirst, hrest] at h
        cases h
        have hv := hasElements_of_readItem hfirst
        have hvs := haveElements_of_readItems hrest
        rw [haveElements, areFinite, hv.1, hv.2, hvs.1, hvs.2]
        exact ⟨rfl, rfl⟩

end

/-- A value that is read has scalars of the type, and they are finite. -/
theorem hasElements_of_ofJson {type : FieldType} {raw : Json} {v : Value}
    (h : ofJson type raw = .ok (some v)) :
    v.hasElements type.element = true ∧ v.isFinite = true := by
  by_cases hnull : raw = .null
  · rw [hnull] at h
    cases h
  · rw [ofJson_of_ne_null hnull] at h
    cases hitem : readItem type.element raw with
    | error e =>
      rw [hitem] at h
      cases h
    | ok w =>
      rw [hitem] at h
      cases h
      exact hasElements_of_readItem hitem

/-- A value that is read is finite. -/
theorem isFinite_of_ofJson {type : FieldType} {raw : Json} {v : Value}
    (h : ofJson type raw = .ok (some v)) : v.isFinite = true :=
  (hasElements_of_ofJson h).2

/-- A written value is read back if its scalars are finite and of the type that is read, at any
depth of lists; and so whatever has been read once can be written and read again. -/
theorem values_round_trip (type : FieldType) :
    (∀ v : Value, v.hasElements type.element = true → v.isFinite = true →
      ofJson type v.toJson = .ok (some v)) ∧
    ∀ raw v, ofJson type raw = .ok (some v) → ofJson type v.toJson = .ok (some v) := by
  constructor
  · intro v h hfin
    exact ofJson_toJson h hfin
  · intro raw v hread
    obtain ⟨h, hfin⟩ := hasElements_of_ofJson hread
    exact ofJson_toJson h hfin

/-- The last leap second that can be named and the first moment of all, in lists of two depths
beside an empty one; and a text that is read as a number, which is then written as a number. -/
theorem values_round_trip_leap_second :
    let leap : Value := .dateTime ⟨⟨262142, 12, 31, by decide⟩, 86399, 1999999999, by decide⟩
    let first : Value := .dateTime ⟨⟨-262143, 1, 1, by decide⟩, 0, 0, by decide⟩
    let nested : Value := .list [.list [leap], .list [], first]
    ofJson (.scalar .dateTime) nested.toJson = .ok (some nested) ∧
    ofJson (.list .integer) (Value.integer (-7)).toJson = .ok (some (.integer (-7))) := by
  intro leap first nested
  refine ⟨(values_round_trip (.scalar .dateTime)).1 nested (by decide) (by decide), ?_⟩
  exact (values_round_trip (.list .integer)).2 (.string " -7 ") (.integer (-7)) rfl

end RecordStore.Value
