import RecordStore.Value.Typed

/-!
# `RecordStore.Proofs.Value.Typed`: values and what they hold

Extraction is the inverse of putting an element of the carrier into a value, at every depth of
lists. For the shape of a field's type the values that extraction accepts are those that conform
to the type.

* `extract_ofTyped`, `ofTyped_of_extract`: the two directions of the inverse.
* `conformsTo_ofTyped`, `exists_ofTyped_of_conformsTo`: the values of a field's type.
-/

set_option autoImplicit false

namespace RecordStore.Value

/-! ### Extraction -/

/-- The scalar that holds `x` is read as `x`. -/
theorem extractScalar_ofScalar (t : ScalarType) (x : t.Carrier) :
    extractScalar t (ofScalar t x) = .ok x := by
  cases t <;> rfl

/-- A scalar that is read as `x` is the one that holds `x`. -/
theorem ofScalar_of_extractScalar {t : ScalarType} {v : Value} {x : t.Carrier}
    (h : extractScalar t v = .ok x) : ofScalar t x = v := by
  cases t <;> cases v <;> cases h <;> rfl

/-- Items are read one by one if each one is. -/
theorem extractItems_map {α : Type} {read : Value → Except Mismatch α} {mk : α → Value}
    (h : ∀ x, read (mk x) = .ok x) (xs : List α) : extractItems read (xs.map mk) = .ok xs := by
  induction xs with
  | nil => rfl
  | cons x xs ih => rw [List.map_cons, extractItems, h, ih]

/-- Items that are read are the ones that hold what was read. -/
theorem map_of_extractItems {α : Type} {read : Value → Except Mismatch α} {mk : α → Value}
    (h : ∀ v x, read v = .ok x → mk x = v) {vs : List Value} {xs : List α}
    (hread : extractItems read vs = .ok xs) : xs.map mk = vs := by
  induction vs generalizing xs with
  | nil =>
    cases hread
    rfl
  | cons v vs ih =>
    rw [extractItems] at hread
    cases hv : read v with
    | error e =>
      rw [hv] at hread
      cases hread
    | ok x =>
      cases hvs : extractItems read vs with
      | error e =>
        rw [hv, hvs] at hread
        cases hread
      | ok ys =>
        rw [hv, hvs] at hread
        cases hread
        rw [List.map_cons, h v x hv, ih hvs]

/-- The value that holds `x` is read as `x`. -/
theorem extract_ofTyped (s : Shape) (x : s.Carrier) : extract s (ofTyped s x) = .ok x := by
  induction s with
  | scalar t => exact extractScalar_ofScalar t x
  | list s ih => exact extractItems_map ih x

/-- A value that is read as `x` is the one that holds `x`. -/
theorem ofTyped_of_extract {s : Shape} {v : Value} {x : s.Carrier} (h : extract s v = .ok x) :
    ofTyped s x = v := by
  induction s generalizing v with
  | scalar t => exact ofScalar_of_extractScalar h
  | list s ih =>
    cases v with
    | list items => exact congrArg Value.list (map_of_extractItems (fun _ _ => ih) h)
    | string | integer | float | boolean | dateTime => cases h

/-! ### The values of a field's type -/

/-- A scalar that holds something of type `t` is of type `t`. -/
theorem isScalar_ofScalar (t : ScalarType) (x : t.Carrier) : (ofScalar t x).isScalar t = true := by
  cases t <;> rfl

/-- A scalar of type `t` holds something of type `t`. -/
theorem exists_ofScalar_of_isScalar {t : ScalarType} {v : Value} (h : v.isScalar t = true) :
    ∃ x, ofScalar t x = v := by
  have htype : v.scalarType? = some t := beq_iff_eq.mp h
  cases v <;> cases htype <;> exact ⟨_, rfl⟩

/-- A value of the shape of a field's type conforms to the type. -/
theorem conformsTo_ofTyped (type : FieldType) (x : type.shape.Carrier) :
    (ofTyped type.shape x).conformsTo type = true := by
  cases type with
  | scalar t => cases t <;> rfl
  | list t =>
    show (List.map (ofScalar t) x).all (isScalar t) = true
    rw [List.all_eq_true]
    intro v hv
    obtain ⟨y, -, rfl⟩ := List.mem_map.mp hv
    exact isScalar_ofScalar t y

/-- Scalars of type `t` hold a list of things of type `t`. -/
theorem exists_map_ofScalar {t : ScalarType} {vs : List Value}
    (h : ∀ v ∈ vs, v.isScalar t = true) : ∃ xs, List.map (ofScalar t) xs = vs := by
  induction vs with
  | nil => exact ⟨[], rfl⟩
  | cons v vs ih =>
    obtain ⟨x, hx⟩ := exists_ofScalar_of_isScalar (h v List.mem_cons_self)
    obtain ⟨xs, hxs⟩ := ih fun w hw => h w (List.mem_cons_of_mem _ hw)
    exact ⟨x :: xs, by rw [List.map_cons, hx, hxs]⟩

/-- A value that conforms to a field's type is of its shape. -/
theorem exists_ofTyped_of_conformsTo {type : FieldType} {v : Value}
    (h : v.conformsTo type = true) : ∃ x, ofTyped type.shape x = v := by
  cases type with
  | scalar t =>
    cases v with
    | list items => cases h
    | string | integer | float | boolean | dateTime => exact exists_ofScalar_of_isScalar h
  | list t =>
    cases v with
    | list items =>
      obtain ⟨xs, hxs⟩ := exists_map_ofScalar (List.all_eq_true.mp h)
      exact ⟨xs, congrArg Value.list hxs⟩
    | string | integer | float | boolean | dateTime => cases h

end RecordStore.Value
