import RecordStore.Proofs.Value.Coercion

/-!
# `RecordStore.Proofs.Value.Shape`: the shape of what is read

An array is read as a list of as many items, and only an array is read as a list. So whether a
value that was read is a scalar can be told from the JSON value that it was read from.

* `readItems_eq_ok_iff`: items are read one by one.
* `isScalar_iff_of_readItem`: scalars are read from what is no array.
* `isReadError_of_ofJson`: what cannot be read is a mismatch or a text that is no date-time.
-/

set_option autoImplicit false

namespace RecordStore

/-- The value is neither `null` nor an array. -/
def Json.IsSingle (raw : Json) : Prop :=
  raw ≠ .null ∧ ∀ items, raw ≠ .array items

namespace Value

/-- The error says that a value is not of its type, or that a text is no date-time. -/
def IsReadError (e : Error) : Prop :=
  (∃ cause, e = .mismatch cause) ∨ ∃ text, e = .notDateTime text

/-! ### Items -/

/-- Items are read if each one is. -/
theorem readItems_eq_ok_iff {t : ScalarType} {raws : List Json} {vs : List Value} :
    readItems t raws = .ok vs ↔ List.Forall₂ (fun raw v => readItem t raw = .ok v) raws vs := by
  induction raws generalizing vs with
  | nil =>
    rw [readItems, Except.ok.injEq, List.forall₂_nil_left_iff, eq_comm]
  | cons raw rest ih =>
    simp only [readItems_cons_eq_ok_iff, ih, List.forall₂_cons_left_iff]
    constructor
    · rintro ⟨v, vs, rfl, hv, hvs⟩
      exact ⟨v, vs, hv, hvs, rfl⟩
    · rintro ⟨v, vs, hv, hvs, rfl⟩
      exact ⟨v, vs, rfl, hv, hvs⟩

/-- All items can be read if each one can. -/
theorem exists_readItems_iff {t : ScalarType} {raws : List Json} :
    (∃ vs, readItems t raws = .ok vs) ↔ ∀ raw ∈ raws, ∃ v, readItem t raw = .ok v := by
  simp only [readItems_eq_ok_iff, exists_forall₂_iff]

/-! ### Scalars -/

/-- What is read is a scalar if it was not read from an array. -/
theorem isScalar_iff_of_readItem {t : ScalarType} {raw : Json} {v : Value}
    (h : readItem t raw = .ok v) : v.isScalar t = true ↔ raw.IsSingle := by
  cases raw with
  | null => cases h
  | array items =>
    obtain ⟨vs, -, rfl⟩ := readItem_array_eq_ok_iff.mp h
    exact iff_of_false (by simp [isScalar, scalarType?]) fun hsingle => hsingle.2 items rfl
  | bool | int | float | string | object =>
    exact iff_of_true (isScalar_of_readScalar h).1 (by simp [Json.IsSingle])

/-- Items that are read are scalars if none was read from an array. -/
theorem areScalars_iff_of_readItems {t : ScalarType} {raws : List Json} {vs : List Value}
    (h : readItems t raws = .ok vs) :
    (∀ v ∈ vs, v.isScalar t = true) ↔ ∀ raw ∈ raws, raw.IsSingle := by
  have hitems := readItems_eq_ok_iff.mp h
  clear h
  induction hitems with
  | nil => simp
  | cons hitem _ ih => simp only [List.forall_mem_cons, isScalar_iff_of_readItem hitem, ih]

/-- Only an array is read as a list. -/
theorem exists_array_of_readItem {t : ScalarType} {raw : Json} {vs : List Value}
    (h : readItem t raw = .ok (.list vs)) :
    ∃ raws, raw = .array raws ∧ readItems t raws = .ok vs := by
  cases raw with
  | null => cases h
  | array raws =>
    obtain ⟨ws, hws, heq⟩ := readItem_array_eq_ok_iff.mp h
    cases heq
    exact ⟨raws, rfl, hws⟩
  | bool | int | float | string | object => cases (isScalar_of_readScalar h).1

/-- Only `null` is read as no value. -/
theorem ofJson_eq_ok_none_iff {type : FieldType} {raw : Json} :
    ofJson type raw = .ok none ↔ raw = .null := by
  by_cases hnull : raw = .null
  · subst hnull
    exact iff_of_true rfl rfl
  · simp [ofJson_of_ne_null hnull, map_eq_ok_iff, hnull]

/-! ### Errors -/

/-- A scalar that cannot be read is a mismatch or a text that is no date-time. -/
theorem isReadError_of_readScalar {t : ScalarType} {raw : Json} {e : Error}
    (h : readScalar t raw = .error e) : IsReadError e := by
  have hunreadable : ∀ v? : Option Value, orUnreadable raw t v? = .error e → IsReadError e := by
    intro v? hv
    cases v? with
    | none =>
      cases hv
      exact .inl ⟨_, rfl⟩
    | some v => cases hv
  cases t with
  | string | integer | float | boolean => exact hunreadable _ h
  | dateTime =>
    cases raw with
    | string s =>
      rw [readScalar, readDateTime] at h
      split at h
      · cases h
      · cases h
        exact .inr ⟨_, rfl⟩
    | null | bool | int | float | array | object => exact hunreadable none h

mutual

/-- What cannot be read inside an array is a mismatch or a text that is no date-time. -/
theorem isReadError_of_readItem {t : ScalarType} {e : Error} : {raw : Json} →
    readItem t raw = .error e → IsReadError e
  | .null, h => by
    cases h
    exact .inl ⟨_, rfl⟩
  | .array items, h => by
    rw [readItem_array] at h
    cases hitems : readItems t items with
    | ok vs =>
      rw [hitems] at h
      cases h
    | error e' =>
      rw [hitems] at h
      cases h
      exact isReadError_of_readItems hitems
  | .bool _, h => isReadError_of_readScalar h
  | .int _, h => isReadError_of_readScalar h
  | .float _, h => isReadError_of_readScalar h
  | .string _, h => isReadError_of_readScalar h
  | .object _, h => isReadError_of_readScalar h

/-- Items that cannot be read are a mismatch or a text that is no date-time. -/
theorem isReadError_of_readItems {t : ScalarType} {e : Error} : {raws : List Json} →
    readItems t raws = .error e → IsReadError e
  | [], h => by cases h
  | raw :: rest, h => by
    rw [readItems] at h
    split at h
    · rename_i hfirst
      cases h
      exact isReadError_of_readItem hfirst
    · split at h
      · rename_i hrest
        cases h
        exact isReadError_of_readItems hrest
      · cases h

end

/-- What cannot be read is a mismatch or a text that is no date-time. -/
theorem isReadError_of_ofJson {type : FieldType} {raw : Json} {e : Error}
    (h : ofJson type raw = .error e) : IsReadError e := by
  by_cases hnull : raw = .null
  · rw [hnull] at h
    cases h
  · rw [ofJson_of_ne_null hnull] at h
    cases hitem : readItem type.element raw with
    | error e' =>
      rw [hitem] at h
      cases h
      exact isReadError_of_readItem hitem
    | ok v =>
      rw [hitem] at h
      cases h

end Value

end RecordStore
