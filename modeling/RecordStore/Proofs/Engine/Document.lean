import RecordStore.Filter.Evaluation
import RecordStore.Proofs.Binary64.Value
import RecordStore.Proofs.Calendar.TextOrder
import RecordStore.Proofs.Engine.Query
import RecordStore.Proofs.Entity.RoundTrip

/-!
# `RecordStore.Proofs.Engine.Document`: documents of entities under queries

What a query sees of an entity. The values that a document name or a keyword name stands for are
the written elements of the field, and written values are equal, and ordered, as the values are.
Of date-times this is true only while years have four digits; the text of any other year has a
sign, and its length is no longer that of the rest.

* `resolve_documentName`, `resolve_keywordName`: the values under the two names of a field.
* `same_toJson`: written values are equal as the values are.
* `order?_toJson`: written values are ordered as the values are.
-/

set_option autoImplicit false

namespace RecordStore

namespace Engine

/-! ### Written values -/

/-- A written scalar is equal to another, finite or not, if the scalars are. -/
theorem same_toJson {t : ScalarType} {v w : Value} (hv : v.isScalar t = true)
    (hw : w.isScalar t = true) (hfin : v.isFinite = true) :
    same v.toJson w.toJson = v.same w := by
  have htv : v.scalarType? = some t := beq_iff_eq.mp hv
  have htw : w.scalarType? = some t := beq_iff_eq.mp hw
  cases v <;> cases htv <;> cases w <;> cases htw
  case string.refl.string.refl a b => rfl
  case boolean.refl.boolean.refl a b => rfl
  case integer.refl.integer.refl a b =>
    show (a.toInt == b.toInt) = (a == b)
    rw [Bool.eq_iff_iff, beq_iff_eq, beq_iff_eq, Int64.toInt_inj]
  case dateTime.refl.dateTime.refl a b =>
    show (a.text == b.text) = (a == b)
    rw [Bool.eq_iff_iff, beq_iff_eq, beq_iff_eq, Calendar.DateTime.text_inj]
  case float.refl.float.refl a b =>
    have ha : a.isFinite = true := hfin
    rw [Value.toJson, if_pos ha, Value.toJson, Value.same]
    -- The second may have been written as `null`, which no finite number is equal to.
    cases hb : b.isFinite with
    | true => rfl
    | false =>
      rw [Binary64.sameValue_of_isFinite ha hb]
      rfl

/-- The order is that of two other things that are smaller and equal alike. -/
theorem compareOfLessAndEq_congr {α β : Type} [LT α] [DecidableLT α] [DecidableEq α] [LT β]
    [DecidableLT β] [DecidableEq β] {a b : α} {c d : β} (hlt : a < b ↔ c < d)
    (heq : a = b ↔ c = d) : compareOfLessAndEq a b = compareOfLessAndEq c d := by
  simp only [compareOfLessAndEq, hlt, heq]

end Engine

namespace Value

/-- A date-time in the value has a year of four digits. -/
def hasPlainYear : Value → Bool
  | .dateTime t => decide t.HasPlainYear
  | _ => true

/-- The value can be a bound in a query: it is not infinite, and as a date-time it has a year of
four digits. -/
def isExpressible : Value → Bool
  | .float x => x.isFinite || x.isNaN
  | v => v.hasPlainYear

end Value

namespace Engine

/-- A written scalar is on the same side of a written bound as the scalar is of the bound. -/
theorem order?_toJson {t : ScalarType} {v bound : Value} (ht : t.isOrdered = true)
    (hv : v.isScalar t = true) (hbound : bound.isScalar t = true) (hfin : v.isFinite = true)
    (hyear : v.hasPlainYear = true) (hexpressible : bound.isExpressible = true) :
    order? v.toJson bound.toJson = v.order? bound := by
  have htv : v.scalarType? = some t := beq_iff_eq.mp hv
  have htb : bound.scalarType? = some t := beq_iff_eq.mp hbound
  cases v <;> cases htv <;> cases bound <;> cases htb
  case string.refl.string.refl a b => cases ht
  case boolean.refl.boolean.refl a b => cases ht
  case integer.refl.integer.refl a b =>
    have hpos : (0 : Int) < Binary64.unitsPerOne := by
      exact_mod_cast Binary64.unitsPerOne_pos
    -- Whole numbers are compared as multiples of the smallest magnitude.
    show some (compareOfLessAndEq _ _) = some (compareOfLessAndEq _ _)
    rw [compareOfLessAndEq_congr (Int.mul_lt_mul_right hpos)
      (Int.mul_eq_mul_right_iff (Int.ne_of_gt hpos))]
  case dateTime.refl.dateTime.refl a b =>
    have ha : a.HasPlainYear := of_decide_eq_true hyear
    have hb : b.HasPlainYear := of_decide_eq_true hexpressible
    have heq : a.text = b.text ↔ a.instant = b.instant := by
      rw [Calendar.DateTime.text_inj]
      exact ⟨congrArg _, Calendar.DateTime.instant_injective⟩
    -- Date-times are compared as texts.
    show some (compareOfLessAndEq _ _) = some (compareOfLessAndEq _ _)
    rw [compareOfLessAndEq_congr (Calendar.DateTime.text_lt_iff ha hb) heq]
  case float.refl.float.refl a b =>
    have ha : a.isFinite = true := hfin
    have hnum := Binary64.isNaN_of_isFinite ha
    rw [Value.toJson, if_pos ha, Value.toJson, Value.order?, Binary64.order?, hnum,
      Bool.false_or]
    cases hb : b.isFinite with
    | true =>
      have hnum' := Binary64.isNaN_of_isFinite hb
      simp [order?, units?, hnum, hnum']
    | false =>
      -- What can be a bound and is not finite is no number.
      have hnan : b.isNaN = true := by
        simpa [Value.isExpressible, hb] using hexpressible
      simp [order?, units?, hnan]

/-- A written scalar keeps a written bound in a query if the scalar keeps the bound in memory. -/
theorem isWithin_toJson {t : ScalarType} {v bound : Value} (ht : t.isOrdered = true)
    (hv : v.isScalar t = true) (hbound : bound.isScalar t = true) (hfin : v.isFinite = true)
    (hyear : v.hasPlainYear = true) (hexpressible : bound.isExpressible = true) (side : Side) :
    isWithin v.toJson side.word bound.toJson = Filter.isBeyond side bound v := by
  have horder := order?_toJson ht hv hbound hfin hyear hexpressible
  cases side with
  | above =>
    show (order? v.toJson bound.toJson == some .gt) = (v.order? bound == some .gt)
    rw [horder]
  | below =>
    show (order? v.toJson bound.toJson == some .lt) = (v.order? bound == some .lt)
    rw [horder]

/-- What is written of a finite scalar is present. -/
theorem isPresent_toJson {v : Value} (h : v.isFinite = true) : isPresent v.toJson = true := by
  have hne := Value.toJson_ne_null h
  cases hraw : v.toJson with
  | null => exact absurd hraw hne
  | bool | int | float | string | array | object => rfl

end Engine

/-! ### Elements of fields -/

namespace Schema

variable {s : Schema} {e : Entity}

/-- Each element of a field is a scalar of its type. -/
theorem isScalar_of_mem_elements (he : e.IsOf s) {f : Field} (hf : f ∈ s.fields) {v : Value}
    (hv : v ∈ e.elements f) : v.isScalar f.type.element = true := by
  rw [Entity.elements] at hv
  cases hvalue : e.value? f.name with
  | none =>
    rw [hvalue] at hv
    cases hv
  | some w =>
    rw [hvalue] at hv
    have hconforms := conformsTo_of_isOf he hf hvalue
    cases htype : f.type with
    | scalar t =>
      rw [htype] at hconforms
      cases w with
      | list items => cases hconforms
      | string | integer | float | boolean | dateTime =>
        rw [List.mem_singleton.mp hv]
        exact hconforms
    | list t =>
      rw [htype] at hconforms
      cases w with
      | list items => exact List.all_eq_true.mp hconforms v hv
      | string | integer | float | boolean | dateTime => cases hconforms

/-- Each element of a field of a finite entity is finite. -/
theorem isFinite_of_mem_elements (hfin : e.isFinite = true) {f : Field} {v : Value}
    (hv : v ∈ e.elements f) : v.isFinite = true := by
  rw [Entity.elements] at hv
  cases hvalue : e.value? f.name with
  | none =>
    rw [hvalue] at hv
    cases hv
  | some w =>
    rw [hvalue] at hv
    have hw := Entity.isFinite_iff.mp hfin f.name w hvalue
    cases w with
    | list items =>
      rw [Value.isFinite, Value.areFinite_eq_all, List.all_eq_true] at hw
      exact hw v hv
    | string | integer | float | boolean | dateTime =>
      rw [List.mem_singleton.mp hv]
      exact hw

end Schema

/-! ### The names of fields -/

/-- What is asked of a schema for its names to be found in documents:

- `documentNames`: no two fields have one document name;
- `keywordNames`: a keyword name is the document name, or the document name and `.keyword`;
- `separate`: a keyword name is not the document name of another field. -/
structure Schema.IsIndexable (s : Schema) : Prop where
  documentNames : (s.fields.map Field.documentName).Nodup
  keywordNames : ∀ f ∈ s.fields,
    f.keywordName = f.documentName ∨ f.keywordName = f.documentName ++ ".keyword"
  separate : ∀ f ∈ s.fields, ∀ g ∈ s.fields, g ≠ f → f.keywordName ≠ g.documentName

instance (s : Schema) : Decidable s.IsIndexable :=
  decidable_of_iff ((s.fields.map Field.documentName).Nodup ∧
    (∀ f ∈ s.fields,
      f.keywordName = f.documentName ∨ f.keywordName = f.documentName ++ ".keyword") ∧
    ∀ f ∈ s.fields, ∀ g ∈ s.fields, g ≠ f → f.keywordName ≠ g.documentName)
    ⟨fun h => ⟨h.1, h.2.1, h.2.2⟩, fun h => ⟨h.documentNames, h.keywordNames, h.separate⟩⟩

namespace Engine

variable {s : Schema} {e : Entity}

/-- The name before `.keyword`. -/
theorem stem?_append (base : String) : stem? (base ++ ".keyword") = some base := by
  have hsuffix : ".keyword".toList.isSuffixOf (base ++ ".keyword").toList = true := by
    rw [List.isSuffixOf_iff_suffix, String.toList_append]
    exact List.suffix_append _ _
  rw [stem?]
  simp only [hsuffix, if_true]
  rw [String.toList_append, List.length_append, Nat.add_sub_cancel, List.take_left,
    String.ofList_toList]

/-- A name is not that name and `.keyword`. -/
theorem append_keyword_ne (base : String) : base ++ ".keyword" ≠ base := by
  intro h
  have hlength := congrArg String.length h
  rw [String.length_append] at hlength
  have hkeyword : ".keyword".length = 8 := rfl
  omega

/-- The written value of a field holds the written elements. -/
theorem valuesOf_optionToJson (hfin : e.isFinite = true) (he : e.IsOf s) {f : Field}
    (hf : f ∈ s.fields) :
    valuesOf (some (Value.optionToJson (e.value? f.name))) = (e.elements f).map Value.toJson := by
  have hpresent : ∀ v ∈ e.elements f, isPresent v.toJson = true := fun v hv =>
    isPresent_toJson (Schema.isFinite_of_mem_elements hfin hv)
  have hscalar : ∀ v ∈ e.elements f, ∀ items, v.toJson ≠ .array items := fun v hv =>
    Value.toJson_ne_array (Schema.isScalar_of_mem_elements he hf hv)
  rw [Entity.elements] at hpresent hscalar ⊢
  cases hvalue : e.value? f.name with
  | none => rfl
  | some v =>
    rw [hvalue] at hpresent hscalar
    have hsingle : isPresent v.toJson = true → (∀ items, v.toJson ≠ .array items) →
        valuesOf (some v.toJson) = [v.toJson] := by
      intro hnull harray
      cases hraw : v.toJson with
      | null =>
        rw [hraw] at hnull
        cases hnull
      | array items => exact absurd hraw (harray items)
      | bool | int | float | string | object => rfl
    cases v with
    | list items =>
      -- No item is `null`, so none is dropped.
      show (Value.toJsonItems items).filter isPresent = items.map Value.toJson
      rw [Value.toJsonItems_eq_map, List.filter_eq_self]
      intro raw hraw
      obtain ⟨v, hv, rfl⟩ := List.mem_map.mp hraw
      exact hpresent v hv
    | string | integer | float | boolean | dateTime =>
      exact hsingle (hpresent _ (.head _)) (hscalar _ (.head _))

/-- The document name of a field stands for the written elements of the field. -/
theorem resolve_documentName (hs : s.IsIndexable) (he : e.IsOf s) (hfin : e.isFinite = true)
    {f : Field} (hf : f ∈ s.fields) :
    resolve (s.toDocument e) f.documentName = (e.elements f).map Value.toJson := by
  rw [resolve, Schema.get?_toDocument hs.documentNames e hf, Option.some_or]
  exact valuesOf_optionToJson hfin he hf

/-- The keyword name of a field stands for the written elements of the field. -/
theorem resolve_keywordName (hs : s.IsIndexable) (he : e.IsOf s) (hfin : e.isFinite = true)
    {f : Field} (hf : f ∈ s.fields) :
    resolve (s.toDocument e) f.keywordName = (e.elements f).map Value.toJson := by
  rcases hs.keywordNames f hf with hname | hname
  · rw [hname]
    exact resolve_documentName hs he hfin hf
  · -- No field is stored under the keyword name, so the name before `.keyword` is looked up.
    have hnone : KeyMap.get? f.keywordName (s.toDocument e) = none := by
      refine Schema.get?_toDocument_of_ne (fun g hg heq => ?_) e
      by_cases hgf : g = f
      · rw [hgf, hname] at heq
        exact append_keyword_ne _ heq.symm
      · exact hs.separate f hf g hg hgf heq.symm
    rw [resolve, hnone, Option.none_or, hname, stem?_append, Option.bind_some,
      Schema.get?_toDocument hs.documentNames e hf]
    exact valuesOf_optionToJson hfin he hf

end Engine

end RecordStore
