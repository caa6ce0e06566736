import RecordStore.Proofs.Entity.Build
import RecordStore.Proofs.Mapping
import RecordStore.Proofs.Value.RoundTrip
import RecordStore.Store.Search

/-!
# `RecordStore.Proofs.Engine.Fitting`: documents fit the mapping

The mapping and the documents of a store are made apart from each other, one from the types of the
fields and the other from the values of an entity. Both are maps from the same entries, the fields
under their document names; of two fields with one document name both keep the later one. So under
each key of a document stands a value of the field whose type the mapping has under that key.

* `Engine.Fits`: a written value is of the kind that a property declares.
* `Schema.toDocument_eq`, `Schema.properties_eq`: the two maps from one.
* `Field.fits_optionToJson`: a field's value as it is written.
* `SearchStore.documents_fit_mapping`: what a store writes and what it creates the index with.
-/

set_option autoImplicit false

namespace RecordStore

namespace Engine

/-! ### Kinds of JSON values -/

/-- The JSON value is of the kind that the type of a property names, and is what the scalar is
written as. A date-time is a text from which it is read back, and only a double that is not finite
is `null`. -/
inductive FitsItem : String → Value → Json → Prop where
  | text {type : String} (htype : type = "keyword" ∨ type = "text") (s : String) :
      FitsItem type (.string s) (.string s)
  | long {n : Int64} {k : Int} (hk : n.toInt = k) (hlo : -0x8000000000000000 ≤ k)
      (hhi : k < 0x8000000000000000) : FitsItem "long" (.integer n) (.int k)
  | double {x : Binary64} (hx : x.isFinite = true) : FitsItem "double" (.float x) (.float x)
  | notFinite {x : Binary64} (hx : x.isFinite = false) : FitsItem "double" (.float x) .null
  | boolean (b : Bool) : FitsItem "boolean" (.boolean b) (.bool b)
  | dateTime {t : Calendar.DateTime} {s : String} (hread : Value.readDateTime s = .ok t) :
      FitsItem "date_nanos" (.dateTime t) (.string s)

/-- The same for the value of a field: an absent value is `null`, and a list is an array of its
items. -/
inductive Fits (type : String) : Option Value → Json → Prop where
  | absent : Fits type none .null
  | single {v : Value} {raw : Json} (h : FitsItem type v raw) : Fits type (some v) raw
  | several {vs : List Value} {raws : List Json} (h : List.Forall₂ (FitsItem type) vs raws) :
      Fits type (some (.list vs)) (.array raws)

/-- A written scalar is of the kind for its type. -/
theorem fitsItem_toJson {t : ScalarType} {v : Value} (h : v.isScalar t = true) :
    FitsItem t.exactType v v.toJson := by
  have ht : v.scalarType? = some t := beq_iff_eq.mp h
  cases v <;> cases ht
  case string s => exact .text (.inl rfl) s
  case integer n => exact .long rfl n.le_toInt n.toInt_lt
  case float x =>
    rw [Value.toJson]
    cases hx : x.isFinite with
    | true => exact .double hx
    | false => exact .notFinite hx
  case boolean b => exact .boolean b
  case dateTime t => exact .dateTime (Value.readDateTime_text t)

/-- If the scalars in a value are written as the type of a property asks for, then so is the
value. -/
theorem fits_toJson {type : FieldType} {kind : String}
    (hitem : ∀ v : Value, v.isScalar type.element = true → FitsItem kind v v.toJson) {v : Value}
    (h : v.conformsTo type = true) : Fits kind (some v) v.toJson := by
  cases hlist : type.isList with
  | false => exact .single (hitem v (Value.isScalar_of_conformsTo hlist h))
  | true =>
    cases type with
    | scalar t => cases hlist
    | list t =>
      obtain ⟨items, rfl⟩ := Value.exists_list_of_conformsTo hlist h
      -- All items are scalars, so the array has no array in it.
      have hitems : ∀ v ∈ items, v.isScalar t = true := List.all_eq_true.mp h
      rw [Value.toJson, Value.toJsonItems_eq_map]
      refine .several (List.forall₂_map_right_iff.mpr (List.forall₂_same.mpr ?_))
      intro v hv
      exact hitem v (hitems v hv)

/-- Only the value of a list field is written as an array. -/
theorem isList_of_toJson_eq_array {type : FieldType} {v : Value} (h : v.conformsTo type = true)
    {raws : List Json} (hraw : v.toJson = .array raws) : type.isList = true := by
  cases type with
  | list t => rfl
  | scalar t =>
    cases v with
    | list items => cases h
    | string | integer | boolean | dateTime => cases hraw
    | float x =>
      rw [Value.toJson] at hraw
      split at hraw <;> cases hraw

end Engine

open RecordStore.Engine

/-! ### Fields -/

namespace Field

variable {f : Field}

/-- The property of a field is for exact matches, or it is one of texts. -/
theorem ownType_eq_or (f : Field) :
    f.ownType = f.type.element.exactType ∨ f.type.element = .string ∧ f.ownType = "text" := by
  rw [ownType]
  cases hpart : f.exactPart? with
  | none => exact .inl rfl
  | some part => exact .inr ⟨(exactPart?_eq_some_iff.mp hpart).1, rfl⟩

/-- A written element of a field is of the kind that the property of the field declares. -/
theorem fitsItem_ownType {v : Value} (h : v.isScalar f.type.element = true) :
    FitsItem f.ownType v v.toJson := by
  rcases f.ownType_eq_or with htype | ⟨helement, htype⟩
  · rw [htype]
    exact fitsItem_toJson h
  · -- A text is a text whether it is indexed as a whole or word by word.
    rw [helement] at h
    rw [htype]
    have ht : v.scalarType? = some .string := beq_iff_eq.mp h
    cases v <;> cases ht
    exact .text (.inr rfl) _

/-- The value of a field is written as the property of the field declares, and as an array only if
the field is a list. -/
theorem fits_optionToJson {e : Entity} (he : e.FitsField f) :
    Fits f.ownType (e.value? f.name) (Value.optionToJson (e.value? f.name)) ∧
      ∀ raws, Value.optionToJson (e.value? f.name) = .array raws → f.type.isList = true := by
  cases hvalue : e.value? f.name with
  | none => exact ⟨.absent, nofun⟩
  | some v =>
    have hv := he v hvalue
    exact ⟨fits_toJson (fun _ => fitsItem_ownType) hv, fun _ => isList_of_toJson_eq_array hv⟩

end Field

/-! ### The two maps -/

namespace Schema

/-- The fields under their document names; of two fields with one document name the later one. -/
def owners (s : Schema) : List (String × Field) :=
  KeyMap.ofList (s.fields.map fun f => (f.documentName, f))

/-- A map from the fields under their document names is one from their owners. -/
theorem ofList_fields {α : Type} (s : Schema) (g : Field → α) :
    KeyMap.ofList (s.fields.map fun f => (f.documentName, g f)) =
      KeyMap.mapValues g s.owners := by
  rw [owners, ← KeyMap.ofList_mapValues, KeyMap.mapValues, List.map_map]
  rfl

/-- A document has the written values of the owners. -/
theorem toDocument_eq (s : Schema) (e : Entity) :
    s.toDocument e = KeyMap.mapValues (fun f => Value.optionToJson (e.value? f.name)) s.owners :=
  s.ofList_fields _

/-- A mapping has the properties of the owners. -/
theorem properties_eq (s : Schema) : s.properties = KeyMap.mapValues Field.property s.owners :=
  s.ofList_fields _

/-- An owner is a field, under its document name. -/
theorem mem_fields_of_mem_owners {s : Schema} {entry : String × Field} (h : entry ∈ s.owners) :
    entry.2 ∈ s.fields ∧ entry.2.documentName = entry.1 := by
  obtain ⟨f, hf, rfl⟩ := List.mem_map.mp (KeyMap.mem_of_mem_ofList h)
  exact ⟨hf, rfl⟩

/-- The property of a document name is that of its owner. -/
theorem propertyOf?_of_mem_owners {s : Schema} {entry : String × Field} (h : entry ∈ s.owners) :
    propertyOf? s.mapping entry.1 = some entry.2.property := by
  have hget : KeyMap.get? entry.1 s.owners = some entry.2 :=
    KeyMap.get?_of_mem (KeyMap.sorted_ofList _) h
  rw [propertyOf?_mapping, properties_eq, KeyMap.get?_mapValues, hget]
  rfl

end Schema

/-! ### The store -/

section Store

variable {m : Type → Type} [Monad m] {ε : Type}

/-- A store creates its index with the mapping of its schema, and under every key it writes an
entity as a document that fits the mapping. The keys of the document are those of the properties in
the mapping, and what stands under a key, here and there, is made of one field of that document
name: a property with a type, and the field's value as it is written for that type. -/
theorem SearchStore.documents_fit_mapping (store : SearchStore m ε) {e : Entity}
    (he : ∀ f ∈ store.schema.fields, e.FitsField f) :
    let mapping := store.schema.mapping
    let document := store.schema.toDocument e
    (store.ensureIndex = do
      let result ← store.client.createIndex store.index mapping
      pure (SearchStore.answer result .ok)) ∧
    (∀ key, store.put key e = do
      let result ← store.client.put store.index key (.object document)
      pure (SearchStore.answer result .ok)) ∧
    (∃ properties, KeyMap.keys document = KeyMap.keys properties ∧
      (mapping.member? "mappings").bind (Json.member? "properties") =
        some (.object properties)) ∧
    ∀ key raw, (key, raw) ∈ document → ∃ f ∈ store.schema.fields, f.documentName = key ∧
      ∃ property type, propertyOf? mapping key = some property ∧
        property.member? "type" = some (.string type) ∧ Fits type (e.value? f.name) raw ∧
        ∀ raws, raw = .array raws → f.type.isList = true := by
  intro mapping document
  refine ⟨rfl, fun _ => rfl, ⟨store.schema.properties, ?_, ?_⟩, ?_⟩
  · show KeyMap.keys (store.schema.toDocument e) = _
    rw [Schema.toDocument_eq, Schema.properties_eq, KeyMap.keys_mapValues, KeyMap.keys_mapValues]
  · show (store.schema.mapping.member? "mappings").bind _ = _
    rw [Schema.mapping, Json.member?_single, Option.bind_some, Json.member?_single]
  · intro key raw hentry
    change (key, raw) ∈ store.schema.toDocument e at hentry
    rw [Schema.toDocument_eq] at hentry
    -- The entry is made of an owner, which the property of the same key is made of too.
    obtain ⟨⟨owned, f⟩, howner, hpair⟩ := List.mem_map.mp hentry
    cases hpair
    obtain ⟨hf, hname⟩ := Schema.mem_fields_of_mem_owners howner
    obtain ⟨hfits, hlist⟩ := Field.fits_optionToJson (he f hf)
    exact ⟨f, hf, hname, f.property, f.ownType, Schema.propertyOf?_of_mem_owners howner,
      f.member?_type_property, hfits, hlist⟩

/-- A text and a date-time with one document name, the date-time a leap second: what is written is
of the kind that the mapping declares under the name. -/
theorem SearchStore.documents_fit_mapping_shared_name :
    let client : SearchClient Id Unit :=
      ⟨fun _ _ => pure (.ok none), fun _ _ _ => pure (.ok ()), fun _ _ => pure (.ok true),
        fun _ _ => pure (.ok .null), fun _ _ => pure (.ok ()), fun _ => pure (.ok ())⟩
    let label : Field := ⟨"label", .scalar .string, some "taken", none⟩
    let taken : Field := ⟨"taken", .scalar .dateTime, none, none⟩
    let leap : Calendar.DateTime := ⟨⟨2016, 12, 31, by decide⟩, 86399, 1500000000, by decide⟩
    let store : SearchStore Id Unit :=
      ⟨client, ⟨"Event", [⟨label, .scalar .string, false⟩, ⟨taken, .scalar .dateTime, false⟩]⟩,
        "events"⟩
    let record := (Entity.empty.put "label" (.string "new year")).put "taken" (.dateTime leap)
    (∀ f ∈ store.schema.fields, record.FitsField f) ∧
    ∃ f ∈ store.schema.fields, f.documentName = "taken" ∧
      ∃ property type, propertyOf? store.schema.mapping "taken" = some property ∧
        property.member? "type" = some (.string type) ∧
        Fits type (record.value? f.name) (.string leap.text) := by
  intro client label taken leap store record
  have hfits : ∀ f ∈ store.schema.fields, record.FitsField f := by decide
  obtain ⟨-, -, -, hdocument⟩ := SearchStore.documents_fit_mapping store hfits
  have hentry : ("taken", Json.string leap.text) ∈ store.schema.toDocument record := by
    have hdocument : store.schema.toDocument record = [("taken", .string leap.text)] := rfl
    rw [hdocument]
    exact List.mem_singleton_self _
  obtain ⟨f, hf, hname, property, type, hproperty, htype, hraw, -⟩ :=
    hdocument "taken" _ hentry
  exact ⟨hfits, f, hf, hname, property, type, hproperty, htype, hraw⟩

end Store

end RecordStore
