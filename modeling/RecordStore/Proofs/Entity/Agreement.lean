import RecordStore.Proofs.Entity.Build
import RecordStore.Proofs.Value.Coercion

/-!
# `RecordStore.Proofs.Entity.Agreement`: one entity from either outer form

Generic data may hold a value of any kind under any name. Its document holds the written form of
what each field has, under the field's document name. The two are accepted alike and make the
same entity. For a single field they need not agree: a lone scalar is refused for a list field by
coercion, while its written form is read and refused only when a column takes it. So the two
readers are compared on values that conform, which are the only ones an entity can have.

* `Schema.documentOf`: the document of generic data.
* `readGeneric_eq_ok_iff`: for a single field and a value that conforms.
* `ofGeneric_eq_ok_iff_of_agrees`: for every document that holds the written forms.
* `ofGeneric_eq_ok_iff_ofDocument`: for the document of the data.
-/

set_option autoImplicit false

namespace RecordStore.Schema

variable {s : Schema} {data : List (String × Option Value)}

/-- All doubles in generic data are finite. -/
def isFiniteData (data : List (String × Option Value)) : Bool :=
  data.all fun entry => entry.2.all Value.isFinite

/-- The document of generic data: under each document name the written form of what the field has
in the data, `null` for nothing. -/
def documentOf (s : Schema) (data : List (String × Option Value)) : List (String × Json) :=
  KeyMap.ofList
    (s.fields.map fun f => (f.documentName, Value.optionToJson (KeyMap.get? f.name data).join))

/-- The document holds under each document name the written form of what the field has. -/
theorem get?_documentOf (hnames : (s.fields.map Field.documentName).Nodup)
    (data : List (String × Option Value)) {f : Field} (hf : f ∈ s.fields) :
    KeyMap.get? f.documentName (s.documentOf data) =
      some (Value.optionToJson (KeyMap.get? f.name data).join) := by
  refine KeyMap.get?_ofList_of_mem ?_ (List.mem_map.mpr ⟨f, hf, rfl⟩)
  rw [List.map_map]
  exact hnames

/-- A field gets a value that conforms, or none, from generic data if it gets it from the written
form of what it has there. -/
theorem readGeneric_eq_ok_iff {f : Field}
    (hfin : ∀ v, (KeyMap.get? f.name data).join = some v → v.isFinite = true)
    {w? : Option Value} (hconforms : ∀ w, w? = some w → w.conformsTo f.type = true) :
    readGeneric data f = .ok w? ↔
      Value.ofJson f.type (Value.optionToJson (KeyMap.get? f.name data).join) = .ok w? := by
  rw [readGeneric]
  cases hv : (KeyMap.get? f.name data).join with
  | none => rfl
  | some v =>
    have hvfin := hfin v hv
    show (Value.coerce f.type v).map some = .ok w? ↔ Value.ofJson f.type v.toJson = .ok w?
    rw [map_eq_ok_iff]
    constructor
    · rintro ⟨w, hw, rfl⟩
      exact ((Value.coerce_eq_ok_iff hvfin).mp hw).1
    · intro hread
      obtain ⟨w, -, rfl⟩ := (Value.ofJson_toJson_eq_ok_iff hvfin).mp hread
      exact ⟨w, (Value.coerce_eq_ok_iff hvfin).mpr ⟨hread, hconforms w rfl⟩, rfl⟩

/-- An entity is made of generic data if it is made of a document that holds the written forms of
what the fields have in the data, whatever else the document holds. -/
theorem ofGeneric_eq_ok_iff_of_agrees (hs : s.IsRegular) (hfin : isFiniteData data = true)
    {document : List (String × Json)}
    (hagrees : ∀ f ∈ s.fields, (KeyMap.get? f.documentName document).getD .null =
      Value.optionToJson (KeyMap.get? f.name data).join) {e : Entity} :
    s.ofGeneric data = .ok e ↔ s.ofDocument document = .ok e := by
  rw [ofGeneric, ofDocument, build_eq_ok_iff hs, build_eq_ok_iff hs]
  refine and_congr_right fun he => forall₂_congr fun f hf => ?_
  have hfinite : ∀ v, (KeyMap.get? f.name data).join = some v → v.isFinite = true := by
    intro v hv
    exact List.all_eq_true.mp hfin _ (KeyMap.mem_of_get? (Option.join_eq_some_iff.mp hv))
  rw [readGeneric_eq_ok_iff hfinite fun w hw => conformsTo_of_isOf he hf hw, readDocument,
    hagrees f hf]

/-- Generic data and its document are accepted alike, and the same entity is made of them. -/
theorem ofGeneric_eq_ok_iff_ofDocument (hs : s.IsRegular) (hfin : isFiniteData data = true)
    (e : Entity) :
    s.ofGeneric data = .ok e ↔ s.ofDocument (s.documentOf data) = .ok e := by
  refine ofGeneric_eq_ok_iff_of_agrees hs hfin fun f hf => ?_
  rw [get?_documentOf hs.documentNames data hf, Option.getD_some]

set_option maxRecDepth 10000 in
/-- A record whose values are of other kinds than its fields, with an undeclared name and an
explicit absence; and one that has a lone value where a list should be. -/
theorem ofGeneric_eq_ok_iff_ofDocument_weather :
    let data : List (String × Option Value) := [("extra", some (.list [.list []])),
      ("celsius", none), ("gusts", some (.list [.float (.zero true), .string "0"])),
      ("station", some (.boolean true))]
    let lone : List (String × Option Value) := [("gusts", some (.float (.zero true))),
      ("station", some (.string "Oslo"))]
    let record := (Entity.empty.put "station" (.string "true")).put "gusts"
      (.list [.float (.zero true), .float (.zero false)])
    weather.ofDocument (weather.documentOf data) = .ok record ∧
    ¬∃ e, weather.ofDocument (weather.documentOf lone) = .ok e := by
  intro data lone record
  refine ⟨(ofGeneric_eq_ok_iff_ofDocument (s := weather) (by decide) (by decide) record).mp rfl, ?_⟩
  rintro ⟨e, he⟩
  have hgeneric := (ofGeneric_eq_ok_iff_ofDocument (s := weather) (by decide) (by decide) e).mpr he
  cases hgeneric

end RecordStore.Schema
