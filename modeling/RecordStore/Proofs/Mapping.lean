import Mathlib.Data.List.Nodup
import RecordStore.Mapping
import RecordStore.Proofs.Engine.Clause
import RecordStore.Proofs.Filter.Query

/-!
# `RecordStore.Proofs.Mapping`: the mapping knows the names that queries use

The names in a query and the names in a mapping are made apart from each other. A name is found
in a mapping as the name of a property, or as that of a property, a point and the name of one of
its parts. This module shows that they meet: a document name is always the name of a property,
and a keyword name is found with the type for exact matches if the field is one of texts or has
no keyword alias. Of other fields the mapping does not look at the alias, so what a query asks
for under it is not indexed.

* `Engine.IndexedAs`: how what is stored under a name is indexed.
* `indexedAs_documentName_iff`, `indexedAs_keywordName_iff`: the two names of a field.
* `exists_covers_of_clause?`: the name in the clause of one condition.
* `covers_of_mem_clauses`: all names in the query of a filter, each as a name of the field that is
  asked about.
* `keywordAlias_of_number_not_indexed`: the alias of a number is not found.
-/

set_option autoImplicit false

namespace RecordStore

open RecordStore.Json (single)

/-! ### Names in a mapping -/

namespace Engine

/-- The property of a name in a mapping. -/
def propertyOf? (mapping : Json) (name : String) : Option Json :=
  ((mapping.member? "mappings").bind (Json.member? "properties")).bind (Json.member? name)

/-- A part of the property of a name in a mapping. -/
def partOf? (mapping : Json) (name part : String) : Option Json :=
  ((propertyOf? mapping name).bind (Json.member? "fields")).bind (Json.member? part)

/-- The mapping indexes what is stored under a name as of a type:

- `property`: the name is that of a property of the type;
- `part`: the name is that of a property, a point and that of a part of the type. -/
inductive IndexedAs (mapping : Json) : String → String → Prop where
  | property {name type : String} {property : Json}
      (found : propertyOf? mapping name = some property)
      (typed : property.member? "type" = some (.string type)) : IndexedAs mapping name type
  | part {name part type : String} {property : Json}
      (found : partOf? mapping name part = some property)
      (typed : property.member? "type" = some (.string type)) :
      IndexedAs mapping (name ++ "." ++ part) type

end Engine

/-- The type of a property whose values are matched exactly. -/
def ScalarType.exactType : ScalarType → String
  | .string => "keyword"
  | .integer => "long"
  | .float => "double"
  | .boolean => "boolean"
  | .dateTime => "date_nanos"

/-- What is asked of the names of a schema for its mapping to tell them apart:

- `documentNames`: no two fields have one document name;
- `parts`: a keyword alias is the document name, a point and something more;
- `separate`: a keyword alias is not the document name of a field. -/
structure Schema.HasPartNames (s : Schema) : Prop where
  documentNames : (s.fields.map Field.documentName).Nodup
  parts : ∀ f ∈ s.fields, ∀ name ∈ f.keywordAlias,
    ∃ part, part ≠ "" ∧ name = f.documentName ++ "." ++ part
  separate : ∀ f ∈ s.fields, ∀ name ∈ f.keywordAlias, ∀ g ∈ s.fields, name ≠ g.documentName

namespace Field

/-- The keyword alias has a part if it is the document name, a point and that part. -/
theorem keywordPart?_eq_some_iff {f : Field} {part : String} :
    f.keywordPart? = some part ↔
      part ≠ "" ∧ f.keywordAlias = some (f.documentName ++ "." ++ part) := by
  rw [keywordPart?]
  cases f.keywordAlias with
  | none => simp
  | some name =>
    simp only [Option.some.injEq, Option.ite_none_right_eq_some, Bool.and_eq_true,
      List.isPrefixOf_iff_prefix, Bool.not_eq_true', List.isEmpty_eq_false_iff]
    constructor
    · rintro ⟨⟨⟨rest, hname⟩, hrest⟩, rfl⟩
      rw [← hname, List.drop_left] at hrest ⊢
      refine ⟨fun h => hrest (by simpa using h), ?_⟩
      rw [← String.toList_inj, String.toList_append (t := String.ofList rest), String.toList_ofList]
      exact hname.symm
    · rintro ⟨hpart, rfl⟩
      rw [String.toList_append (t := part), List.drop_left, String.ofList_toList]
      exact ⟨⟨List.prefix_append _ _, fun h => hpart (by simpa using h)⟩, rfl⟩

/-- The part of the property that holds the exact form of the values; only texts have one. -/
def exactPart? (f : Field) : Option String :=
  if f.type.element = .string then f.keywordPart? else none

/-- The property of a text with an exact form in a part. -/
def partedProperty (part : String) : Json :=
  .ofMembers [("type", .string "text"), ("fields", single part (exactProperty "keyword"))]

/-- The property of a field is one for exact matches, or has a part that is. -/
theorem property_eq (f : Field) :
    f.property =
      (f.exactPart?.map partedProperty).getD (exactProperty f.type.element.exactType) := by
  rw [property, exactPart?]
  cases f.type.element with
  | string => cases f.keywordPart? <;> rfl
  | integer | float | boolean | dateTime => rfl

/-- The type of the property: texts with an exact form in a part are indexed word by word. -/
def ownType (f : Field) : String :=
  if f.exactPart?.isSome then "text" else f.type.element.exactType

/-- The property of a field has the type of the field. -/
theorem member?_type_property (f : Field) :
    f.property.member? "type" = some (.string f.ownType) := by
  rw [property_eq, ownType]
  cases f.exactPart? with
  | none => exact Json.member?_single "type" _
  | some part => exact Json.member?_ofMembers (by simp) (.head _)

/-- The part of the property is for exact matches, and there is no other. -/
theorem member?_fields_property {f : Field} {part : String} {q : Json} :
    (f.property.member? "fields").bind (Json.member? part) = some q ↔
      f.exactPart? = some part ∧ exactProperty "keyword" = q := by
  rw [property_eq]
  cases f.exactPart? with
  | none =>
    rw [Option.map_none, Option.getD_none, exactProperty, Json.member?_single_of_ne (by decide)]
    simp
  | some exact =>
    have hfields : (partedProperty exact).member? "fields" =
        some (single exact (exactProperty "keyword")) :=
      Json.member?_ofMembers (by simp) (.tail _ (.head _))
    rw [Option.map_some, Option.getD_some, hfields, Option.bind_some, Option.some.injEq]
    by_cases hpart : part = exact
    · rw [hpart, Json.member?_single]
      simp
    · rw [Json.member?_single_of_ne hpart]
      simp [Ne.symm hpart]

/-- A keyword alias that is made as it should be has its part in the property of a text. -/
theorem exactPart?_eq_some_iff {f : Field} {part : String} :
    f.exactPart? = some part ↔ f.type.element = .string ∧ part ≠ "" ∧
      f.keywordAlias = some (f.documentName ++ "." ++ part) := by
  rw [exactPart?, Option.ite_none_right_eq_some, keywordPart?_eq_some_iff]

/-- A field without a keyword alias has a property for exact matches. -/
theorem ownType_of_keywordAlias {f : Field} (h : f.keywordAlias = none) :
    f.ownType = f.type.element.exactType := by
  have hpart : f.exactPart? = none := by
    rw [Option.eq_none_iff_forall_ne_some]
    intro part hpart
    rw [exactPart?_eq_some_iff, h] at hpart
    cases hpart.2.2
  rw [ownType, hpart]
  rfl

end Field

/-- Whether the keyword alias of a field is made as it should be can be read off it. -/
theorem Schema.hasPartNames_iff {s : Schema} :
    s.HasPartNames ↔ (s.fields.map Field.documentName).Nodup ∧
      (∀ f ∈ s.fields, f.keywordAlias.isSome → f.keywordPart?.isSome) ∧
      ∀ f ∈ s.fields, ∀ name ∈ f.keywordAlias, ∀ g ∈ s.fields, name ≠ g.documentName := by
  have hparts : ∀ f : Field, (∀ name ∈ f.keywordAlias,
      ∃ part, part ≠ "" ∧ name = f.documentName ++ "." ++ part) ↔
      (f.keywordAlias.isSome → f.keywordPart?.isSome) := by
    intro f
    simp only [Option.isSome_iff_exists, Field.keywordPart?_eq_some_iff]
    constructor
    · rintro h ⟨name, halias⟩
      obtain ⟨part, hpart, rfl⟩ := h name halias
      exact ⟨part, hpart, halias⟩
    · intro h name halias
      obtain ⟨part, hpart, hname⟩ := h ⟨name, halias⟩
      exact ⟨part, hpart, Option.some.inj (halias.symm.trans hname)⟩
  simp only [← hparts]
  exact ⟨fun h => ⟨h.documentNames, h.parts, h.separate⟩, fun h => ⟨h.1, h.2.1, h.2.2⟩⟩

instance (s : Schema) : Decidable s.HasPartNames :=
  decidable_of_iff _ Schema.hasPartNames_iff.symm

namespace Schema

open RecordStore.Engine

variable {s : Schema}

/-! ### What a mapping knows -/

/-- The properties of the mapping of a schema are those of its document names. -/
theorem propertyOf?_mapping (s : Schema) (name : String) :
    propertyOf? s.mapping name = KeyMap.get? name s.properties := by
  rw [propertyOf?, mapping, Json.member?_single, Option.bind_some, Json.member?_single]
  rfl

/-- Under the document name of a field stands the property of the field. -/
theorem propertyOf?_documentName (hnames : (s.fields.map Field.documentName).Nodup) {f : Field}
    (hf : f ∈ s.fields) : propertyOf? s.mapping f.documentName = some f.property := by
  rw [propertyOf?_mapping]
  refine KeyMap.get?_ofList_of_mem ?_ (List.mem_map.mpr ⟨f, hf, rfl⟩)
  rw [List.map_map]
  exact hnames

/-- Every property is that of a field. -/
theorem exists_field_of_propertyOf? {name : String} {property : Json}
    (h : propertyOf? s.mapping name = some property) :
    ∃ f ∈ s.fields, f.documentName = name ∧ f.property = property := by
  rw [propertyOf?_mapping] at h
  have hmem := KeyMap.mem_of_mem_ofList (KeyMap.mem_of_get? h)
  obtain ⟨f, hf, heq⟩ := List.mem_map.mp hmem
  cases heq
  exact ⟨f, hf, rfl, rfl⟩

/-- Every part of a property is the exact form of a text. -/
theorem partOf?_mapping_iff (hnames : (s.fields.map Field.documentName).Nodup)
    {name part : String} {property : Json} :
    partOf? s.mapping name part = some property ↔
      ∃ f ∈ s.fields, f.documentName = name ∧ f.exactPart? = some part ∧
        exactProperty "keyword" = property := by
  constructor
  · intro h
    obtain ⟨fields, hfields, hpart⟩ := Option.bind_eq_some_iff.mp h
    obtain ⟨whole, hwhole, hfields⟩ := Option.bind_eq_some_iff.mp hfields
    obtain ⟨f, hf, rfl, rfl⟩ := exists_field_of_propertyOf? hwhole
    have hexact := Option.bind_eq_some_iff.mpr ⟨_, hfields, hpart⟩
    exact ⟨f, hf, rfl, Field.member?_fields_property.mp hexact⟩
  · rintro ⟨f, hf, rfl, hexact⟩
    rw [partOf?, propertyOf?_documentName hnames hf, Option.bind_some]
    exact Field.member?_fields_property.mpr hexact

/-- A name is indexed as the document name of a field, or as the exact form of a text. -/
theorem indexedAs_mapping_iff (hnames : (s.fields.map Field.documentName).Nodup)
    {name type : String} :
    IndexedAs s.mapping name type ↔
      (∃ f ∈ s.fields, f.documentName = name ∧ f.ownType = type) ∨
      ∃ f ∈ s.fields, ∃ part, f.exactPart? = some part ∧
        f.documentName ++ "." ++ part = name ∧ "keyword" = type := by
  constructor
  · intro h
    cases h with
    | property found typed =>
      obtain ⟨f, hf, rfl, rfl⟩ := exists_field_of_propertyOf? found
      rw [Field.member?_type_property] at typed
      cases typed
      exact .inl ⟨f, hf, rfl, rfl⟩
    | part found typed =>
      obtain ⟨f, hf, rfl, hpart, rfl⟩ := (partOf?_mapping_iff hnames).mp found
      rw [exactProperty, Json.member?_single] at typed
      cases typed
      exact .inr ⟨f, hf, _, hpart, rfl, rfl⟩
  · rintro (⟨f, hf, rfl, rfl⟩ | ⟨f, hf, part, hpart, rfl, rfl⟩)
    · exact .property (propertyOf?_documentName hnames hf) f.member?_type_property
    · exact .part ((partOf?_mapping_iff hnames).mpr ⟨f, hf, rfl, hpart, rfl⟩)
        (Json.member?_single "type" _)

/-! ### The names of fields -/

/-- No document name is the exact form of a text. -/
theorem documentName_ne_part (hs : s.HasPartNames) {f g : Field} (hf : f ∈ s.fields)
    (hg : g ∈ s.fields) {part : String} (hpart : g.exactPart? = some part) :
    g.documentName ++ "." ++ part ≠ f.documentName :=
  hs.separate g hg _ (Field.exactPart?_eq_some_iff.mp hpart).2.2 f hf

/-- A document name is indexed as the field is. -/
theorem indexedAs_documentName_iff (hs : s.HasPartNames) {f : Field} (hf : f ∈ s.fields)
    {type : String} : IndexedAs s.mapping f.documentName type ↔ f.ownType = type := by
  rw [indexedAs_mapping_iff hs.documentNames]
  constructor
  · rintro (⟨g, hg, hname, htype⟩ | ⟨g, hg, part, hpart, hname, -⟩)
    · rwa [← List.inj_on_of_nodup_map hs.documentNames hg hf hname]
    · exact absurd hname (documentName_ne_part hs hf hg hpart)
  · exact fun h => .inl ⟨f, hf, rfl, h⟩

/-- Under a keyword alias only the exact forms of texts are found. -/
theorem indexedAs_keywordAlias_iff (hs : s.HasPartNames) {f : Field} (hf : f ∈ s.fields)
    {name : String} (halias : f.keywordAlias = some name) {type : String} :
    IndexedAs s.mapping name type ↔ ∃ g ∈ s.fields, ∃ part, g.exactPart? = some part ∧
      g.documentName ++ "." ++ part = name ∧ "keyword" = type := by
  rw [indexedAs_mapping_iff hs.documentNames]
  refine or_iff_right ?_
  rintro ⟨g, hg, hname, -⟩
  exact hs.separate f hf name halias g hg hname.symm

/-- The keyword name of a text, or of a field without a keyword alias, is indexed for exact
matches. -/
theorem indexedAs_keywordName_iff (hs : s.HasPartNames) {f : Field} (hf : f ∈ s.fields)
    (h : f.type.element = .string ∨ f.keywordAlias = none) {type : String} :
    IndexedAs s.mapping f.keywordName type ↔ f.type.element.exactType = type := by
  cases halias : f.keywordAlias with
  | none =>
    rw [Field.keywordName, halias, Option.getD_none, indexedAs_documentName_iff hs hf,
      Field.ownType_of_keywordAlias halias]
  | some name =>
    have htext : f.type.element = .string := h.resolve_right (by simp [halias])
    obtain ⟨part, hpart, rfl⟩ := hs.parts f hf name halias
    have hexact := Field.exactPart?_eq_some_iff.mpr ⟨htext, hpart, halias⟩
    rw [Field.keywordName, halias, Option.getD_some, indexedAs_keywordAlias_iff hs hf halias, htext]
    constructor
    · rintro ⟨g, -, other, -, -, htype⟩
      exact htype
    · exact fun htype => ⟨f, hf, part, hexact, rfl, htype⟩

/-- The keyword alias of any other field is not indexed for exact matches of its elements. -/
theorem not_indexedAs_keywordName (hs : s.HasPartNames) {f : Field} (hf : f ∈ s.fields)
    (hother : f.type.element ≠ .string) (halias : f.keywordAlias ≠ none) :
    ¬IndexedAs s.mapping f.keywordName f.type.element.exactType := by
  obtain ⟨name, halias⟩ := Option.ne_none_iff_exists'.mp halias
  rw [Field.keywordName, halias, Option.getD_some, indexedAs_keywordAlias_iff hs hf halias]
  rintro ⟨g, -, part, -, -, htype⟩
  -- What is found under an alias is for texts.
  cases helement : f.type.element with
  | string => exact hother helement
  | integer | float | boolean | dateTime => exact absurd htype (by rw [helement]; decide)

/-- The property of a field is one of texts with an exact form if the field is a text and has a
keyword alias. -/
theorem ownType_eq (hs : s.HasPartNames) {f : Field} (hf : f ∈ s.fields) :
    f.ownType = if f.type.element = .string ∧ f.keywordAlias.isSome then "text"
      else f.type.element.exactType := by
  have hparts : f.exactPart?.isSome = true ↔
      f.type.element = .string ∧ f.keywordAlias.isSome = true := by
    simp only [Option.isSome_iff_exists, Field.exactPart?_eq_some_iff]
    constructor
    · rintro ⟨part, htext, -, halias⟩
      exact ⟨htext, _, halias⟩
    · rintro ⟨htext, name, halias⟩
      obtain ⟨part, hpart, rfl⟩ := hs.parts f hf name halias
      exact ⟨part, htext, hpart, halias⟩
  rw [Field.ownType]
  simp only [hparts]

/-! ### The names in queries -/

/-- The mapping of a schema has the name in a clause about a field, and that is a name of the field:

- `bound`: a bound is on the document name, which is the name of a property for exact matches;
- `presence`: presence is asked of the document name, which is the name of a property, of whatever
  type that is;
- `exact`: equality and membership are asked of the keyword name, which is indexed for exact
  matches if the field is a text or has no keyword alias, and else is not. -/
inductive Covers (s : Schema) (g : Field) : Clause → Prop where
  | bound {property : Json} (found : propertyOf? s.mapping g.documentName = some property)
      (typed : ∀ type, IndexedAs s.mapping g.documentName type ↔
        g.type.element.exactType = type) :
      Covers s g ⟨"range", g.documentName⟩
  | presence {property : Json} (found : propertyOf? s.mapping g.documentName = some property)
      (typed : ∀ type, IndexedAs s.mapping g.documentName type ↔
        (if g.type.element = .string ∧ g.keywordAlias.isSome then "text"
          else g.type.element.exactType) = type) :
      Covers s g ⟨"exists", g.documentName⟩
  | exact {kind : String} (equality : kind = "term" ∨ kind = "terms")
      (typed : g.type.element = .string ∨ g.keywordAlias = none →
        ∀ type, IndexedAs s.mapping g.keywordName type ↔ g.type.element.exactType = type)
      (untyped : g.type.element ≠ .string → g.keywordAlias ≠ none →
        ¬IndexedAs s.mapping g.keywordName g.type.element.exactType) :
      Covers s g ⟨kind, g.keywordName⟩

/-- The keyword name is covered in a clause that asks for equality or membership. -/
theorem covers_keywordName (hs : s.HasPartNames) {g : Field} (hg : g ∈ s.fields) {kind : String}
    (h : kind = "term" ∨ kind = "terms") : s.Covers g ⟨kind, g.keywordName⟩ :=
  .exact h (fun hplain _ => indexedAs_keywordName_iff hs hg hplain)
    (not_indexedAs_keywordName hs hg)

/-- The document name of a field with an order is covered in a clause with a bound. -/
theorem covers_bound (hs : s.HasPartNames) {g : Field} (hg : g ∈ s.fields)
    (hordered : g.type.element.isOrdered = true) : s.Covers g ⟨"range", g.documentName⟩ := by
  have htext : g.type.element ≠ .string := by
    intro htext
    rw [htext] at hordered
    cases hordered
  refine .bound (propertyOf?_documentName hs.documentNames hg) fun type => ?_
  rw [indexedAs_documentName_iff hs hg, ownType_eq hs hg, if_neg fun h => htext h.1]

/-- The document name of a field is covered in a clause about presence. -/
theorem covers_presence (hs : s.HasPartNames) {g : Field} (hg : g ∈ s.fields) :
    s.Covers g ⟨"exists", g.documentName⟩ := by
  refine .presence (propertyOf?_documentName hs.documentNames hg) fun type => ?_
  rw [indexedAs_documentName_iff hs hg, ownType_eq hs hg]

/-- A condition on a declared field is turned into a clause in which the mapping has the name. -/
theorem exists_covers_of_clause? (hs : s.HasPartNames) {leaf : Filter} (hfits : leaf.fits = true)
    (hfield : ∀ g ∈ leaf.field?, g ∈ s.fields) {clause : Clause}
    (h : leaf.clause? = some clause) :
    ∃ g ∈ s.fields, leaf.field? = some g ∧ s.Covers g clause := by
  cases leaf with
  | equal n g v =>
    cases h
    have hg := hfield g rfl
    exact ⟨g, hg, rfl, covers_keywordName hs hg (.inl rfl)⟩
  | member n g vs =>
    cases h
    have hg := hfield g rfl
    exact ⟨g, hg, rfl, covers_keywordName hs hg (.inr rfl)⟩
  | beyond side g bound =>
    cases h
    have hg := hfield g rfl
    -- A bound is only asked for of a field with an order, which is no text.
    rw [Filter.fits, Bool.and_eq_true, Bool.and_eq_true] at hfits
    exact ⟨g, hg, rfl, covers_bound hs hg hfits.1.2⟩
  | present n g =>
    cases h
    have hg := hfield g rfl
    exact ⟨g, hg, rfl, covers_presence hs hg⟩
  | anyOf fs => cases h

/-- The clauses in the query of a filter are those that its conditions are turned into, and the
mapping of the schema has the name in each of them, as that of the field of the condition. -/
theorem covers_of_mem_clauses (hs : s.HasPartNames) {f : Filter} (hf : f.Constructible)
    (hfields : f.SpeaksOf s) {clause : Clause} (h : clause ∈ clauses f.toQuery) :
    ∃ leaf ∈ f.leaves, leaf.clause? = some clause ∧
      ∃ g ∈ s.fields, leaf.field? = some g ∧ s.Covers g clause := by
  rw [Filter.clauses_toQuery, List.mem_filterMap] at h
  obtain ⟨leaf, hleaf, hclause⟩ := h
  have hfits := Filter.fits_of_constructible hf leaf hleaf
  exact ⟨leaf, hleaf, hclause, exists_covers_of_clause? hs hfits (hfields leaf hleaf) hclause⟩

/-- The exact station name, which a query asks for in a disjunction, is in the mapping. -/
theorem covers_of_mem_clauses_weather :
    let station : Field := ⟨"station", .scalar .string, none, some "station.keyword"⟩
    let taken : Field := ⟨"taken", .scalar .dateTime, some "@timestamp", none⟩
    let f : Filter := .anyOf [.equal true station (.string "Oslo"), .present false taken]
    ∃ leaf ∈ f.leaves, leaf.clause? = some ⟨"term", "station.keyword"⟩ ∧
      ∃ g ∈ weather.fields, leaf.field? = some g ∧
        weather.Covers g ⟨"term", "station.keyword"⟩ := by
  intro station taken f
  exact covers_of_mem_clauses (s := weather) (f := f) (by decide) (by decide) (by decide)
    (by decide +kernel)

/-- A number with a keyword alias is asked for under the alias, and nothing is indexed there. -/
theorem keywordAlias_of_number_not_indexed :
    let ratio : Field := ⟨"ratio", .scalar .float, none, some "ratio.kw"⟩
    let s : Schema := ⟨"Row", [⟨ratio, .scalar .float, true⟩]⟩
    let f : Filter := .equal false ratio (.float ⟨false, 0, by decide⟩)
    s.HasPartNames ∧ f.Constructible ∧ f.SpeaksOf s ∧ ⟨"term", "ratio.kw"⟩ ∈ clauses f.toQuery ∧
      ∀ type, ¬IndexedAs s.mapping "ratio.kw" type := by
  intro ratio s f
  have hs : s.HasPartNames := by decide
  refine ⟨hs, by decide, by decide, by decide +kernel, fun type h => ?_⟩
  rw [indexedAs_keywordAlias_iff hs (f := ratio) (.head _) rfl] at h
  obtain ⟨g, hg, part, hpart, -⟩ := h
  cases List.mem_singleton.mp hg
  cases hpart

end Schema

end RecordStore
