import RecordStore.Entity
import RecordStore.Proofs.Calendar.Zoned
import RecordStore.Proofs.Filter.Acceptance

/-!
# `RecordStore.Proofs.Moments`: all texts of a moment are the same

Two texts that name one moment with an offset each can be put in place of one another wherever a
date-time is read: alone or in arrays of any depth, as the operand of a condition anywhere in a
description, and in both outer forms of an entity. The result is the same, or the same error.

* `ofJson_congr`, `coerce_congr`: the two ways in which a field gets a value.
* `build_congr`: filters.
* `ofDocument_congr`, `ofGeneric_congr`: entities.
* `moments_agree`: all of them, and each text is read as the moment that it names.
-/

set_option autoImplicit false

namespace RecordStore

open Calendar Decimal

/-! ### Texts -/

/-- The two texts name one moment, with an offset each. -/
def NameOneMoment (a b : String) : Prop :=
  ∃ t : DateTime, t.IsZonedText a.toList ∧ t.IsZonedText b.toList

/-- Two JSON values differ only in texts that name one moment, in their places in arrays. -/
inductive Json.SameMoments : Json → Json → Prop where
  | refl (raw : Json) : SameMoments raw raw
  | text {a b : String} (h : NameOneMoment a b) : SameMoments (.string a) (.string b)
  | item (before after : List Json) {raw raw' : Json} (h : SameMoments raw raw') :
      SameMoments (.array (before ++ raw :: after)) (.array (before ++ raw' :: after))
  | trans {x y z : Json} (first : SameMoments x y) (second : SameMoments y z) : SameMoments x z

/-- Two values differ only in texts that name one moment, in their places in lists. -/
inductive Value.SameMoments : Value → Value → Prop where
  | refl (v : Value) : SameMoments v v
  | text {a b : String} (h : NameOneMoment a b) : SameMoments (.string a) (.string b)
  | item (before after : List Value) {v w : Value} (h : SameMoments v w) :
      SameMoments (.list (before ++ v :: after)) (.list (before ++ w :: after))
  | trans {u v w : Value} (first : SameMoments u v) (second : SameMoments v w) : SameMoments u w

namespace Value

/-! ### Reading -/

/-- Two texts of one moment are read alike. -/
theorem readDateTime_congr {a b : String} (h : NameOneMoment a b) :
    readDateTime a = readDateTime b := by
  obtain ⟨t, ha, hb⟩ := h
  rw [DateTime.readDateTime_of_isZonedText ha, DateTime.readDateTime_of_isZonedText hb]

/-- Of the items of an array one can be replaced by another that is read alike. -/
theorem readItems_congr {t : ScalarType} {raw raw' : Json} (h : readItem t raw = readItem t raw')
    (before after : List Json) :
    readItems t (before ++ raw :: after) = readItems t (before ++ raw' :: after) := by
  induction before with
  | nil => simp only [List.nil_append, readItems, h]
  | cons x rest ih => simp only [List.cons_append, readItems, ih]

/-- What differs in texts of one moment is read alike inside an array. -/
theorem readItem_congr {raw raw' : Json} (h : raw.SameMoments raw') :
    readItem .dateTime raw = readItem .dateTime raw' := by
  induction h with
  | refl => rfl
  | text h => simp only [readItem, readScalar, readDateTime_congr h]
  | item before after _ ih => rw [readItem_array, readItem_array, readItems_congr ih]
  | trans _ _ first second => exact first.trans second

/-- Only `null` differs from `null` in no more than texts. -/
theorem eq_null_iff_of_sameMoments {raw raw' : Json} (h : raw.SameMoments raw') :
    raw = .null ↔ raw' = .null := by
  induction h with
  | refl => rfl
  | text | item => exact iff_of_false nofun nofun
  | trans _ _ first second => exact first.trans second

/-- What differs in texts of one moment is read alike by a field for date-times. -/
theorem ofJson_congr {type : FieldType} (htype : type.element = .dateTime) {raw raw' : Json}
    (h : raw.SameMoments raw') : ofJson type raw = ofJson type raw' := by
  have hnull := eq_null_iff_of_sameMoments h
  by_cases hraw : raw = .null
  · rw [hraw, hnull.mp hraw]
  · rw [ofJson_of_ne_null hraw, ofJson_of_ne_null (hraw ∘ hnull.mpr), htype, readItem_congr h]

/-! ### Coercion -/

/-- The written forms of values that differ in texts of one moment differ in the same texts. -/
theorem toJson_sameMoments {v w : Value} (h : v.SameMoments w) :
    v.toJson.SameMoments w.toJson := by
  induction h with
  | refl v => exact .refl _
  | text h => exact .text h
  | item before after _ ih =>
    simp only [toJson, toJsonItems_eq_map, List.map_append, List.map_cons]
    exact .item _ _ ih
  | trans _ _ first second => exact .trans first second

/-- A value with a text in it is no date-time, and no list of date-times. -/
theorem eq_or_not_conformsTo {type : FieldType} (htype : type.element = .dateTime) {v w : Value}
    (h : v.SameMoments w) :
    v = w ∨ (v.conformsTo type = false ∧ w.conformsTo type = false) ∧ v.toJson ≠ .null := by
  -- A text that was changed has the wrong type, and so has every list around it.
  induction h generalizing type with
  | refl => exact .inl rfl
  | text => cases type <;> cases htype <;> exact .inr ⟨⟨rfl, rfl⟩, nofun⟩
  | item before after _ ih =>
    rcases @ih (.scalar .dateTime) rfl with rfl | ⟨⟨hv, hw⟩, -⟩
    · exact .inl rfl
    · rw [conformsTo_scalar] at hv hw
      cases type with
      | scalar t => exact .inr ⟨⟨rfl, rfl⟩, nofun⟩
      | list t =>
        cases htype
        simp [conformsTo, toJson, hv, hw]
  | trans _ _ first second =>
    rcases first htype with rfl | ⟨⟨hu, hv⟩, hnull⟩
    · exact second htype
    · rcases second htype with rfl | ⟨⟨-, hw⟩, -⟩
      · exact .inr ⟨⟨hu, hv⟩, hnull⟩
      · exact .inr ⟨⟨hu, hw⟩, hnull⟩

/-- What is kept or read as a whole may differ in texts of one moment. -/
theorem coerceWhole_congr {type : FieldType} (htype : type.element = .dateTime) {v w : Value}
    (h : v.SameMoments w) : coerceWhole type v = coerceWhole type w := by
  rcases eq_or_not_conformsTo htype h with rfl | ⟨⟨hv, hw⟩, hnull⟩
  · rfl
  · rw [coerceWhole, coerceWhole, hv, hw, ← ofJson_congr htype (toJson_sameMoments h)]
    simp only [Bool.false_eq_true, if_false]
    -- The value itself is named only in the error for what is read as absent.
    cases hread : ofJson type v.toJson with
    | error e => rfl
    | ok x? =>
      cases x? with
      | none => exact absurd (ofJson_eq_ok_none_iff.mp hread) hnull
      | some x => rfl

/-- Of the items of a list one can be replaced by another that becomes the same. -/
theorem coerceItems_congr {t : ScalarType} {v w : Value}
    (h : coerceWhole (.scalar t) v = coerceWhole (.scalar t) w) (before after : List Value) :
    coerceItems t (before ++ v :: after) = coerceItems t (before ++ w :: after) := by
  induction before with
  | nil => simp only [List.nil_append, coerceItems, h]
  | cons x rest ih => simp only [List.cons_append, coerceItems, ih]

/-- What differs in texts of one moment becomes the same in a field for date-times. -/
theorem coerce_congr {type : FieldType} (htype : type.element = .dateTime) {v w : Value}
    (h : v.SameMoments w) : coerce type v = coerce type w := by
  induction h with
  | refl => rfl
  | @text a b h =>
    have hwhole : ∀ c : String, coerce type (.string c) = coerceWhole type (.string c) :=
      fun c => coerce_eq_coerceWhole (.inr nofun)
    rw [hwhole, hwhole, coerceWhole_congr htype (.text h)]
  | @item before after v w h =>
    cases type with
    | scalar t =>
      rw [coerce_eq_coerceWhole (.inl rfl), coerce_eq_coerceWhole (.inl rfl),
        coerceWhole_congr htype (.item before after h)]
    | list t =>
      have hitem : coerceWhole (.scalar t) v = coerceWhole (.scalar t) w :=
        @coerceWhole_congr (.scalar t) htype _ _ h
      rw [coerce_list, coerce_list, coerceItems_congr hitem]
  | trans _ _ first second => exact first.trans second

end Value

namespace Description

/-! ### Filters -/

/-- Two descriptions differ only in the operands of conditions on fields for date-times, and there
in texts that name one moment. -/
inductive SameMoments (s : Schema) : Description → Description → Prop where
  | refl (d : Description) : SameMoments s d d
  | operand {name word : String} {f : Field} {filters : Option (List Description)}
      {raw raw' : Json} (declared : s.field? name = some f) (moments : f.type.element = .dateTime)
      (h : raw.SameMoments raw') :
      SameMoments s (.mk (some name) word (some raw) filters)
        (.mk (some name) word (some raw') filters)
  | part {field : Option String} {word : String} {operand : Option Json}
      (before after : List Description) {d d' : Description} (h : SameMoments s d d') :
      SameMoments s (.mk field word operand (some (before ++ d :: after)))
        (.mk field word operand (some (before ++ d' :: after)))
  | trans {x y z : Description} (first : SameMoments s x y) (second : SameMoments s y z) :
      SameMoments s x z

variable {s : Schema}

/-- The same filter is built of descriptions with the same word, of which the operands are the same
to each condition and the same filters are built of the children. -/
theorem build_eq_of_parts {field : Option String} (word : String) {operand operand' : Option Json}
    {filters filters' : Option (List Description)}
    (hleaf : ∀ op, buildLeaf s op field operand = buildLeaf s op field operand')
    (hall : buildAll s (filters.getD []) = buildAll s (filters'.getD [])) :
    build s (.mk field word operand filters) = build s (.mk field word operand' filters') := by
  -- The word decides which parts are looked at.
  by_cases hunknown : ∀ op : Operator, word ≠ op.word
  · rw [build_of_unknown hunknown, build_of_unknown hunknown]
  · obtain ⟨op, rfl⟩ : ∃ op : Operator, word = op.word := by simpa using hunknown
    by_cases hop : op = .anyOf
    · rw [hop, build_anyOf, build_anyOf, hall]
    · rw [build_of_ne_anyOf hop, build_of_ne_anyOf hop, hleaf]

/-- Of several descriptions one can be replaced by another of which the same filter is built. -/
theorem buildAll_congr {d d' : Description} (h : build s d = build s d')
    (before after : List Description) :
    buildAll s (before ++ d :: after) = buildAll s (before ++ d' :: after) := by
  induction before with
  | nil => simp only [List.nil_append, buildAll, h]
  | cons other rest ih => simp only [List.cons_append, buildAll, ih]

/-- The same filter is built of descriptions that differ in texts of one moment. -/
theorem build_congr {d d' : Description} (h : d.SameMoments s d') : d.build s = d'.build s := by
  induction h with
  | refl => rfl
  | @operand name word f filters raw raw' declared moments h =>
    refine build_eq_of_parts word (fun op => ?_) rfl
    simp only [buildLeaf, findField, declared, readValue, Value.ofJson_congr moments h]
  | part before after _ ih =>
    exact build_eq_of_parts _ (fun _ => rfl) (buildAll_congr ih before after)
  | trans _ _ first second => exact first.trans second

end Description

namespace Schema

/-! ### Entities -/

/-- Two documents differ only in the fields for date-times, and there in texts that name one
moment. -/
def SameDocuments (s : Schema) (data data' : List (String × Json)) : Prop :=
  ∀ f ∈ s.fields, KeyMap.get? f.documentName data = KeyMap.get? f.documentName data' ∨
    f.type.element = .dateTime ∧ ∃ raw raw', KeyMap.get? f.documentName data = some raw ∧
      KeyMap.get? f.documentName data' = some raw' ∧ raw.SameMoments raw'

/-- Two generic forms differ only in the fields for date-times, and there in texts that name one
moment. -/
def SameGenerics (s : Schema) (data data' : List (String × Option Value)) : Prop :=
  ∀ f ∈ s.fields, KeyMap.get? f.name data = KeyMap.get? f.name data' ∨
    f.type.element = .dateTime ∧ ∃ v w, KeyMap.get? f.name data = some (some v) ∧
      KeyMap.get? f.name data' = some (some w) ∧ v.SameMoments w

variable {s : Schema}

/-- Two readers that agree on all fields gather the same values. -/
theorem gather_congr {read read' : Field → Except Error (Option Value)} {fields : List Field}
    (h : ∀ f ∈ fields, read f = read' f) (values : List (String × Value)) :
    s.gather read fields values = s.gather read' fields values := by
  induction fields generalizing values with
  | nil => rfl
  | cons f rest ih =>
    obtain ⟨hfirst, hrest⟩ := List.forall_mem_cons.mp h
    simp only [gather, hfirst, ih hrest]

/-- Two readers that agree on the fields build the same entity. -/
theorem build_eq_of_reads {read read' : Field → Except Error (Option Value)}
    (h : ∀ f ∈ s.fields, read f = read' f) : s.build read = s.build read' := by
  rw [build, build, gather_congr h]

/-- The same entity is made of documents that differ in texts of one moment. -/
theorem ofDocument_congr {data data' : List (String × Json)} (h : s.SameDocuments data data') :
    s.ofDocument data = s.ofDocument data' := by
  refine build_eq_of_reads fun f hf => ?_
  rcases h f hf with heq | ⟨htype, raw, raw', hraw, hraw', hsame⟩
  · rw [readDocument, readDocument, heq]
  · rw [readDocument, readDocument, hraw, hraw']
    exact Value.ofJson_congr htype hsame

/-- The same entity is made of generic forms that differ in texts of one moment. -/
theorem ofGeneric_congr {data data' : List (String × Option Value)}
    (h : s.SameGenerics data data') : s.ofGeneric data = s.ofGeneric data' := by
  refine build_eq_of_reads fun f hf => ?_
  rcases h f hf with heq | ⟨htype, v, w, hv, hw, hsame⟩
  · rw [readGeneric, readGeneric, heq]
  · simp only [readGeneric, hv, hw, Option.join_some, Value.coerce_congr htype hsame]

end Schema

/-- Every text of a moment is read as the moment, with every offset shorter than a day by which a
clock shows a year of four digits then. So texts of one moment can stand for one another in JSON
values, in the descriptions of filters and in both outer forms of entities. -/
theorem moments_agree :
    (∀ (t : DateTime) (text : String), t.IsZonedText text.toList →
      Value.readDateTime text = .ok t) ∧
    (∀ minutes, (∃ offset, IsOffset minutes offset) ↔ -1440 < minutes ∧ minutes < 1440) ∧
    (∀ (t : DateTime) minutes, (∃ l : DateTime, l.HasPlainYear ∧ l.IsShown minutes t) ↔
      DateTime.firstSecond 0 ≤ t.seconds + 60 * minutes ∧
        t.seconds + 60 * minutes < DateTime.firstSecond 10000) ∧
    (∀ type raw raw', type.element = .dateTime → raw.SameMoments raw' →
      Value.ofJson type raw = Value.ofJson type raw') ∧
    (∀ (s : Schema) (d d' : Description), d.SameMoments s d' → d.build s = d'.build s) ∧
    (∀ (s : Schema) data data', s.SameDocuments data data' →
      s.ofDocument data = s.ofDocument data') ∧
    ∀ (s : Schema) data data', s.SameGenerics data data' → s.ofGeneric data = s.ofGeneric data' :=
  ⟨fun _ _ => DateTime.readDateTime_of_isZonedText, fun _ => exists_isOffset_iff,
    fun _ _ => DateTime.exists_isShown_iff, fun _ _ _ htype => Value.ofJson_congr htype,
    fun _ _ _ => Description.build_congr, fun _ _ _ => Schema.ofDocument_congr,
    fun _ _ _ => Schema.ofGeneric_congr⟩

set_option maxRecDepth 10000 in
/-- A leap second in the first hour of year 10000: two clocks show it at either end of a day of
year 9999. -/
theorem moments_agree_year_10000 :
    let t : DateTime := ⟨⟨10000, 1, 1, by decide⟩, 1799, 1250000000, by decide⟩
    let a := "  9999-12-31t23:59:60.25-00:30 "
    let b := "9999-12-31 00:30:60.250\u221223:59"
    let taken : String → Description := fun text =>
      .mk (some "taken") Operator.isOneOf.word (some (.array [.string text])) none
    (t.IsZonedText a.toList ∧ t.IsZonedText b.toList) ∧
    (Value.readDateTime a = .ok t ∧ Value.readDateTime b = .ok t) ∧
    Value.ofJson (.scalar .dateTime) (.string a) = Value.ofJson (.scalar .dateTime) (.string b) ∧
    (taken a).build .weather = (taken b).build .weather ∧
    Schema.weather.ofDocument [("@timestamp", .string a)] =
      Schema.weather.ofDocument [("@timestamp", .string b)] ∧
    Schema.weather.ofGeneric [("taken", some (.string a))] =
      Schema.weather.ofGeneric [("taken", some (.string b))] := by
  intro t a b taken
  have ha : t.IsZonedText a.toList := by
    let l : DateTime := ⟨⟨9999, 12, 31, by decide⟩, 86399, 1250000000, by decide⟩
    have hoffset : IsOffset (-30) _ := @IsOffset.behind '-' 0 30 (by decide) (by decide) (by decide)
    have hcount : value ['2', '5'] * nanosPerSecond / tenTo 2 = t.nanos % nanosPerSecond := by
      decide
    have hfraction : IsFraction (t.nanos % nanosPerSecond) ['.', '2', '5'] :=
      hcount ▸ .digits (by decide) (List.all_eq_true.mp rfl)
    have hshown : l.IsShown (-30) t := ⟨by decide, rfl⟩
    have hchars : [' ', ' '] ++ (l.zonedChars 't' ['.', '2', '5']
        ('-' :: (padded 2 0 ++ ':' :: padded 2 30)) ++ [' ']) = a.toList := by decide
    exact hchars ▸ .mk hshown (by decide) (by decide) hfraction hoffset
      (List.all_eq_true.mp rfl) (List.all_eq_true.mp rfl)
  have hb : t.IsZonedText b.toList := by
    let l : DateTime := ⟨⟨9999, 12, 31, by decide⟩, 1859, 1250000000, by decide⟩
    have hoffset : IsOffset (-1439) _ :=
      @IsOffset.behind '\u2212' 23 59 (by decide) (by decide) (by decide)
    have hcount : value ['2', '5', '0'] * nanosPerSecond / tenTo 3 = t.nanos % nanosPerSecond := by
      decide
    have hfraction : IsFraction (t.nanos % nanosPerSecond) ['.', '2', '5', '0'] :=
      hcount ▸ .digits (by decide) (List.all_eq_true.mp rfl)
    have hshown : l.IsShown (-1439) t := ⟨by decide, rfl⟩
    have hchars : [] ++ (l.zonedChars ' ' ['.', '2', '5', '0']
        ('\u2212' :: (padded 2 23 ++ ':' :: padded 2 59)) ++ []) = b.toList := by decide
    exact hchars ▸ .mk hshown (by decide) (by decide) hfraction hoffset
      (List.all_eq_true.mp rfl) (List.all_eq_true.mp rfl)
  have hsame : NameOneMoment a b := ⟨t, ha, hb⟩
  obtain ⟨hread, -, -, hjson, hfilter, hdocument, hgeneric⟩ := moments_agree
  refine ⟨⟨ha, hb⟩, ⟨hread t a ha, hread t b hb⟩, hjson _ _ _ rfl (.text hsame),
    hfilter _ _ _ (.operand rfl rfl (.item [] [] (.text hsame))), hdocument _ _ _ ?_,
    hgeneric _ _ _ ?_⟩
  · exact List.forall_mem_cons.mpr ⟨.inl rfl, List.forall_mem_cons.mpr ⟨.inl rfl,
      List.forall_mem_cons.mpr ⟨.inl rfl, List.forall_mem_singleton.mpr
        (.inr ⟨rfl, _, _, rfl, rfl, .text hsame⟩)⟩⟩⟩
  · exact List.forall_mem_cons.mpr ⟨.inl rfl, List.forall_mem_cons.mpr ⟨.inl rfl,
      List.forall_mem_cons.mpr ⟨.inl rfl, List.forall_mem_singleton.mpr
        (.inr ⟨rfl, _, _, rfl, rfl, .text hsame⟩)⟩⟩⟩

end RecordStore
