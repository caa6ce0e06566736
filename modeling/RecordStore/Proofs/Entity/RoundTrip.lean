import RecordStore.Proofs.Entity.Build
import RecordStore.Proofs.Value.RoundTrip

/-!
# `RecordStore.Proofs.Entity.RoundTrip`: entities through their outer forms

The generic form keeps everything. The document keeps everything but doubles that are not finite:
alone in a field such a double becomes `null`, so the field comes back without a value, and where
that cannot be, in a required field or among the items of a list, the document is refused. No
document at all holds such a double, so whatever was once read can be written and read again.

* `readGeneric_toGeneric`, `readDocument_toDocument`: what is read for a field of a written entity.
* `ofDocument_toDocument_of_optional`: the entity that comes back is the finite part.
* `mismatch_of_not_finite`: where there is no such entity, there is a mismatch.
* `forms_round_trip`: all of it.
-/

set_option autoImplicit false

namespace RecordStore

/-! ### Finite entities -/

namespace Entity

/-- All doubles in the entity are finite. -/
def isFinite (e : Entity) : Bool :=
  e.values.all fun entry => entry.2.isFinite

/-- The entity without the values that are not finite. -/
def finitePart (e : Entity) : Entity :=
  ⟨e.values.filter fun entry => entry.2.isFinite, KeyMap.sorted_filter _ e.sorted⟩

/-- The finite part has the values that are finite. -/
theorem value?_finitePart (e : Entity) (name : String) :
    e.finitePart.value? name = (e.value? name).filter Value.isFinite :=
  KeyMap.get?_filter Value.isFinite name e.sorted

/-- A finite entity is its own finite part. -/
theorem finitePart_eq_self_iff {e : Entity} : e.finitePart = e ↔ e.isFinite = true := by
  rw [Entity.ext_iff, finitePart, List.filter_eq_self, isFinite, List.all_eq_true]

/-- An entity is finite if each of its values is. -/
theorem isFinite_iff {e : Entity} :
    e.isFinite = true ↔ ∀ name v, e.value? name = some v → v.isFinite = true := by
  rw [← finitePart_eq_self_iff]
  constructor
  · intro h name v hv
    rw [← h, value?_finitePart] at hv
    exact (Option.filter_eq_some_iff.mp hv).2
  · intro h
    refine eq_of_value? fun name => ?_
    rw [value?_finitePart]
    cases hv : e.value? name with
    | none => rfl
    | some v => rw [Option.filter_some, h name v hv, if_pos rfl]

end Entity

namespace Schema

variable {s : Schema} {e : Entity}

/-! ### Reading the fields of a written entity -/

/-- From the generic form a field gets the value that it had. -/
theorem readGeneric_toGeneric (hs : s.IsRegular) (he : e.IsOf s) {f : Field}
    (hf : f ∈ s.fields) : readGeneric (s.toGeneric e) f = .ok (e.value? f.name) := by
  have hnodup : ((s.fields.map fun g => (g.name, e.value? g.name)).map Prod.fst).Nodup := by
    rw [List.map_map]
    exact hs.names
  have hget : KeyMap.get? f.name (s.toGeneric e) = some (e.value? f.name) :=
    KeyMap.get?_ofList_of_mem hnodup (List.mem_map.mpr ⟨f, hf, rfl⟩)
  rw [readGeneric, hget]
  cases hv : e.value? f.name with
  | none => rfl
  | some v =>
    -- A value that conforms is kept as it is, so no double is ever written and read again.
    have hcoerce : Value.coerce f.type v = .ok v := by
      unfold Value.coerce
      exact if_pos (conformsTo_of_isOf he hf hv)
    show (Value.coerce f.type v).map some = .ok (some v)
    rw [hcoerce]
    rfl

/-- A document holds under each document name what the value of the field is written as. -/
theorem get?_toDocument (hnames : (s.fields.map Field.documentName).Nodup) (e : Entity) {f : Field}
    (hf : f ∈ s.fields) :
    KeyMap.get? f.documentName (s.toDocument e)
      = some (Value.optionToJson (e.value? f.name)) := by
  refine KeyMap.get?_ofList_of_mem ?_ (List.mem_map.mpr ⟨f, hf, rfl⟩)
  rw [List.map_map]
  exact hnames

/-- A document holds nothing under a name that is no document name. -/
theorem get?_toDocument_of_ne {name : String} (h : ∀ f ∈ s.fields, f.documentName ≠ name)
    (e : Entity) : KeyMap.get? name (s.toDocument e) = none := by
  refine KeyMap.get?_ofList_of_not_mem fun hname => ?_
  rw [List.map_map] at hname
  obtain ⟨f, hf, hname⟩ := List.mem_map.mp hname
  exact h f hf hname

/-- From the document a field gets what its written value is read as. -/
theorem readDocument_toDocument (hs : s.IsRegular) (e : Entity) {f : Field} (hf : f ∈ s.fields) :
    readDocument (s.toDocument e) f =
      Value.ofJson f.type (Value.optionToJson (e.value? f.name)) := by
  rw [readDocument, get?_toDocument hs.documentNames e hf]
  rfl

/-- A field whose value is finite or no list gets the value from the document if it is finite. -/
theorem readDocument_toDocument_eq_ok (hs : s.IsRegular) (he : e.IsOf s) {f : Field}
    (hf : f ∈ s.fields)
    (h : ∀ v, e.value? f.name = some v → v.isFinite = false → f.type.isList = false) :
    readDocument (s.toDocument e) f = .ok ((e.value? f.name).filter Value.isFinite) := by
  rw [readDocument_toDocument hs e hf]
  cases hv : e.value? f.name with
  | none => rfl
  | some v =>
    have hconforms := conformsTo_of_isOf he hf hv
    rw [Value.optionToJson, Option.filter_some]
    cases hfin : v.isFinite with
    | true => exact Value.ofJson_toJson (Value.hasElements_of_conformsTo hconforms) hfin
    | false =>
      have hscalar : v.isScalar f.type.element = true :=
        Value.isScalar_of_conformsTo (h v hv hfin) hconforms
      exact Value.ofJson_toJson_of_isScalar hscalar hfin

/-- A list with something in it that is not finite is not read from the document. -/
theorem readDocument_toDocument_eq_error (hs : s.IsRegular) (he : e.IsOf s) {f : Field}
    (hf : f ∈ s.fields) {v : Value} (hv : e.value? f.name = some v) (hfin : v.isFinite = false)
    (hlist : f.type.isList = true) :
    readDocument (s.toDocument e) f = .error (.mismatch (.nullItem f.type.element)) := by
  have hconforms := conformsTo_of_isOf he hf hv
  obtain ⟨items, rfl⟩ := Value.exists_list_of_conformsTo hlist hconforms
  rw [readDocument_toDocument hs e hf, hv]
  exact Value.ofJson_toJson_of_list (Value.hasElements_of_conformsTo hconforms) hfin

/-- The document of an entity is read with mismatches only. -/
theorem mismatch_of_readDocument_toDocument (hs : s.IsRegular) (he : e.IsOf s) {f : Field}
    (hf : f ∈ s.fields) {err : Error} (h : readDocument (s.toDocument e) f = .error err) :
    ∃ cause, err = .mismatch cause := by
  by_cases hlost : ∃ v, e.value? f.name = some v ∧ v.isFinite = false ∧ f.type.isList = true
  · obtain ⟨v, hv, hfin, hlist⟩ := hlost
    rw [readDocument_toDocument_eq_error hs he hf hv hfin hlist] at h
    exact ⟨_, (Except.error.inj h).symm⟩
  · rw [readDocument_toDocument_eq_ok hs he hf] at h
    · cases h
    · intro v hv hfin
      exact eq_false_of_ne_true fun hlist => hlost ⟨v, hv, hfin, hlist⟩

/-! ### Round trips -/

/-- The generic form is read back. -/
theorem ofGeneric_toGeneric (hs : s.IsRegular) (he : e.IsOf s) :
    s.ofGeneric (s.toGeneric e) = .ok e :=
  (build_eq_ok_iff hs).mpr ⟨he, fun _ hf => readGeneric_toGeneric hs he hf⟩

/-- If only fields that can do without a value lose one, the finite part is read back. -/
theorem ofDocument_toDocument_of_optional (hs : s.IsRegular) (he : e.IsOf s)
    (h : ∀ c ∈ s.columns, ∀ v, e.value? c.field.name = some v → v.isFinite = false →
      c.required = false ∧ c.field.type.isList = false) :
    s.ofDocument (s.toDocument e) = .ok e.finitePart := by
  refine (build_eq_ok_iff hs).mpr ⟨⟨fun c hc => ?_, fun name hname => ?_⟩, fun f hf => ?_⟩
  · -- A column that loses its value is one that can do without.
    have haccepts := he.accepted c hc
    rw [Entity.value?_finitePart]
    cases hv : e.value? c.field.name with
    | none =>
      rw [hv] at haccepts
      exact haccepts
    | some v =>
      rw [hv] at haccepts
      rw [Option.filter_some]
      cases hfin : v.isFinite with
      | true => exact haccepts
      | false => exact (h c hc v hv hfin).1
  · rw [Entity.value?_finitePart, he.declared name hname]
    rfl
  · rw [Entity.value?_finitePart]
    obtain ⟨c, hc, rfl⟩ := mem_fields.mp hf
    exact readDocument_toDocument_eq_ok hs he hf fun v hv hfin => (h c hc v hv hfin).2

/-- The document of a finite entity is read back. -/
theorem ofDocument_toDocument (hs : s.IsRegular) (he : e.IsOf s) (hfin : e.isFinite = true) :
    s.ofDocument (s.toDocument e) = .ok e := by
  have hfinite := Entity.isFinite_iff.mp hfin
  rw [ofDocument_toDocument_of_optional hs he, Entity.finitePart_eq_self_iff.mpr hfin]
  intro c _ v hv hnot
  rw [hfinite _ v hv] at hnot
  cases hnot

/-- An entity that is read from a document is a finite one of the schema. -/
theorem isFinite_of_ofDocument (hs : s.IsRegular) {data : List (String × Json)}
    (h : s.ofDocument data = .ok e) : e.IsOf s ∧ e.isFinite = true := by
  obtain ⟨he, hread⟩ := (build_eq_ok_iff hs).mp h
  refine ⟨he, Entity.isFinite_iff.mpr ?_⟩
  intro name v hv
  -- Each value was read from JSON, and there is no JSON of what is not finite.
  by_cases hname : name ∈ s.fields.map Field.name
  · obtain ⟨f, hf, rfl⟩ := List.mem_map.mp hname
    have hf' := hread f hf
    rw [hv] at hf'
    exact Value.isFinite_of_ofJson hf'
  · rw [he.declared name hname] at hv
    cases hv

/-- If a field that cannot do without its value would lose it, or a list holds something that is
not finite, the document is refused as a mismatch. -/
theorem mismatch_of_not_finite (hs : s.IsRegular) (he : e.IsOf s) {c : Column}
    (hc : c ∈ s.columns) {v : Value} (hv : e.value? c.field.name = some v)
    (hfin : v.isFinite = false) (hlost : c.required = true ∨ c.field.type.isList = true) :
    ∃ cause, s.ofDocument (s.toDocument e) = .error (.mismatch cause) := by
  have hf : c.field ∈ s.fields := mem_fields.mpr ⟨c, hc, rfl⟩
  cases hbuild : s.ofDocument (s.toDocument e) with
  | error err =>
    obtain ⟨cause, rfl⟩ := mismatch_of_build
      (fun f hf err h => mismatch_of_readDocument_toDocument hs he hf h) hbuild
    exact ⟨cause, rfl⟩
  | ok e' =>
    -- The column would have had to take a value, and there is none.
    obtain ⟨he', hread⟩ := (build_eq_ok_iff hs).mp hbuild
    have hfield := hread c.field hf
    cases hlist : c.field.type.isList with
    | true =>
      rw [readDocument_toDocument_eq_error hs he hf hv hfin hlist] at hfield
      cases hfield
    | false =>
      rw [readDocument_toDocument_eq_ok hs he hf fun _ _ _ => hlist, hv, Option.filter_some,
        hfin] at hfield
      have haccepts := he'.accepted c hc
      rw [← Except.ok.inj hfield] at haccepts
      rw [hlist, haccepts] at hlost
      simp at hlost

/-- The generic form of an entity is read back, and so is the document if the entity is finite,
which it is if it was read from a document. Else the document is read as the finite part if only
fields that can do without a value have one that is not finite, and it is refused as a mismatch
if some other field has. -/
theorem forms_round_trip (hs : s.IsRegular) :
    (∀ e, e.IsOf s → s.ofGeneric (s.toGeneric e) = .ok e) ∧
    (∀ e, e.IsOf s → e.isFinite = true → s.ofDocument (s.toDocument e) = .ok e) ∧
    (∀ data e, s.ofDocument data = .ok e →
      e.isFinite = true ∧ s.ofDocument (s.toDocument e) = .ok e) ∧
    (∀ e, e.IsOf s →
      (∃ c ∈ s.columns, ∃ v, e.value? c.field.name = some v ∧ v.isFinite = false ∧
        (c.required = true ∨ c.field.type.isList = true)) →
      ∃ cause, s.ofDocument (s.toDocument e) = .error (.mismatch cause)) ∧
    (∀ e, e.IsOf s →
      (∀ c ∈ s.columns, ∀ v, e.value? c.field.name = some v → v.isFinite = false →
        c.required = false ∧ c.field.type.isList = false) →
      ∃ e', s.ofDocument (s.toDocument e) = .ok e' ∧
        ∀ name, e'.value? name = (e.value? name).filter Value.isFinite) := by
  refine ⟨?_, ?_, ?_, ?_, ?_⟩
  · intro e he
    exact ofGeneric_toGeneric hs he
  · intro e he hfin
    exact ofDocument_toDocument hs he hfin
  · intro data e h
    obtain ⟨he, hfin⟩ := isFinite_of_ofDocument hs h
    exact ⟨hfin, ofDocument_toDocument hs he hfin⟩
  · rintro e he ⟨c, hc, v, hv, hfin, hlost⟩
    exact mismatch_of_not_finite hs he hc hv hfin hlost
  · intro e he h
    exact ⟨e.finitePart, ofDocument_toDocument_of_optional hs he h, e.value?_finitePart⟩

/-- Records of a weather station: one that is finite, one with a temperature that is no number and
one with such a gust. -/
theorem forms_round_trip_weather :
    let nan : Value := .float ⟨false, 0x7FF8000000000000, by decide⟩
    let warm := Entity.silent.put "celsius" nan
    let stormy := Entity.silent.put "gusts" (.list [nan])
    weather.ofGeneric (weather.toGeneric stormy) = .ok stormy ∧
    weather.ofDocument (weather.toDocument Entity.silent) = .ok Entity.silent ∧
    (∃ e', weather.ofDocument (weather.toDocument warm) = .ok e' ∧
      e'.value? "celsius" = none) ∧
    ∃ cause, weather.ofDocument (weather.toDocument stormy) = .error (.mismatch cause) := by
  intro nan warm stormy
  obtain ⟨hgeneric, hdocument, -, herror, hpart⟩ := forms_round_trip (s := weather) (by decide)
  refine ⟨hgeneric stormy (by decide), hdocument _ (by decide) (by decide), ?_, ?_⟩
  · obtain ⟨e', he', hvalue⟩ := hpart warm (by decide) (by decide)
    exact ⟨e', he', hvalue "celsius"⟩
  · exact herror stormy (by decide) ⟨weather.columns[2], by decide, .list [nan], rfl, rfl, by decide⟩

end Schema

end RecordStore
