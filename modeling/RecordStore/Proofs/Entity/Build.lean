import RecordStore.Entity
import RecordStore.Proofs.KeyMap
import RecordStore.Proofs.Value.Typed

/-!
# `RecordStore.Proofs.Entity.Build`: which entities are built

`Schema.build` works in two passes, one over the fields and one over the columns. For a schema
whose names are distinct and whose columns take each value at the declared type, the passes come
to a plain statement: what is built is the one entity of the schema that has under each field's
name the value that was read for the field. Every conversion between entities and their outer
forms is this statement with another reader.

* `Schema.IsRegular`, `Entity.IsOf`, `Entity.FitsField`: the schemas and entities that are spoken
  of.
* `gather_ok`, `gather_eq_ok`: the values that are gathered.
* `take_eq_ok_iff`: the entity that the columns make of gathered values.
* `build_eq_ok_iff`: the two passes together.
* `mismatch_of_build`: if the reader fails with mismatches only, then so does the construction.
-/

set_option autoImplicit false

namespace RecordStore

/-! ### Regular schemas and their entities -/

/-- The column can take the value `v?`: a value that is there conforms to the type, and one that
is not there is not required. -/
def Column.Accepts (c : Column) (v? : Option Value) : Prop :=
  match v? with
  | some v => v.conformsTo c.field.type = true
  | none => c.required = false

instance (c : Column) (v? : Option Value) : Decidable (c.Accepts v?) :=
  match v? with
  | some v => inferInstanceAs (Decidable (v.conformsTo c.field.type = true))
  | none => inferInstanceAs (Decidable (c.required = false))

/-- What is asked of a schema whose entities are to be read back:

- `names`: no two fields have one name, so no value is taken twice;
- `documentNames`: no two fields have one document name, so none overwrites another's value;
- `shapes`: each column takes its value at the declared type. -/
structure Schema.IsRegular (s : Schema) : Prop where
  names : (s.fields.map Field.name).Nodup
  documentNames : (s.fields.map Field.documentName).Nodup
  shapes : ∀ c ∈ s.columns, c.shape = c.field.type.shape

/-- The entity is one of the schema: it has values that the columns can take, and no others. -/
structure Entity.IsOf (e : Entity) (s : Schema) : Prop where
  accepted : ∀ c ∈ s.columns, c.Accepts (e.value? c.field.name)
  declared : ∀ name, name ∉ s.fields.map Field.name → e.value? name = none

/-- The value of the field is absent or of the field's type. -/
def Entity.FitsField (e : Entity) (f : Field) : Prop :=
  ∀ v ∈ e.value? f.name, v.conformsTo f.type = true

instance (e : Entity) (f : Field) : Decidable (e.FitsField f) :=
  inferInstanceAs (Decidable (∀ v ∈ e.value? f.name, v.conformsTo f.type = true))

/-- The names that an entity of the schema has values under are those of fields. -/
theorem Entity.isOf_iff {e : Entity} {s : Schema} :
    e.IsOf s ↔ (∀ c ∈ s.columns, c.Accepts (e.value? c.field.name)) ∧
      ∀ name ∈ KeyMap.keys e.values, name ∈ s.fields.map Field.name := by
  have hdeclared : (∀ name, name ∉ s.fields.map Field.name → e.value? name = none) ↔
      ∀ name ∈ KeyMap.keys e.values, name ∈ s.fields.map Field.name :=
    forall_congr' fun name => (imp_congr_right fun _ => KeyMap.get?_eq_none_iff).trans
      Decidable.not_imp_not
  exact ⟨fun h => ⟨h.accepted, hdeclared.mp h.declared⟩, fun h => ⟨h.1, hdeclared.mpr h.2⟩⟩

instance (s : Schema) : Decidable s.IsRegular :=
  decidable_of_iff ((s.fields.map Field.name).Nodup ∧ (s.fields.map Field.documentName).Nodup ∧
    ∀ c ∈ s.columns, c.shape = c.field.type.shape)
    ⟨fun h => ⟨h.1, h.2.1, h.2.2⟩, fun h => ⟨h.names, h.documentNames, h.shapes⟩⟩

instance (e : Entity) (s : Schema) : Decidable (e.IsOf s) :=
  decidable_of_iff _ Entity.isOf_iff.symm

/-! ### An example -/

/-- The records of a weather station: the exact station name is in a part of its own, and two
fields have a document name that is not their own. -/
def Schema.weather : Schema where
  name := "Weather"
  columns := [
    ⟨⟨"station", .scalar .string, none, some "station.keyword"⟩, .scalar .string, true⟩,
    ⟨⟨"celsius", .scalar .float, some "temp_c", none⟩, .scalar .float, false⟩,
    ⟨⟨"gusts", .list .float, none, none⟩, .list (.scalar .float), false⟩,
    ⟨⟨"taken", .scalar .dateTime, some "@timestamp", none⟩, .scalar .dateTime, false⟩]

/-- A record with a station and nothing else. -/
def Entity.silent : Entity :=
  Entity.empty.put "station" (.string "Oslo")

example : Schema.weather.IsRegular ∧ Entity.silent.IsOf Schema.weather := by decide

namespace Schema

/-! ### Fields -/

/-- A field is declared if it is the field of a column. -/
theorem mem_fields {s : Schema} {f : Field} : f ∈ s.fields ↔ ∃ c ∈ s.columns, c.field = f :=
  List.mem_map

/-- The names of the fields are those of the columns. -/
theorem names_eq (s : Schema) :
    s.fields.map Field.name = s.columns.map fun c => c.field.name := by
  rw [fields, List.map_map]
  rfl

/-- A value of an entity of the schema conforms to the type of its field. -/
theorem conformsTo_of_isOf {s : Schema} {e : Entity} (he : e.IsOf s) {f : Field}
    (hf : f ∈ s.fields) {v : Value} (hv : e.value? f.name = some v) :
    v.conformsTo f.type = true := by
  obtain ⟨c, hc, rfl⟩ := mem_fields.mp hf
  have haccepts := he.accepted c hc
  rw [hv] at haccepts
  exact haccepts

/-! ### Gathering -/

variable {s : Schema} {read : Field → Except Error (Option Value)}

/-- If every field can be read, the values can be gathered. -/
theorem gather_ok {fields : List Field} (h : ∀ f ∈ fields, ∃ v?, read f = .ok v?)
    (values : List (String × Value)) : ∃ gathered, s.gather read fields values = .ok gathered := by
  induction fields generalizing values with
  | nil => exact ⟨values, rfl⟩
  | cons f rest ih =>
    obtain ⟨v?, hread⟩ := h f List.mem_cons_self
    have hrest : ∀ g ∈ rest, ∃ v?, read g = .ok v? := fun g hg => h g (List.mem_cons_of_mem _ hg)
    rw [gather, hread]
    cases v? with
    | none => exact ih hrest values
    | some v => exact ih hrest _

/-- What was gathered holds under each field's name the value that was read, and it is as before
under any other name. -/
theorem gather_eq_ok {fields : List Field} (hnodup : (fields.map Field.name).Nodup)
    {values gathered : List (String × Value)} (h : s.gather read fields values = .ok gathered) :
    (∀ f ∈ fields, ∃ v?, read f = .ok v? ∧
      KeyMap.get? f.name gathered = v?.or (KeyMap.get? f.name values)) ∧
    ∀ name, name ∉ fields.map Field.name →
      KeyMap.get? name gathered = KeyMap.get? name values := by
  induction fields generalizing values with
  | nil =>
    cases h
    exact ⟨fun _ hf => (List.not_mem_nil hf).elim, fun _ _ => rfl⟩
  | cons f rest ih =>
    rw [List.map_cons, List.nodup_cons] at hnodup
    rw [gather] at h
    cases hread : read f with
    | error err =>
      rw [hread] at h
      cases h
    | ok v? =>
      -- The values behind `f`, with which the rest is gathered.
      obtain ⟨next, hnext, hself, hother⟩ : ∃ next, s.gather read rest next = .ok gathered ∧
          KeyMap.get? f.name next = v?.or (KeyMap.get? f.name values) ∧
          ∀ name, name ≠ f.name → KeyMap.get? name next = KeyMap.get? name values := by
        rw [hread] at h
        cases v? with
        | none => exact ⟨values, h, rfl, fun _ _ => rfl⟩
        | some v =>
          exact ⟨_, h, KeyMap.get?_insert_self _ _ _, fun _ hne => KeyMap.get?_insert_of_ne hne _ _⟩
      obtain ⟨hfields, hnames⟩ := ih hnodup.2 hnext
      constructor
      · intro g hg
        rcases List.mem_cons.mp hg with rfl | hg
        · exact ⟨v?, hread, by rw [hnames _ hnodup.1, hself]⟩
        · obtain ⟨w?, hw, hget⟩ := hfields g hg
          have hne : g.name ≠ f.name := by
            intro heq
            exact hnodup.1 (heq ▸ List.mem_map_of_mem hg)
          exact ⟨w?, hw, by rw [hget, hother _ hne]⟩
      · intro name hname
        rw [List.map_cons, List.mem_cons, not_or] at hname
        rw [hnames _ hname.2, hother _ hname.1]

/-- If the reader fails with mismatches only, so does gathering. -/
theorem mismatch_of_gather {fields : List Field}
    (h : ∀ f ∈ fields, ∀ err, read f = .error err → ∃ cause, err = .mismatch cause)
    {values : List (String × Value)} {err : Error}
    (herr : s.gather read fields values = .error err) : ∃ cause, err = .mismatch cause := by
  induction fields generalizing values with
  | nil => cases herr
  | cons f rest ih =>
    have hrest := @ih fun g hg => h g (List.mem_cons_of_mem _ hg)
    rw [gather] at herr
    cases hread : read f with
    | error e =>
      obtain ⟨cause, rfl⟩ := h f List.mem_cons_self e hread
      rw [hread] at herr
      cases herr
      exact ⟨_, rfl⟩
    | ok v? =>
      rw [hread] at herr
      cases v? with
      | none => exact hrest herr
      | some v => exact hrest herr

/-! ### Taking -/

/-- A column takes a value that conforms to the declared type, and the entity holds it as it
was. -/
theorem extract_of_conformsTo {c : Column} (hshape : c.shape = c.field.type.shape) {v : Value}
    (h : v.conformsTo c.field.type = true) :
    ∃ x, Value.extract c.shape v = .ok x ∧ Value.ofTyped c.shape x = v := by
  rw [hshape]
  obtain ⟨x, rfl⟩ := Value.exists_ofTyped_of_conformsTo h
  exact ⟨x, Value.extract_ofTyped _ _, rfl⟩

/-- A value that a column takes conforms to the declared type, and the entity holds it as it
was. -/
theorem conformsTo_of_extract {c : Column} (hshape : c.shape = c.field.type.shape) {v : Value}
    {x : c.shape.Carrier} (h : Value.extract c.shape v = .ok x) :
    v.conformsTo c.field.type = true ∧ Value.ofTyped c.shape x = v := by
  have hv := Value.ofTyped_of_extract h
  refine ⟨?_, hv⟩
  rw [← hv]
  -- The shape stands in the type of `x`, so it can be replaced only with `x` in the goal.
  revert x
  rw [hshape]
  intro x _ _
  exact Value.conformsTo_ofTyped _ x

/-- The columns make an entity of the values if each one can take the value under its name; the
entity then has these values, and under other names those that it had before. -/
theorem take_eq_ok_iff {columns : List Column}
    (hnodup : (columns.map fun c => c.field.name).Nodup)
    (hshapes : ∀ c ∈ columns, c.shape = c.field.type.shape)
    {values : List (String × Value)} {taken e : Entity} :
    s.take columns values taken = .ok e ↔
      (∀ c ∈ columns, c.Accepts (KeyMap.get? c.field.name values)) ∧
      ∀ name, e.value? name =
        (if name ∈ columns.map fun c => c.field.name then KeyMap.get? name values else none).or
          (taken.value? name) := by
  induction columns generalizing values taken with
  | nil =>
    simp only [take, Except.ok.injEq, List.map_nil, List.not_mem_nil, if_false, Option.none_or,
      false_implies, implies_true, true_and]
    exact ⟨fun h _ => h ▸ rfl, fun h => Entity.eq_of_value? fun name => (h name).symm⟩
  | cons c rest ih =>
    rw [List.map_cons, List.nodup_cons] at hnodup
    have hshape := hshapes c List.mem_cons_self
    have hrest := @ih hnodup.2 fun d hd => hshapes d (List.mem_cons_of_mem _ hd)
    have hne : ∀ d ∈ rest, d.field.name ≠ c.field.name := by
      intro d hd heq
      exact hnodup.1 (heq ▸ List.mem_map_of_mem hd)
    rw [List.forall_mem_cons, List.map_cons, take]
    -- Either side fails if the first column cannot take its value; else the rest decides.
    cases hget : KeyMap.get? c.field.name values with
    | none =>
      cases hrequired : c.required with
      | true =>
        refine iff_of_false (by simp) fun h => ?_
        rw [Column.Accepts, hrequired] at h
        exact absurd h.1.1 (by decide)
      | false =>
        simp only [Bool.false_eq_true, if_false]
        rw [hrest]
        refine and_congr (iff_and_self.mpr fun _ => hrequired) (forall_congr' fun name => ?_)
        by_cases hname : name = c.field.name
        · rw [hname, if_neg hnodup.1, if_pos List.mem_cons_self, hget]
        · simp only [List.mem_cons, hname, false_or]
    | some v =>
      cases hextract : Value.extract c.shape v with
      | error cause =>
        simp only [hextract]
        refine iff_of_false (by simp) fun h => ?_
        obtain ⟨x, hx, -⟩ := extract_of_conformsTo hshape h.1.1
        rw [hx] at hextract
        cases hextract
      | ok x =>
        obtain ⟨hconforms, hvalue⟩ := conformsTo_of_extract hshape hextract
        simp only [hextract]
        rw [hrest, hvalue]
        refine and_congr ?_ (forall_congr' fun name => ?_)
        · -- The value that was taken is gone, but no later column has its name.
          have herase : ∀ d ∈ rest,
              KeyMap.get? d.field.name (KeyMap.erase c.field.name values)
                = KeyMap.get? d.field.name values :=
            fun d hd => KeyMap.get?_erase_of_ne (hne d hd) values
          constructor
          · exact fun h => ⟨hconforms, fun d hd => herase d hd ▸ h d hd⟩
          · exact fun h d hd => (herase d hd).symm ▸ h.2 d hd
        · by_cases hname : name = c.field.name
          · rw [hname, if_neg hnodup.1, if_pos List.mem_cons_self, hget, Entity.value?_put_self]
            rfl
          · rw [KeyMap.get?_erase_of_ne hname, Entity.value?_put_of_ne hname]
            simp only [List.mem_cons, hname, false_or]

/-- Columns fail with mismatches only. -/
theorem mismatch_of_take {columns : List Column} {values : List (String × Value)}
    {taken : Entity} {err : Error} (h : s.take columns values taken = .error err) :
    ∃ cause, err = .mismatch cause := by
  induction columns generalizing values taken with
  | nil => cases h
  | cons c rest ih =>
    rw [take] at h
    cases hget : KeyMap.get? c.field.name values with
    | none =>
      rw [hget] at h
      cases hrequired : c.required with
      | true =>
        simp only [hrequired, if_true, Except.error.injEq] at h
        exact ⟨_, h.symm⟩
      | false =>
        simp only [hrequired, Bool.false_eq_true, if_false] at h
        exact ih h
    | some v =>
      cases hextract : Value.extract c.shape v with
      | error cause =>
        simp only [hget, hextract, Except.error.injEq] at h
        exact ⟨_, h.symm⟩
      | ok x =>
        simp only [hget, hextract] at h
        exact ih h

/-! ### Building -/

/-- What is built is the entity of the schema that has under each field's name the value that was
read for the field. -/
theorem build_eq_ok_iff (hs : s.IsRegular) {e : Entity} :
    s.build read = .ok e ↔ e.IsOf s ∧ ∀ f ∈ s.fields, read f = .ok (e.value? f.name) := by
  have hnodup := hs.names
  rw [names_eq] at hnodup
  rw [build]
  constructor
  · intro h
    -- What the columns take is what was gathered, and that is what was read.
    cases hgather : s.gather read s.fields [] with
    | error err =>
      rw [hgather] at h
      cases h
    | ok values =>
      rw [hgather] at h
      obtain ⟨haccepted, hvalue⟩ := (take_eq_ok_iff hnodup hs.shapes).mp h
      simp only [Entity.value?_empty, Option.or_none, ← names_eq] at hvalue
      have hfield : ∀ f ∈ s.fields, e.value? f.name = KeyMap.get? f.name values := by
        intro f hf
        rw [hvalue, if_pos (List.mem_map_of_mem hf)]
      refine ⟨⟨fun c hc => ?_, fun name hname => ?_⟩, fun f hf => ?_⟩
      · rw [hfield _ (mem_fields.mpr ⟨c, hc, rfl⟩)]
        exact haccepted c hc
      · rw [hvalue, if_neg hname]
      · obtain ⟨v?, hread, hget⟩ := (gather_eq_ok hs.names hgather).1 f hf
        rw [hfield f hf, hread, hget, KeyMap.get?, Option.or_none]
  · rintro ⟨he, hread⟩
    -- All fields are read, so all values are there, and each column can take its own.
    obtain ⟨values, hgather⟩ := gather_ok (s := s) (fun f hf => ⟨_, hread f hf⟩) []
    have hget : ∀ f ∈ s.fields, KeyMap.get? f.name values = e.value? f.name := by
      intro f hf
      obtain ⟨v?, hv, hget⟩ := (gather_eq_ok hs.names hgather).1 f hf
      rw [hread f hf] at hv
      rw [hget, ← Except.ok.inj hv, KeyMap.get?, Option.or_none]
    rw [hgather]
    refine (take_eq_ok_iff hnodup hs.shapes).mpr ⟨fun c hc => ?_, fun name => ?_⟩
    · rw [hget _ (mem_fields.mpr ⟨c, hc, rfl⟩)]
      exact he.accepted c hc
    · rw [Entity.value?_empty, Option.or_none, ← names_eq]
      split
      · rename_i hname
        obtain ⟨f, hf, rfl⟩ := List.mem_map.mp hname
        exact (hget f hf).symm
      · rename_i hname
        exact he.declared name hname

/-- If the reader fails with mismatches only, so does the construction. -/
theorem mismatch_of_build
    (h : ∀ f ∈ s.fields, ∀ err, read f = .error err → ∃ cause, err = .mismatch cause)
    {err : Error} (herr : s.build read = .error err) : ∃ cause, err = .mismatch cause := by
  rw [build] at herr
  cases hgather : s.gather read s.fields [] with
  | error e =>
    rw [hgather] at herr
    cases herr
    exact mismatch_of_gather h hgather
  | ok values =>
    rw [hgather] at herr
    exact mismatch_of_take herr

end Schema

end RecordStore
