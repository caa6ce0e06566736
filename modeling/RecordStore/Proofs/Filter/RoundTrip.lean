import RecordStore.Filter.Description
import RecordStore.Proofs.Entity.Build
import RecordStore.Proofs.Filter.Constructible

/-!
# `RecordStore.Proofs.Filter.RoundTrip`: filters through their descriptions

A description says all that there is to know of a filter but for operands that are not finite:
these become `null`, alone or in a list. The first counts as a missing operand and the second is
refused in the list, so such a filter cannot be described, and no other filter comes out.

A description and its JSON form differ in one point: the JSON form cannot tell a `null` operand
from one that is missing. To the builder they are the same.

* `decode_toJson`, `buildJson_toJson`: descriptions through their JSON form.
* `build_describe`, `build_describe_eq_error`: filters through their descriptions.
* `descriptions_round_trip`: both.
-/

set_option autoImplicit false

namespace RecordStore

namespace Description

/-! ### Descriptions through their JSON form -/

mutual

/-- The description without operands that are `null`. -/
def withoutNull : Description → Description
  | .mk field operator value filters =>
    .mk field operator (value.bind decodeValue)
      (match filters with
        | none => none
        | some ds => some (withoutNullAll ds))

/-- The descriptions without operands that are `null`. -/
def withoutNullAll : List Description → List Description
  | [] => []
  | d :: rest => withoutNull d :: withoutNullAll rest

end

/-- The members of a written description, in key order. -/
theorem toJson_eq (field : Option String) (operator : String) (value : Option Json)
    (filters : Option (List Description)) :
    toJson (.mk field operator value filters) =
      .object ((field.toList.map fun name => ("field", .string name)) ++
        (filters.toList.map fun ds => ("filters", .array (toJsonAll ds))) ++
        [("operator", .string operator)] ++
        (value.toList.map fun raw => ("value", raw))) := by
  cases field <;> cases value <;> cases filters <;>
    simp only [toJson, Json.ofMembers, KeyMap.ofList, KeyMap.insert, Option.toList_none,
      Option.toList_some, List.map_nil, List.map_cons, List.nil_append, List.append_nil,
      List.cons_append, List.foldl_cons, List.foldl_nil, String.reduceEq, String.reduceLT,
      ↓reduceIte]

mutual

/-- From its JSON form a description is read without operands that are `null`. -/
theorem decode_toJson : (d : Description) → decode d.toJson = .ok d.withoutNull
  -- The members are met in key order, and each one that is there sets its own part.
  | .mk field operator value none => by
    rw [toJson_eq, decode, withoutNull]
    cases field <;> cases value <;> rfl
  | .mk field operator value (some ds) => by
    rw [toJson_eq, decode, withoutNull]
    have hfilters : decodeFilters (.array (toJsonAll ds)) = .ok (some (withoutNullAll ds)) := by
      rw [decodeFilters, decodeAll_toJsonAll ds]
    cases field <;> cases value <;>
      simp [decodeMembers, decodeOptionalText, decodeText, hfilters, Except.map, Partial.finish]

/-- From their JSON forms descriptions are read without operands that are `null`. -/
theorem decodeAll_toJsonAll : (ds : List Description) →
    decodeAll (toJsonAll ds) = .ok (withoutNullAll ds)
  | [] => rfl
  | d :: rest => by
    rw [toJsonAll, decodeAll, decode_toJson d, decodeAll_toJsonAll rest, withoutNullAll]

end

/-- An operand that is `null` is none. -/
theorem readValue_bind_decodeValue (field : Option Field) (value : Option Json) :
    readValue field (value.bind decodeValue) = readValue field value := by
  cases field with
  | none => rfl
  | some f =>
    cases value with
    | none => rfl
    | some raw => cases raw <;> rfl

mutual

/-- Without operands that are `null` a description stands for the same filter. -/
theorem build_withoutNull (s : Schema) : (d : Description) → build s d.withoutNull = build s d
  | .mk field operator value none => by
    simp only [withoutNull, build, buildLeaf, readValue_bind_decodeValue]
  | .mk field operator value (some ds) => by
    simp only [withoutNull, build, buildLeaf, readValue_bind_decodeValue,
      buildAll_withoutNullAll s ds]

/-- Without operands that are `null` descriptions stand for the same filters. -/
theorem buildAll_withoutNullAll (s : Schema) : (ds : List Description) →
    buildAll s (withoutNullAll ds) = buildAll s ds
  | [] => rfl
  | d :: rest => by
    rw [withoutNullAll, buildAll, build_withoutNull s d, buildAll_withoutNullAll s rest, buildAll]

end

/-- A description and its JSON form stand for the same filter, or are refused alike. -/
theorem buildJson_toJson (s : Schema) (d : Description) : buildJson s d.toJson = d.build s := by
  rw [buildJson, decode_toJson]
  exact build_withoutNull s d

end Description

namespace Filter

open RecordStore.Description (build buildAll buildLeaf buildJson readValue findField)

variable {s : Schema}

/-! ### Single conditions -/

/-- A condition on a field is built of the operator, the field's name and the written operand. -/
theorem build_describe_of_field? {f : Filter} {g : Field} (hg : f.field? = some g) :
    f.describe.build s = buildLeaf s f.operator (some g.name) (f.value?.map Value.toJson) := by
  cases f with
  | anyOf fs => cases hg
  | equal n f v =>
    cases hg
    cases n <;> simp only [describe, build, operator, Operator.ofWord?_word] <;> rfl
  | member n f vs =>
    cases hg
    cases n <;> simp only [describe, build, operator, Operator.ofWord?_word] <;> rfl
  | beyond side f v =>
    cases hg
    cases side <;> simp only [describe, build, operator, Operator.ofWord?_word] <;> rfl
  | present n f =>
    cases hg
    cases n <;> simp only [describe, build, operator, Operator.ofWord?_word] <;> rfl

/-- A declared condition whose operand fits and is finite, or that has none, is built again. -/
theorem build_describe_of_finite {f : Filter} {g : Field} (hg : f.field? = some g)
    (hfits : ∀ leaf ∈ f.leaves, leaf.fits = true) (hs : f.IsDeclared s)
    (hfin : f.isFinite = true) : f.describe.build s = .ok f := by
  have hmem := mem_leaves_of_field? hg
  rw [isFinite_of_field? hg] at hfin
  have hread : readValue (some g) (f.value?.map Value.toJson) = .ok f.value? := by
    cases hv : f.value? with
    | none => rfl
    | some v =>
      rw [hv] at hfin
      exact Value.ofJson_toJson (hasElements_of_fits (hfits f hmem) hg hv) hfin
  have hnew := new_parts (hfits f hmem)
  rw [hg, filters_of_field? hg] at hnew
  rw [build_describe_of_field? hg, buildLeaf, findField, hs f hmem g hg]
  simp only [hread, hnew]

/-- A declared condition whose operand fits but is not finite cannot be built again. -/
theorem build_describe_of_not_finite {f : Filter} {g : Field} (hg : f.field? = some g)
    (hfits : ∀ leaf ∈ f.leaves, leaf.fits = true) (hs : f.IsDeclared s)
    (hfin : f.isFinite = false) : ∃ e, f.describe.build s = .error e := by
  have hmem := mem_leaves_of_field? hg
  have hfit := hfits f hmem
  rw [isFinite_of_field? hg] at hfin
  rw [build_describe_of_field? hg, buildLeaf, findField, hs f hmem g hg]
  -- Alone the operand was written as `null`, which is read as no operand, and the operator needs
  -- one. In a list it was written as an item `null`, which is not read at all.
  cases f with
  | anyOf fs => cases hg
  | equal n f v =>
    cases hg
    have hread : readValue (some g) ((Filter.equal n g v).value?.map Value.toJson) = .ok none :=
      Value.ofJson_toJson_of_isScalar hfit hfin
    simp only [hread]
    cases n <;> exact ⟨_, rfl⟩
  | member n f vs =>
    cases hg
    have hread : readValue (some g) ((Filter.member n g vs).value?.map Value.toJson) =
        .error (.mismatch (.nullItem g.type.element)) :=
      Value.ofJson_toJson_of_list (hasElements_of_fits hfit rfl rfl) hfin
    simp only [hread]
    exact ⟨_, rfl⟩
  | beyond side f v =>
    cases hg
    rw [fits, Bool.and_eq_true, Bool.and_eq_true, Bool.not_eq_true'] at hfit
    have hread : readValue (some g) ((Filter.beyond side g v).value?.map Value.toJson) = .ok none :=
      Value.ofJson_toJson_of_isScalar hfit.2 hfin
    simp only [hread]
    cases side <;>
      simp [operator, Filter.new, newBeyond, needField, needValue, hfit.1.1, hfit.1.2, bind,
        Except.bind]
  | present n f => cases hfin

/-! ### Filters through their descriptions -/

mutual

/-- A declared filter with finite operands that fit is built again. -/
theorem build_describe : (f : Filter) → (∀ leaf ∈ f.leaves, leaf.fits = true) →
    f.IsDeclared s → f.isFinite = true → f.describe.build s = .ok f
  | .equal _ _ _, hfits, hs, hfin => build_describe_of_finite rfl hfits hs hfin
  | .member _ _ _, hfits, hs, hfin => build_describe_of_finite rfl hfits hs hfin
  | .beyond _ _ _, hfits, hs, hfin => build_describe_of_finite rfl hfits hs hfin
  | .present _ _, hfits, hs, hfin => build_describe_of_finite rfl hfits hs hfin
  | .anyOf fs, hfits, hs, hfin => by
    have hall := buildAll_describeAll fs hfits hs hfin
    simp only [describe, build, Operator.ofWord?_word, hall]

/-- Declared filters with finite operands that fit are built again. -/
theorem buildAll_describeAll : (fs : List Filter) → (∀ leaf ∈ leavesAll fs, leaf.fits = true) →
    (Filter.anyOf fs).IsDeclared s → (Filter.anyOf fs).isFinite = true →
    buildAll s (describeAll fs) = .ok fs
  | [], _, _, _ => rfl
  | f :: rest, hfits, hs, hfin => by
    rw [isFinite, leaves, leavesAll, List.all_append, Bool.and_eq_true] at hfin
    have hfirst := build_describe f (fun leaf h => hfits leaf (List.mem_append_left _ h))
      (fun leaf h => hs leaf (List.mem_append_left _ h)) hfin.1
    have hrest := buildAll_describeAll rest (fun leaf h => hfits leaf (List.mem_append_right _ h))
      (fun leaf h => hs leaf (List.mem_append_right _ h)) hfin.2
    rw [describeAll, buildAll, hfirst, hrest]

end

mutual

/-- A declared filter of operands that fit, of which some is not finite, cannot be built again. -/
theorem build_describe_eq_error : (f : Filter) → (∀ leaf ∈ f.leaves, leaf.fits = true) →
    f.IsDeclared s → f.isFinite = false → ∃ e, f.describe.build s = .error e
  | .equal _ _ _, hfits, hs, hfin => build_describe_of_not_finite rfl hfits hs hfin
  | .member _ _ _, hfits, hs, hfin => build_describe_of_not_finite rfl hfits hs hfin
  | .beyond _ _ _, hfits, hs, hfin => build_describe_of_not_finite rfl hfits hs hfin
  | .present _ _, hfits, hs, hfin => build_describe_of_not_finite rfl hfits hs hfin
  | .anyOf fs, hfits, hs, hfin => by
    obtain ⟨e, he⟩ := buildAll_describeAll_eq_error fs hfits hs hfin
    exact ⟨e, by simp only [describe, build, Operator.ofWord?_word, he]⟩

/-- Declared filters of operands that fit, of which some is not finite, cannot be built again. -/
theorem buildAll_describeAll_eq_error : (fs : List Filter) →
    (∀ leaf ∈ leavesAll fs, leaf.fits = true) → (Filter.anyOf fs).IsDeclared s →
    (Filter.anyOf fs).isFinite = false → ∃ e, buildAll s (describeAll fs) = .error e
  | [], _, _, hfin => nomatch hfin
  | f :: rest, hfits, hs, hfin => by
    rw [isFinite, leaves, leavesAll, List.all_append, Bool.and_eq_false_iff] at hfin
    rw [describeAll, buildAll]
    -- The first error is the one of the whole, wherever the operand stands.
    cases hbuild : f.describe.build s with
    | error e => exact ⟨e, rfl⟩
    | ok f' =>
      rcases hfin with hfin | hfin
      · obtain ⟨e, he⟩ := build_describe_eq_error f
          (fun leaf h => hfits leaf (List.mem_append_left _ h))
          (fun leaf h => hs leaf (List.mem_append_left _ h)) hfin
        rw [he] at hbuild
        cases hbuild
      · obtain ⟨e, he⟩ := buildAll_describeAll_eq_error rest
          (fun leaf h => hfits leaf (List.mem_append_right _ h))
          (fun leaf h => hs leaf (List.mem_append_right _ h)) hfin
        exact ⟨e, by simp only [he]⟩

end

/-- A declared filter that was made is built again from its description, and from the JSON form of
the description, if all its operands are finite. If some operand is not, both are refused. -/
theorem descriptions_round_trip {f : Filter} (hf : f.Constructible) (hs : f.IsDeclared s) :
    (f.isFinite = true → f.describe.build s = .ok f ∧ buildJson s f.describe.toJson = .ok f) ∧
    (f.isFinite = false → (∃ e, f.describe.build s = .error e) ∧
      ∃ e, buildJson s f.describe.toJson = .error e) := by
  rw [Description.buildJson_toJson, and_self, and_self]
  have hfits := fits_of_constructible hf
  exact ⟨build_describe f hfits hs, build_describe_eq_error f hfits hs⟩

/-- Weather above a temperature or with one of two gusts, the second of them a number or not. -/
theorem descriptions_round_trip_weather :
    let celsius : Field := ⟨"celsius", .scalar .float, some "temp_c", none⟩
    let gusts : Field := ⟨"gusts", .list .float, none, none⟩
    let zero : Value := .float ⟨false, 0, by decide⟩
    let nan : Value := .float ⟨false, 0x7FF8000000000000, by decide⟩
    let rough : Value → Filter := fun v =>
      .anyOf [.beyond .above celsius zero, .anyOf [.member true gusts [zero, v]]]
    (rough zero).describe.build .weather = .ok (rough zero) ∧
    buildJson .weather (rough zero).describe.toJson = .ok (rough zero) ∧
    (∃ e, (rough nan).describe.build .weather = .error e) ∧
    ∃ e, buildJson .weather (rough nan).describe.toJson = .error e := by
  intro celsius gusts zero nan rough
  have hzero := descriptions_round_trip (s := .weather) (f := rough zero) (by decide) (by decide)
  have hnan := descriptions_round_trip (s := .weather) (f := rough nan) (by decide) (by decide)
  exact ⟨(hzero.1 (by decide)).1, (hzero.1 (by decide)).2, (hnan.2 (by decide)).1,
    (hnan.2 (by decide)).2⟩

end Filter

end RecordStore
