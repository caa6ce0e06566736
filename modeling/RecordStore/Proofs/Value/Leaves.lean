import RecordStore.Proofs.Value.Shape

/-!
# `RecordStore.Proofs.Value.Leaves`: reading leaf by leaf

The leaves of a JSON value are what stands in it at any depth of arrays and is no array itself,
from left to right. Reading a value is reading its leaves, one after the other, as if they were
the items of one array; the arrays around them become lists and have no say in it. So the value
has the nesting of the JSON value and the scalars of its leaves, and the first leaf that cannot be
read decides the error.

* `nesting_of_readItem`: lists are nested as the arrays were.
* `map_leaves_readItem`: the leaves of what is read are the leaves, read one after the other.
* `eq_of_nesting_of_leaves`: the nesting and the leaves determine a value.
* `readItems_eq_error_iff`: the first item that cannot be read decides.
* `ofJson_by_leaves`: all of it, for every field type and every JSON value.
-/

set_option autoImplicit false

namespace RecordStore

open RecordStore.Text

/-! ### Nesting and leaves -/

/-- How lists are nested in a value, or arrays in a JSON value:

- `leaf`: no list;
- `list`: a list of what is nested in these ways. -/
inductive Nesting where
  | leaf
  | list (items : List Nesting)

namespace Json

mutual

/-- How arrays are nested in the value. -/
def nesting : Json → Nesting
  | .array items => .list (nestings items)
  | _ => .leaf

/-- How arrays are nested in each value. -/
def nestings : List Json → List Nesting
  | [] => []
  | raw :: rest => nesting raw :: nestings rest

end

mutual

/-- What stands in the value and is no array, from left to right. -/
def leaves : Json → List Json
  | .array items => leavesAll items
  | raw => [raw]

/-- What stands in the values and is no array, from left to right. -/
def leavesAll : List Json → List Json
  | [] => []
  | raw :: rest => leaves raw ++ leavesAll rest

end

/-- The only leaf of what is no array is no array. -/
theorem ne_array_of_mem_singleton {raw leaf : Json} (h : leaf ∈ [raw])
    (hraw : ∀ items, raw ≠ .array items) : ∀ items, leaf ≠ .array items := by
  rw [List.mem_singleton.mp h]
  exact hraw

mutual

/-- A leaf is no array. -/
theorem ne_array_of_mem_leaves : {raw leaf : Json} → leaf ∈ raw.leaves →
    ∀ items, leaf ≠ .array items
  | .array _, _, h => ne_array_of_mem_leavesAll h
  | .null, _, h => ne_array_of_mem_singleton h nofun
  | .bool _, _, h => ne_array_of_mem_singleton h nofun
  | .int _, _, h => ne_array_of_mem_singleton h nofun
  | .float _, _, h => ne_array_of_mem_singleton h nofun
  | .string _, _, h => ne_array_of_mem_singleton h nofun
  | .object _, _, h => ne_array_of_mem_singleton h nofun

/-- A leaf of one of several values is no array. -/
theorem ne_array_of_mem_leavesAll : {raws : List Json} → {leaf : Json} →
    leaf ∈ leavesAll raws → ∀ items, leaf ≠ .array items
  | [], _, h => by cases h
  | _ :: _, _, h => by
    rcases List.mem_append.mp h with hfirst | hrest
    · exact ne_array_of_mem_leaves hfirst
    · exact ne_array_of_mem_leavesAll hrest

end

end Json

namespace Value

mutual

/-- How lists are nested in the value. -/
def nesting : Value → Nesting
  | .list items => .list (nestings items)
  | _ => .leaf

/-- How lists are nested in each value. -/
def nestings : List Value → List Nesting
  | [] => []
  | v :: rest => nesting v :: nestings rest

end

mutual

/-- The scalars in the value, from left to right. -/
def leaves : Value → List Value
  | .list items => leavesAll items
  | v => [v]

/-- The scalars in the values, from left to right. -/
def leavesAll : List Value → List Value
  | [] => []
  | v :: rest => leaves v ++ leavesAll rest

end

/-- A value without lists is its only leaf. -/
theorem leaves_of_nesting {v : Value} (h : v.nesting = .leaf) : v.leaves = [v] := by
  cases v with
  | list items => cases h
  | string | integer | float | boolean | dateTime => rfl

/-- A scalar has no lists in it. -/
theorem nesting_of_isScalar {t : ScalarType} {v : Value} (h : v.isScalar t = true) :
    v.nesting = .leaf := by
  cases v with
  | list items => cases h
  | string | integer | float | boolean | dateTime => rfl

/-- Two values without lists that begin two lists of leaves. -/
theorem eq_of_nesting_leaf {v w : Value} {r s : List Value} (hv : v.nesting = .leaf)
    (hnesting : v.nesting = w.nesting) (hleaves : v.leaves ++ r = w.leaves ++ s) :
    v = w ∧ r = s := by
  rw [leaves_of_nesting hv, leaves_of_nesting (hnesting.symm.trans hv)] at hleaves
  exact List.cons.inj hleaves

mutual

/-- A value can be told from its nesting and from any list of leaves that begins with its own. -/
theorem eq_of_leaves_append : {v w : Value} → {r s : List Value} → v.nesting = w.nesting →
    v.leaves ++ r = w.leaves ++ s → v = w ∧ r = s
  | .list vs, w, r, s, hnesting, hleaves => by
    cases w with
    | list ws =>
      have hnestings : nestings vs = nestings ws := Nesting.list.inj hnesting
      obtain ⟨rfl, hrest⟩ := eq_of_leavesAll_append hnestings hleaves
      exact ⟨rfl, hrest⟩
    | string | integer | float | boolean | dateTime => cases hnesting
  | .string _, _, _, _, hnesting, hleaves => eq_of_nesting_leaf rfl hnesting hleaves
  | .integer _, _, _, _, hnesting, hleaves => eq_of_nesting_leaf rfl hnesting hleaves
  | .float _, _, _, _, hnesting, hleaves => eq_of_nesting_leaf rfl hnesting hleaves
  | .boolean _, _, _, _, hnesting, hleaves => eq_of_nesting_leaf rfl hnesting hleaves
  | .dateTime _, _, _, _, hnesting, hleaves => eq_of_nesting_leaf rfl hnesting hleaves

/-- Values can be told from their nesting and from any list of leaves that begins with theirs. -/
theorem eq_of_leavesAll_append : {vs ws : List Value} → {r s : List Value} →
    nestings vs = nestings ws → leavesAll vs ++ r = leavesAll ws ++ s → vs = ws ∧ r = s
  | [], [], _, _, _, hleaves => ⟨rfl, hleaves⟩
  | [], _ :: _, _, _, hnestings, _ => by cases hnestings
  | _ :: _, [], _, _, hnestings, _ => by cases hnestings
  | v :: vs, w :: ws, r, s, hnestings, hleaves => by
    obtain ⟨hfirst, hrest⟩ := List.cons.inj hnestings
    rw [leavesAll, leavesAll, List.append_assoc, List.append_assoc] at hleaves
    -- The leaves of the first value end where those of the rest begin.
    obtain ⟨rfl, hbehind⟩ := eq_of_leaves_append hfirst hleaves
    obtain ⟨rfl, hend⟩ := eq_of_leavesAll_append hrest hbehind
    exact ⟨rfl, hend⟩

end

/-- The nesting and the leaves determine a value. -/
theorem eq_of_nesting_of_leaves {v w : Value} (hnesting : v.nesting = w.nesting)
    (hleaves : v.leaves = w.leaves) : v = w := by
  have happend : v.leaves ++ [] = w.leaves ++ [] := by rw [hleaves]
  exact (eq_of_leaves_append hnesting happend).1

/-! ### Reading keeps the nesting -/

mutual

/-- A value that is read has lists where there were arrays. -/
theorem nesting_of_readItem {t : ScalarType} : {raw : Json} → {v : Value} →
    readItem t raw = .ok v → v.nesting = raw.nesting
  | .null, _, h => by cases h
  | .array _, _, h => by
    obtain ⟨vs, hvs, rfl⟩ := readItem_array_eq_ok_iff.mp h
    rw [nesting, Json.nesting, nestings_of_readItems hvs]
  | .bool _, _, h => nesting_of_isScalar (isScalar_of_readScalar h).1
  | .int _, _, h => nesting_of_isScalar (isScalar_of_readScalar h).1
  | .float _, _, h => nesting_of_isScalar (isScalar_of_readScalar h).1
  | .string _, _, h => nesting_of_isScalar (isScalar_of_readScalar h).1
  | .object _, _, h => nesting_of_isScalar (isScalar_of_readScalar h).1

/-- Values that are read have lists where there were arrays. -/
theorem nestings_of_readItems {t : ScalarType} : {raws : List Json} → {vs : List Value} →
    readItems t raws = .ok vs → nestings vs = Json.nestings raws
  | [], _, h => by
    cases h
    rfl
  | _ :: _, _, h => by
    obtain ⟨v, vs, rfl, hv, hvs⟩ := readItems_cons_eq_ok_iff.mp h
    rw [nestings, Json.nestings, nesting_of_readItem hv, nestings_of_readItems hvs]

end

/-! ### Reading goes from leaf to leaf -/

/-- Items that stand one behind the other are read one after the other. -/
theorem readItems_append (t : ScalarType) (xs ys : List Json) :
    readItems t (xs ++ ys)
      = (readItems t xs).bind fun vs => (readItems t ys).map fun ws => vs ++ ws := by
  induction xs with
  | nil =>
    show readItems t ys = (readItems t ys).map fun ws => ws
    cases readItems t ys with
    | error e => rfl
    | ok ws => rfl
  | cons x rest ih =>
    rw [List.cons_append, readItems, readItems, ih]
    cases readItem t x with
    | error e => rfl
    | ok v =>
      cases readItems t rest with
      | error e => rfl
      | ok vs =>
        cases readItems t ys with
        | error e => rfl
        | ok ws => rfl

/-- One item by itself. -/
theorem readItems_singleton (t : ScalarType) (raw : Json) :
    readItems t [raw] = (readItem t raw).map fun v => [v] := by
  rw [readItems]
  cases readItem t raw with
  | error e => rfl
  | ok v => rfl

/-- What is read from a JSON value that is no array is its own only leaf. -/
theorem map_leaves_readScalar (t : ScalarType) (raw : Json) :
    (readScalar t raw).map leaves = (readScalar t raw).map fun v => [v] := by
  cases h : readScalar t raw with
  | error e => rfl
  | ok v =>
    have hleaves := leaves_of_nesting (nesting_of_isScalar (isScalar_of_readScalar h).1)
    rw [Except.map, Except.map, hleaves]

mutual

/-- The leaves of what is read are the leaves of the JSON value, read one after the other; and if
one of them cannot be read there is the same error. -/
theorem map_leaves_readItem (t : ScalarType) : (raw : Json) →
    (readItem t raw).map leaves = readItems t raw.leaves
  | .null => rfl
  | .array items => by
    rw [readItem_array, Json.leaves, ← map_leavesAll_readItems t items]
    cases readItems t items with
    | error e => rfl
    | ok vs => rfl
  | .bool b => (map_leaves_readScalar t (.bool b)).trans (readItems_singleton t (.bool b)).symm
  | .int n => (map_leaves_readScalar t (.int n)).trans (readItems_singleton t (.int n)).symm
  | .float x => (map_leaves_readScalar t (.float x)).trans (readItems_singleton t (.float x)).symm
  | .string s =>
    (map_leaves_readScalar t (.string s)).trans (readItems_singleton t (.string s)).symm
  | .object members =>
    (map_leaves_readScalar t (.object members)).trans (readItems_singleton t (.object members)).symm

/-- The leaves of the values that are read are the leaves of the JSON values, read one after the
other. -/
theorem map_leavesAll_readItems (t : ScalarType) : (raws : List Json) →
    (readItems t raws).map leavesAll = readItems t (Json.leavesAll raws)
  | [] => rfl
  | raw :: rest => by
    rw [Json.leavesAll, readItems_append, ← map_leaves_readItem t raw,
      ← map_leavesAll_readItems t rest, readItems]
    cases readItem t raw with
    | error e => rfl
    | ok v =>
      cases readItems t rest with
      | error e => rfl
      | ok vs => rfl

end

/-- Items cannot be read if one of them cannot, and the first such item decides the error. -/
theorem readItems_eq_error_iff {t : ScalarType} {raws : List Json} {e : Error} :
    readItems t raws = .error e ↔ ∃ before raw after, raws = before ++ raw :: after ∧
      (∀ other ∈ before, ∃ v, readItem t other = .ok v) ∧ readItem t raw = .error e := by
  constructor
  · intro h
    have hcases : ∀ raw ∈ raws, (∃ v, readItem t raw = .ok v) ∨ ∃ e, readItem t raw = .error e := by
      intro raw _
      cases hraw : readItem t raw with
      | error e => exact .inr ⟨e, rfl⟩
      | ok v => exact .inl ⟨v, rfl⟩
    rcases all_or_first hcases with hall | ⟨before, raw, after, e', rfl, hbefore, hraw⟩
    · obtain ⟨vs, hvs⟩ := exists_readItems_iff.mpr hall
      rw [hvs] at h
      cases h
    · refine ⟨before, raw, after, rfl, hbefore, ?_⟩
      obtain ⟨vs, hvs⟩ := exists_readItems_iff.mpr hbefore
      rw [readItems_append, hvs, readItems, hraw] at h
      cases h
      exact hraw
  · rintro ⟨before, raw, after, rfl, hbefore, hraw⟩
    obtain ⟨vs, hvs⟩ := exists_readItems_iff.mpr hbefore
    rw [readItems_append, hvs, readItems, hraw]
    rfl

/-! ### One leaf -/

/-- The scalar of type `t` that a leaf represents; `null` represents none. -/
def scalar? : ScalarType → Json → Option Value
  | .string, leaf => (string? leaf).map .string
  | .integer, leaf => (integer? leaf).map .integer
  | .float, leaf => (double? leaf).map .float
  | .boolean, leaf => (truth? leaf).map .boolean
  | .dateTime, .string s => (Calendar.DateTime.ofTrimmed? (trim s.toList)).map .dateTime
  | .dateTime, _ => none

/-- The error for a leaf that represents no scalar of type `t`. -/
def leafError : ScalarType → Json → Error
  | t, .null => .mismatch (.nullItem t)
  | .dateTime, .string s => .notDateTime (String.ofList (trim s.toList))
  | t, leaf => .mismatch (.unreadable leaf t)

/-- What is not `null` is unreadable as a type other than the date-times. -/
theorem leafError_of_ne {t : ScalarType} {leaf : Json} (ht : t ≠ .dateTime)
    (hnull : leaf ≠ .null) : leafError t leaf = .mismatch (.unreadable leaf t) := by
  cases leaf with
  | null => exact absurd rfl hnull
  | string s =>
    cases t with
    | dateTime => exact absurd rfl ht
    | string | integer | float | boolean => rfl
  | bool | int | float | array | object => cases t <;> rfl

/-- A reader of scalars other than date-times refuses with the error for the leaf. -/
theorem orUnreadable_eq {t : ScalarType} {leaf : Json} (ht : t ≠ .dateTime) (hnull : leaf ≠ .null)
    (v? : Option Value) :
    orUnreadable leaf t v? = v?.elim (.error (leafError t leaf)) .ok := by
  rw [leafError_of_ne ht hnull]
  cases v? with
  | none => rfl
  | some v => rfl

/-- What is not `null` is read as the scalar that it represents, and else it is refused. -/
theorem readScalar_eq_scalar? (t : ScalarType) {leaf : Json} (hnull : leaf ≠ .null) :
    readScalar t leaf = (scalar? t leaf).elim (.error (leafError t leaf)) .ok := by
  cases t with
  | string => exact orUnreadable_eq (by decide) hnull _
  | integer => exact orUnreadable_eq (by decide) hnull _
  | float => exact orUnreadable_eq (by decide) hnull _
  | boolean => exact orUnreadable_eq (by decide) hnull _
  | dateTime =>
    cases leaf with
    | string s =>
      rw [readScalar, readDateTime, scalar?]
      cases Calendar.DateTime.ofTrimmed? (trim s.toList) with
      | none => rfl
      | some d => rfl
    | null => exact absurd rfl hnull
    | bool | int | float | array | object => rfl

/-- A leaf is read as the scalar that it represents, and else it is refused. -/
theorem readItem_eq_scalar? (t : ScalarType) {leaf : Json} (h : ∀ items, leaf ≠ .array items) :
    readItem t leaf = (scalar? t leaf).elim (.error (leafError t leaf)) .ok := by
  by_cases hnull : leaf = .null
  · subst hnull
    cases t <;> rfl
  · rw [readItem_eq_readScalar hnull h, readScalar_eq_scalar? t hnull]

/-- A leaf is read if it represents a scalar. -/
theorem readItem_eq_ok_iff_scalar? {t : ScalarType} {leaf : Json}
    (h : ∀ items, leaf ≠ .array items) {v : Value} :
    readItem t leaf = .ok v ↔ scalar? t leaf = some v := by
  rw [readItem_eq_scalar? t h]
  cases scalar? t leaf with
  | none => simp
  | some w => simp

/-- A leaf is refused if it represents no scalar. -/
theorem readItem_eq_error_iff_scalar? {t : ScalarType} {leaf : Json}
    (h : ∀ items, leaf ≠ .array items) {e : Error} :
    readItem t leaf = .error e ↔ scalar? t leaf = none ∧ e = leafError t leaf := by
  rw [readItem_eq_scalar? t h]
  cases scalar? t leaf with
  | none => simp [eq_comm]
  | some w => simp

/-! ### All leaves -/

/-- Leaves are read if each one represents a scalar. -/
theorem readItems_eq_ok_iff_scalar? {t : ScalarType} {raws : List Json}
    (h : ∀ raw ∈ raws, ∀ items, raw ≠ .array items) {vs : List Value} :
    readItems t raws = .ok vs ↔
      List.Forall₂ (fun leaf scalar => scalar? t leaf = some scalar) raws vs := by
  induction raws generalizing vs with
  | nil => rw [readItems, Except.ok.injEq, List.forall₂_nil_left_iff, eq_comm]
  | cons raw rest ih =>
    obtain ⟨hraw, hrest⟩ := List.forall_mem_cons.mp h
    simp only [readItems_cons_eq_ok_iff, readItem_eq_ok_iff_scalar? hraw, ih hrest,
      List.forall₂_cons_left_iff]
    constructor
    · rintro ⟨v, vs, rfl, hv, hvs⟩
      exact ⟨v, vs, hv, hvs, rfl⟩
    · rintro ⟨v, vs, hv, hvs, rfl⟩
      exact ⟨v, vs, rfl, hv, hvs⟩

/-- A value is read from a JSON value if it is nested in the same way and its scalars are those
that the leaves represent. -/
theorem readItem_eq_ok_iff {t : ScalarType} {raw : Json} {v : Value} :
    readItem t raw = .ok v ↔ v.nesting = raw.nesting ∧
      List.Forall₂ (fun leaf scalar => scalar? t leaf = some scalar) raw.leaves v.leaves := by
  have hleaves := map_leaves_readItem t raw
  rw [← readItems_eq_ok_iff_scalar? fun _ h => Json.ne_array_of_mem_leaves h, ← hleaves,
    map_eq_ok_iff]
  constructor
  · intro h
    exact ⟨nesting_of_readItem h, v, h, rfl⟩
  · rintro ⟨hnesting, w, hw, heq⟩
    rw [hw, eq_of_nesting_of_leaves ((nesting_of_readItem hw).trans hnesting.symm) heq]

/-- The first leaf that represents no scalar is `leaf`, and `e` is the error for it. -/
def IsFirstFault (t : ScalarType) (leaves : List Json) (e : Error) : Prop :=
  ∃ before leaf after, leaves = before ++ leaf :: after ∧
    (∀ other ∈ before, (scalar? t other).isSome = true) ∧
    scalar? t leaf = none ∧ e = leafError t leaf

/-- A JSON value is refused if one of its leaves represents no scalar, with the error for the
first such leaf. -/
theorem readItem_eq_error_iff {t : ScalarType} {raw : Json} {e : Error} :
    readItem t raw = .error e ↔ IsFirstFault t raw.leaves e := by
  have hleaves : readItem t raw = .error e ↔ readItems t raw.leaves = .error e := by
    rw [← map_leaves_readItem]
    cases readItem t raw with
    | error e' => simp [Except.map]
    | ok v => simp [Except.map]
  rw [hleaves, readItems_eq_error_iff]
  refine exists_congr fun before => exists_congr fun leaf => exists_congr fun after =>
    and_congr_right fun heq => ?_
  have hmem : ∀ other ∈ before ++ leaf :: after, ∀ items, other ≠ .array items := by
    rw [← heq]
    exact fun _ h => Json.ne_array_of_mem_leaves h
  obtain ⟨hbefore, hrest⟩ := List.forall_mem_append.mp hmem
  rw [readItem_eq_error_iff_scalar? (List.forall_mem_cons.mp hrest).1]
  refine and_congr_left' (forall₂_congr fun other hother => ?_)
  simp only [readItem_eq_ok_iff_scalar? (hbefore other hother), Option.isSome_iff_exists]

/-! ### Values of fields -/

/-- What is read at a type is refused, by itself as inside an array, unless it is `null`. -/
theorem ofJson_eq_error_iff {type : FieldType} {raw : Json} {e : Error} :
    ofJson type raw = .error e ↔ raw ≠ .null ∧ readItem type.element raw = .error e := by
  by_cases hnull : raw = .null
  · subst hnull
    exact iff_of_false nofun fun h => h.1 rfl
  · rw [ofJson_of_ne_null hnull, and_iff_right hnull]
    cases readItem type.element raw with
    | error e' => simp [Except.map]
    | ok v => simp [Except.map]

/-- The type of the field counts only by the type of its elements. -/
theorem ofJson_eq_of_element_eq {type other : FieldType} (h : other.element = type.element)
    (raw : Json) : ofJson other raw = ofJson type raw := by
  by_cases hnull : raw = .null
  · subst hnull
    rfl
  · rw [ofJson_of_ne_null hnull, ofJson_of_ne_null hnull, h]

/-- A scalar that a leaf represents is of the type and finite. -/
theorem isScalar_of_scalar? {t : ScalarType} {leaf : Json} {v : Value}
    (h : scalar? t leaf = some v) : v.isScalar t = true ∧ v.isFinite = true := by
  by_cases hnull : leaf = .null
  · subst hnull
    cases t <;> cases h
  · have hread : readScalar t leaf = .ok v := by
      rw [readScalar_eq_scalar? t hnull, h]
      rfl
    exact isScalar_of_readScalar hread

/-- No leaf is refused as an array that is read as no value. -/
theorem leafError_ne_emptyNested (t : ScalarType) (leaf : Json) :
    leafError t leaf ≠ .mismatch .emptyNested := by
  cases leaf <;> cases t <;> simp [leafError]

/-- Reading keeps the nesting of arrays and goes from leaf to leaf: a value is read, with the
nesting of the JSON value and the scalars that its leaves represent, if every leaf represents one;
and else the first leaf that does not decides the error. Only `null` by itself is read as no
value. -/
theorem ofJson_by_leaves (type : FieldType) (raw : Json) :
    (∀ other : FieldType, other.element = type.element → ofJson other raw = ofJson type raw) ∧
    (ofJson type raw = .ok none ↔ raw = .null) ∧
    (∀ v, ofJson type raw = .ok (some v) ↔ v.nesting = raw.nesting ∧
      List.Forall₂ (fun leaf scalar => scalar? type.element leaf = some scalar)
        raw.leaves v.leaves) ∧
    (∀ v, ofJson type raw = .ok (some v) →
      ∀ leaf ∈ v.leaves, leaf.isScalar type.element = true ∧ leaf.isFinite = true) ∧
    (∀ e, ofJson type raw = .error e ↔
      raw ≠ .null ∧ IsFirstFault type.element raw.leaves e) ∧
    ofJson type raw ≠ .error (.mismatch .emptyNested) := by
  have hok : ∀ v, ofJson type raw = .ok (some v) ↔ v.nesting = raw.nesting ∧
      List.Forall₂ (fun leaf scalar => scalar? type.element leaf = some scalar)
        raw.leaves v.leaves := by
    intro v
    rw [ofJson_eq_ok_some_iff, readItem_eq_ok_iff]
  have herror : ∀ e, ofJson type raw = .error e ↔
      raw ≠ .null ∧ IsFirstFault type.element raw.leaves e := by
    intro e
    rw [ofJson_eq_error_iff, readItem_eq_error_iff]
  refine ⟨fun other h => ofJson_eq_of_element_eq h raw, ofJson_eq_ok_none_iff, hok, ?_, herror,
    ?_⟩
  · intro v hv scalar hscalar
    obtain ⟨leaf, -, hleaf⟩ := exists_mem_of_forall₂ ((hok v).mp hv).2 hscalar
    exact isScalar_of_scalar? hleaf
  · intro h
    obtain ⟨-, before, leaf, after, -, -, -, heq⟩ := (herror _).mp h
    exact leafError_ne_emptyNested _ _ heq.symm

/-- Nested arrays with an empty one are read as nested lists, for a list type as for the type of
its elements; and of two leaves that are no whole numbers the first decides, though it stands
deeper than the other. -/
theorem ofJson_by_leaves_nested :
    let good : Json := .array [.array [.int 1, .string " 2 "], .array [], .string "-3"]
    let bad : Json := .array [.array [.int 1, .array [.bool true]], .null]
    let v : Value := .list [.list [.integer 1, .integer 2], .list [], .integer (-3)]
    ofJson (.list .integer) good = ofJson (.scalar .integer) good ∧
    ofJson (.scalar .integer) good = .ok (some v) ∧
    (∀ leaf ∈ v.leaves, leaf.isScalar .integer = true ∧ leaf.isFinite = true) ∧
    ofJson (.scalar .integer) bad = .error (.mismatch (.unreadable (.bool true) .integer)) := by
  intro good bad v
  obtain ⟨hother, -, hok, hleaves, -, -⟩ := ofJson_by_leaves (.scalar .integer) good
  have hread : ofJson (.scalar .integer) good = .ok (some v) :=
    (hok v).mpr ⟨rfl, .cons rfl (.cons rfl (.cons rfl .nil))⟩
  have herror := (ofJson_by_leaves (.scalar .integer) bad).2.2.2.2.1
  refine ⟨hother (.list .integer) rfl, hread, hleaves v hread, (herror _).mpr ⟨nofun, ?_⟩⟩
  refine ⟨[.int 1], .bool true, [.null], rfl, ?_, rfl, rfl⟩
  intro other hother
  rw [List.mem_singleton.mp hother]
  rfl

end Value

end RecordStore
