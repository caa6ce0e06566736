import RecordStore.Proofs.Outcome
import RecordStore.Proofs.Value.RoundTrip
import RecordStore.Value.Coercion

/-!
# `RecordStore.Proofs.Value.Coercion`: coercion is reading of the written form

To bring a value to a type is to write it as JSON and to read that at the type, except that what
is read has to conform. The three ways that `coerce` takes agree in this as long as all doubles
are finite, since no value is then written as `null`: a value that conforms is read back as it
is, the items of a list are read one by one, and all else is read as a whole.

A double that is not finite is written as `null`, and that is read as absent. So it is kept where
it conforms, and brought to no other type; in a list of doubles it leaves the other items alone.

* `coerceWhole_eq_ok_iff_or`: what keeping or reading as a whole can do.
* `coerceItems_eq_ok_iff_forall₂`: the items of a list, one by one.
* `coerce_eq_ok_iff`: every value that is finite.
* `coerce_eq_ok_iff_of_not_isFinite`: every other value.
* `coerce_exact`: both.
-/

set_option autoImplicit false

namespace RecordStore.Value

/-- To conform to a type that is no list type is to be a scalar of it. -/
theorem conformsTo_scalar (t : ScalarType) (v : Value) :
    v.conformsTo (.scalar t) = v.isScalar t := by
  cases v <;> rfl

/-- What is not `null` is read as what it is inside an array. -/
theorem ofJson_eq_ok_some_iff {type : FieldType} {raw : Json} {v : Value} :
    ofJson type raw = .ok (some v) ↔ readItem type.element raw = .ok v := by
  by_cases hnull : raw = .null
  · subst hnull
    exact iff_of_false nofun nofun
  · simp [ofJson_of_ne_null hnull, map_eq_ok_iff]

/-- A written value that is finite is never read as absent. -/
theorem ofJson_toJson_eq_ok_iff {type : FieldType} {v : Value} (hfin : v.isFinite = true)
    {w? : Option Value} :
    ofJson type v.toJson = .ok w? ↔ ∃ w, readItem type.element v.toJson = .ok w ∧ some w = w? := by
  rw [ofJson_of_ne_null (toJson_ne_null hfin), map_eq_ok_iff]

/-- A value that has to conform is there if it does. -/
theorem fitted_eq_ok_iff {type : FieldType} {v w : Value} :
    fitted type v = .ok w ↔ v.conformsTo type = true ∧ v = w := by
  rw [fitted]
  cases v.conformsTo type <;> simp

/-- A value that conforms is kept, and any other becomes what its written form is read as, if that
conforms. -/
theorem coerceWhole_eq_ok_iff_or {type : FieldType} {v w : Value} :
    coerceWhole type v = .ok w ↔ v.conformsTo type = true ∧ w = v ∨
      v.conformsTo type = false ∧ ofJson type v.toJson = .ok (some w) ∧
        w.conformsTo type = true := by
  rw [coerceWhole]
  cases v.conformsTo type with
  | true =>
    simp only [if_true, Except.ok.injEq, true_and, reduceCtorEq, false_and, or_false]
    exact eq_comm
  | false =>
    simp only [Bool.false_eq_true, if_false, false_and, true_and, false_or]
    cases ofJson type v.toJson with
    | error e => simp
    | ok x? =>
      cases x? with
      | none => simp
      | some x =>
        rw [Except.ok.injEq, Option.some.injEq]
        show fitted type x = .ok w ↔ _
        rw [fitted_eq_ok_iff]
        constructor
        · rintro ⟨h, rfl⟩
          exact ⟨rfl, h⟩
        · rintro ⟨rfl, h⟩
          exact ⟨h, rfl⟩

/-- A value that is kept or read as a whole becomes what its written form is read as, if that
conforms. -/
theorem coerceWhole_eq_ok_iff {type : FieldType} {v : Value} (hfin : v.isFinite = true)
    {w : Value} :
    coerceWhole type v = .ok w ↔
      readItem type.element v.toJson = .ok w ∧ w.conformsTo type = true := by
  rw [coerceWhole_eq_ok_iff_or, ofJson_eq_ok_some_iff]
  cases hconforms : v.conformsTo type with
  | false => simp
  | true =>
    -- A value that conforms is kept, and its written form is read as the value itself.
    rw [readItem_toJson _ v (hasElements_of_conformsTo hconforms), if_pos hfin, Except.ok.injEq]
    simp only [true_and, reduceCtorEq, false_and, or_false]
    constructor
    · rintro rfl
      exact ⟨rfl, hconforms⟩
    · exact fun h => h.1.symm

/-- Items are brought to a type if the first is and the rest are. -/
theorem coerceItems_cons_eq_ok_iff {t : ScalarType} {v : Value} {rest ws : List Value} :
    coerceItems t (v :: rest) = .ok ws ↔
      ∃ x xs, ws = x :: xs ∧ coerceWhole (.scalar t) v = .ok x ∧ coerceItems t rest = .ok xs := by
  rw [coerceItems]
  cases coerceWhole (.scalar t) v with
  | error e => simp
  | ok x =>
    cases coerceItems t rest with
    | error e => simp
    | ok xs => simp [eq_comm]

/-- Items are read if the first is and the rest are. -/
theorem readItems_cons_eq_ok_iff {t : ScalarType} {raw : Json} {rest : List Json}
    {ws : List Value} :
    readItems t (raw :: rest) = .ok ws ↔
      ∃ x xs, ws = x :: xs ∧ readItem t raw = .ok x ∧ readItems t rest = .ok xs := by
  rw [readItems]
  cases readItem t raw with
  | error e => simp
  | ok x =>
    cases readItems t rest with
    | error e => simp
    | ok xs => simp [eq_comm]

/-- The items of a list become what their written forms are read as, if all are scalars of the
type. -/
theorem coerceItems_eq_ok_iff {t : ScalarType} {vs : List Value} (hfin : areFinite vs = true)
    {ws : List Value} :
    coerceItems t vs = .ok ws ↔
      readItems t (toJsonItems vs) = .ok ws ∧ ws.all (isScalar t) = true := by
  induction vs generalizing ws with
  | nil =>
    rw [coerceItems, toJsonItems, readItems, Except.ok.injEq]
    refine (and_iff_left_of_imp ?_).symm
    rintro rfl
    rfl
  | cons v rest ih =>
    rw [areFinite, Bool.and_eq_true] at hfin
    rw [coerceItems_cons_eq_ok_iff, toJsonItems, readItems_cons_eq_ok_iff]
    simp only [coerceWhole_eq_ok_iff hfin.1, ih hfin.2, FieldType.element, conformsTo_scalar]
    constructor
    · rintro ⟨x, xs, rfl, ⟨hx, hscalar⟩, hxs, hscalars⟩
      exact ⟨⟨x, xs, rfl, hx, hxs⟩, by rw [List.all_cons, hscalar, hscalars, Bool.and_true]⟩
    · rintro ⟨⟨x, xs, rfl, hx, hxs⟩, hall⟩
      rw [List.all_cons, Bool.and_eq_true] at hall
      exact ⟨x, xs, rfl, ⟨hx, hall.1⟩, hxs, hall.2⟩

/-- An array is read if its items are. -/
theorem readItem_array_eq_ok_iff {t : ScalarType} {raws : List Json} {w : Value} :
    readItem t (.array raws) = .ok w ↔ ∃ ws, readItems t raws = .ok ws ∧ list ws = w := by
  rw [readItem_array, map_eq_ok_iff]

/-- The items of a list become what each of them is brought to. -/
theorem coerceItems_eq_ok_iff_forall₂ {t : ScalarType} {vs ws : List Value} :
    coerceItems t vs = .ok ws ↔
      List.Forall₂ (fun v w => coerceWhole (.scalar t) v = .ok w) vs ws := by
  induction vs generalizing ws with
  | nil => rw [coerceItems, Except.ok.injEq, List.forall₂_nil_left_iff, eq_comm]
  | cons v rest ih =>
    simp only [coerceItems_cons_eq_ok_iff, ih, List.forall₂_cons_left_iff]
    constructor
    · rintro ⟨x, xs, rfl, hx, hxs⟩
      exact ⟨x, xs, hx, hxs, rfl⟩
    · rintro ⟨x, xs, hx, hxs, rfl⟩
      exact ⟨x, xs, rfl, hx, hxs⟩

/-- What is kept or read as a whole conforms. -/
theorem conformsTo_of_coerceWhole {type : FieldType} {v w : Value}
    (h : coerceWhole type v = .ok w) : w.conformsTo type = true := by
  rcases coerceWhole_eq_ok_iff_or.mp h with ⟨hconforms, rfl⟩ | ⟨-, -, hconforms⟩
  · exact hconforms
  · exact hconforms

/-- A list whose items have been brought to a type conforms to the type of lists of it, so that
nothing is refused there that was not refused among the items. -/
theorem conformsTo_of_coerceItems {t : ScalarType} {vs ws : List Value}
    (h : coerceItems t vs = .ok ws) : (Value.list ws).conformsTo (.list t) = true := by
  refine List.all_eq_true.mpr fun w hw => ?_
  obtain ⟨v, -, hv⟩ := exists_mem_of_forall₂ (coerceItems_eq_ok_iff_forall₂.mp h) hw
  rw [← conformsTo_scalar]
  exact conformsTo_of_coerceWhole hv

/-- Items that are scalars of the type are kept. -/
theorem coerceItems_of_conformsTo {t : ScalarType} {vs : List Value}
    (h : (Value.list vs).conformsTo (.list t) = true) : coerceItems t vs = .ok vs := by
  rw [coerceItems_eq_ok_iff_forall₂, List.forall₂_same]
  intro v hv
  have hscalar : v.conformsTo (.scalar t) = true := by
    rw [conformsTo_scalar]
    exact List.all_eq_true.mp h v hv
  exact coerceWhole_eq_ok_iff_or.mpr (.inl ⟨hscalar, rfl⟩)

/-- A list is brought to a list type item by item, also where it conforms and is kept. -/
theorem coerce_list (t : ScalarType) (items : List Value) :
    coerce (.list t) (.list items) = (coerceItems t items).map .list := by
  rw [coerce]
  split
  · rename_i hconforms
    rw [coerceItems_of_conformsTo hconforms]
    rfl
  · cases hitems : coerceItems t items with
    | error e => rfl
    | ok ws => exact fitted_eq_ok_iff.mpr ⟨conformsTo_of_coerceItems hitems, rfl⟩

/-- A list is brought to a list type if its items are brought to the type of the items. -/
theorem coerce_list_eq_ok_iff {t : ScalarType} {items : List Value} {w : Value} :
    coerce (.list t) (.list items) = .ok w ↔ ∃ ws, coerceItems t items = .ok ws ∧ .list ws = w := by
  rw [coerce_list, map_eq_ok_iff]

/-- What is no list, or is not brought to a list type, is kept or read as a whole. -/
theorem coerce_eq_coerceWhole {type : FieldType} {v : Value}
    (h : type.isList = false ∨ ∀ items, v ≠ .list items) : coerce type v = coerceWhole type v := by
  unfold coerce
  split
  · rename_i hconforms
    rw [coerceWhole, if_pos hconforms]
  · split
    · rename_i t items _
      rcases h with h | h
      · cases h
      · exact absurd rfl (h items)
    · rfl

/-- A value that is finite becomes what its written form is read as, if that conforms. -/
theorem coerce_eq_ok_iff {type : FieldType} {v : Value} (hfin : v.isFinite = true) {w : Value} :
    coerce type v = .ok w ↔ ofJson type v.toJson = .ok (some w) ∧ w.conformsTo type = true := by
  rw [ofJson_eq_ok_some_iff]
  by_cases hlist : type.isList = false ∨ ∀ items, v ≠ .list items
  · rw [coerce_eq_coerceWhole hlist, coerceWhole_eq_ok_iff hfin]
  · -- A list is read item by item, and that is how its written form is read.
    push Not at hlist
    obtain ⟨hlist, items, rfl⟩ := hlist
    cases type with
    | scalar t => cases hlist rfl
    | list t =>
      rw [coerce_list_eq_ok_iff, toJson, readItem_array_eq_ok_iff]
      constructor
      · rintro ⟨ws, hws, rfl⟩
        obtain ⟨hws, hall⟩ := (coerceItems_eq_ok_iff hfin).mp hws
        exact ⟨⟨ws, hws, rfl⟩, hall⟩
      · rintro ⟨⟨ws, hws, rfl⟩, hall⟩
        exact ⟨ws, (coerceItems_eq_ok_iff hfin).mpr ⟨hws, hall⟩, rfl⟩

/-! ### Values with a double that is not finite -/

/-- A double that is not finite is kept where it conforms; else its written form, `null`, is read
as absent. -/
theorem coerceWhole_float_eq_ok_iff {type : FieldType} {x : Binary64} (hx : x.isFinite = false)
    {w : Value} :
    coerceWhole type (.float x) = .ok w ↔
      (Value.float x).conformsTo type = true ∧ w = .float x := by
  have hnull : (Value.float x).toJson = .null := toJson_of_not_isFinite (t := .float) rfl hx
  rw [coerceWhole_eq_ok_iff_or, hnull, or_iff_left_iff_imp]
  rintro ⟨-, hread, -⟩
  cases hread

/-- A list is never brought to a type that is no list type: its written form is read as a list. -/
theorem coerceWhole_list_ne_ok (t : ScalarType) (items : List Value) (w : Value) :
    coerceWhole (.scalar t) (.list items) ≠ .ok w := by
  intro h
  rcases coerceWhole_eq_ok_iff_or.mp h with ⟨hconforms, -⟩ | ⟨-, hread, hconforms⟩
  · cases hconforms
  · rw [ofJson_eq_ok_some_iff, toJson] at hread
    obtain ⟨ws, -, rfl⟩ := readItem_array_eq_ok_iff.mp hread
    cases hconforms

/-- Among doubles an item that is finite becomes what its written form is read as, if that is a
double; any other item must be a double itself, and is kept. -/
def BecomesDouble (v w : Value) : Prop :=
  if v.isFinite then ofJson (.scalar .float) v.toJson = .ok (some w) ∧ w.isScalar .float = true
  else v.isScalar .float = true ∧ w = v

/-- An item that is not finite is kept where it conforms, and nothing else becomes of it. -/
theorem coerceWhole_eq_ok_iff_of_not_isFinite {t : ScalarType} {v w : Value}
    (hfin : v.isFinite = false) :
    coerceWhole (.scalar t) v = .ok w ↔ v.isScalar t = true ∧ w = v := by
  cases v with
  | float x => exact coerceWhole_float_eq_ok_iff hfin
  | list items => exact iff_of_false (coerceWhole_list_ne_ok t items w) nofun
  | string | integer | boolean | dateTime => cases hfin

/-- An item is brought to the type of doubles if it becomes a double. -/
theorem coerceWhole_float_iff_becomesDouble {v w : Value} :
    coerceWhole (.scalar .float) v = .ok w ↔ BecomesDouble v w := by
  rw [BecomesDouble]
  split
  · rename_i hfin
    rw [coerceWhole_eq_ok_iff hfin, ofJson_eq_ok_some_iff, conformsTo_scalar]
  · rename_i hfin
    exact coerceWhole_eq_ok_iff_of_not_isFinite (by simpa using hfin)

/-- A scalar that is not finite is a double. -/
theorem eq_float_of_isScalar {t : ScalarType} {v : Value} (h : v.isScalar t = true)
    (hfin : v.isFinite = false) : t = .float := by
  cases v with
  | float x => exact (Option.some.inj (beq_iff_eq.mp h)).symm
  | list items => cases h
  | string | integer | boolean | dateTime => cases hfin

/-- A list with something in it that is not finite can be brought to no list type but that of
doubles. -/
theorem eq_float_of_coerceItems {t : ScalarType} {items ws : List Value}
    (hfin : areFinite items = false) (h : coerceItems t items = .ok ws) : t = .float := by
  rw [areFinite_eq_all, List.all_eq_false] at hfin
  obtain ⟨v, hv, hvfin⟩ := hfin
  obtain ⟨w, hw⟩ := exists_forall₂_iff.mp ⟨ws, coerceItems_eq_ok_iff_forall₂.mp h⟩ v hv
  have hnot : v.isFinite = false := by simpa using hvfin
  exact eq_float_of_isScalar ((coerceWhole_eq_ok_iff_of_not_isFinite hnot).mp hw).1 hnot

/-- A value that is not finite is brought to a type if it conforms, and then it is kept; or if it
is a list, the type is that of lists of doubles, and every item becomes a double. -/
theorem coerce_eq_ok_iff_of_not_isFinite {type : FieldType} {v w : Value}
    (hfin : v.isFinite = false) :
    coerce type v = .ok w ↔ v.conformsTo type = true ∧ w = v ∨
      ∃ items ws, type = .list .float ∧ v = .list items ∧ w = .list ws ∧
        List.Forall₂ BecomesDouble items ws := by
  constructor
  · intro h
    cases type with
    | scalar t =>
      rw [coerce_eq_coerceWhole (.inl rfl), coerceWhole_eq_ok_iff_of_not_isFinite hfin] at h
      rw [conformsTo_scalar]
      exact .inl h
    | list t =>
      cases v with
      | float x =>
        have hwhole : coerce (.list t) (.float x) = coerceWhole (.list t) (.float x) :=
          coerce_eq_coerceWhole (.inr nofun)
        rw [hwhole, coerceWhole_float_eq_ok_iff hfin] at h
        exact .inl h
      | list items =>
        obtain ⟨ws, hws, rfl⟩ := coerce_list_eq_ok_iff.mp h
        cases eq_float_of_coerceItems hfin hws
        simp only [coerceItems_eq_ok_iff_forall₂, coerceWhole_float_iff_becomesDouble] at hws
        exact .inr ⟨items, ws, rfl, rfl, rfl, hws⟩
      | string | integer | boolean | dateTime => cases hfin
  · rintro (⟨hconforms, rfl⟩ | ⟨items, ws, rfl, rfl, rfl, hws⟩)
    · unfold coerce
      rw [if_pos hconforms]
    · refine coerce_list_eq_ok_iff.mpr ⟨ws, ?_, rfl⟩
      simpa only [coerceItems_eq_ok_iff_forall₂, coerceWhole_float_iff_becomesDouble] using hws

/-- Coercion is reading of the written form, restricted to results that conform, as long as all
doubles are finite. A value that is not finite is kept if it conforms; else it is brought only to
lists of doubles, from a list whose items that are not finite are doubles themselves. -/
theorem coerce_exact (type : FieldType) (v w : Value) :
    (v.isFinite = true →
      (coerce type v = .ok w ↔
        ofJson type v.toJson = .ok (some w) ∧ w.conformsTo type = true)) ∧
    (v.isFinite = false →
      (coerce type v = .ok w ↔ v.conformsTo type = true ∧ w = v ∨
        ∃ items ws, type = .list .float ∧ v = .list items ∧ w = .list ws ∧
          List.Forall₂ BecomesDouble items ws)) :=
  ⟨fun hfin => coerce_eq_ok_iff hfin, fun hfin => coerce_eq_ok_iff_of_not_isFinite hfin⟩

/-- A list of a text and a whole number becomes a list of whole numbers; infinity among the items
of a list of doubles is kept, and a text beside it is read; infinity in a list among the items is
refused. -/
theorem coerce_exact_infinity :
    let infinite : Value := .float (.infinity false)
    coerce (.list .integer) (.list [.string " 7 ", .integer 8])
      = .ok (.list [.integer 7, .integer 8]) ∧
    coerce (.list .float) (.list [infinite, .float (.zero true)])
      = .ok (.list [infinite, .float (.zero true)]) ∧
    coerce (.list .float) (.list [infinite, .string "0"])
      = .ok (.list [infinite, .float (.zero false)]) ∧
    ∀ w, coerce (.list .float) (.list [.list [infinite]]) ≠ .ok w := by
  intro infinite
  refine ⟨?_, ?_, ?_, ?_⟩
  · exact ((coerce_exact (.list .integer) (.list [.string " 7 ", .integer 8]) _).1 rfl).mpr
      ⟨rfl, rfl⟩
  · exact ((coerce_exact (.list .float) (.list [infinite, .float (.zero true)]) _).2 rfl).mpr
      (.inl ⟨rfl, rfl⟩)
  · refine ((coerce_exact (.list .float) (.list [infinite, .string "0"]) _).2 rfl).mpr
      (.inr ⟨_, _, rfl, rfl, rfl, .cons ⟨rfl, rfl⟩ (.cons ⟨?_, rfl⟩ .nil)⟩)
    rfl
  · intro w h
    rcases ((coerce_exact (.list .float) (.list [.list [infinite]]) w).2 rfl).mp h with
      ⟨hconforms, -⟩ | ⟨items, ws, -, hitems, -, hws⟩
    · cases hconforms
    · cases hitems
      cases hws with
      | cons hitem _ => cases hitem.1

end RecordStore.Value
