import RecordStore.Proofs.Binary64.Layout
import RecordStore.Proofs.Value.Coercion

/-!
# `RecordStore.Proofs.Value.Text`: the way through texts loses nothing

A scalar that is brought to the type of texts becomes the text of its JSON form, and that text names
the scalar to the reader of its own type: a whole number by its digits, a double by digits that
are rounded to it, a truth value by a word, a point in time by its layout. So there and back again
is the way of no change, for a single value and for a list, item by item.

* `trim_intDigits`: written whole numbers have no blanks around them.
* `exists_text`: the text of a scalar names it.
* `coerce_through_text`: values and lists of values.
-/

set_option autoImplicit false

namespace RecordStore.Value

open RecordStore.Text

/-! ### Scalars -/

/-- A written whole number has no blanks around it. -/
theorem trim_intDigits (k : Int) : trim (Decimal.intDigits k) = Decimal.intDigits k := by
  have hplain : ∀ {n : Nat} {c : Char}, c ∈ Decimal.digits n → isBlank c = false :=
    fun hc => Decimal.isBlank_of_isDigit (Binary64.isDigit_of_mem_digits hc)
  have hall : ∀ c ∈ Decimal.intDigits k, isBlank c = false := by
    intro c hc
    cases k with
    | ofNat n => exact hplain hc
    | negSucc n =>
      rcases List.mem_cons.mp hc with rfl | hc
      · rfl
      · exact hplain hc
  exact trim_of_not_blank (fun c hc => hall c (List.mem_of_mem_head? hc))
    fun c hc => hall c (List.mem_of_mem_getLast? hc)

/-- The text of a whole number names it. -/
theorem integer?_text (n : Int64) :
    integer? (.string (Json.int n.toInt).text) = some n := by
  simp only [integer?, Json.text, Json.chars, String.toList_ofList, trim_intDigits,
    Decimal.intValue?_intDigits, Option.bind_some, int64?_toInt]

/-- The text of a finite double names it. -/
theorem double?_text {x : Binary64} (h : x.isFinite = true) :
    double? (.string (Json.float x).text) = some x := by
  simp only [double?, Json.text, Json.chars, Json.floatText, String.toList_ofList,
    Binary64.trim_text _ h, Binary64.double?_text _ h, Option.filter_some, h, if_true]

/-- The text of a truth value names it. -/
theorem truth?_text (b : Bool) : truth? (.string (Json.bool b).text) = some b := by
  cases b <;> decide

/-- A scalar that is finite has a text, and this is read as the scalar. -/
theorem exists_text {t : ScalarType} {v : Value} (ht : v.isScalar t = true)
    (hfin : v.isFinite = true) :
    ∃ text, string? v.toJson = some text ∧ readScalar t (.string text) = .ok v := by
  -- Texts and points in time are texts in JSON already; all else is written first.
  cases v with
  | list items => cases ht
  | string s =>
    obtain rfl : ScalarType.string = t := Option.some.inj (beq_iff_eq.mp ht)
    exact ⟨s, rfl, rfl⟩
  | integer n =>
    obtain rfl : ScalarType.integer = t := Option.some.inj (beq_iff_eq.mp ht)
    refine ⟨_, rfl, ?_⟩
    rw [readScalar, integer?_text]
    rfl
  | float x =>
    obtain rfl : ScalarType.float = t := Option.some.inj (beq_iff_eq.mp ht)
    have hx : x.isFinite = true := hfin
    refine ⟨(Json.float x).text, ?_, ?_⟩
    · rw [toJson, if_pos hx, string?]
    · rw [readScalar, double?_text hx]
      rfl
  | boolean b =>
    obtain rfl : ScalarType.boolean = t := Option.some.inj (beq_iff_eq.mp ht)
    refine ⟨_, rfl, ?_⟩
    rw [readScalar, truth?_text]
    rfl
  | dateTime moment =>
    obtain rfl : ScalarType.dateTime = t := Option.some.inj (beq_iff_eq.mp ht)
    refine ⟨moment.text, rfl, ?_⟩
    rw [readScalar, readDateTime_text]
    rfl

/-! ### There and back -/

/-- A scalar that is finite becomes its text, and the text becomes the scalar. -/
theorem exists_coerceWhole_text {t : ScalarType} {v : Value} (ht : v.isScalar t = true)
    (hfin : v.isFinite = true) :
    ∃ text, coerceWhole (.scalar .string) v = .ok (.string text) ∧
      coerceWhole (.scalar t) (.string text) = .ok v := by
  obtain ⟨text, htext, hread⟩ := exists_text ht hfin
  refine ⟨text, (coerceWhole_eq_ok_iff hfin).mpr ⟨?_, rfl⟩,
    (coerceWhole_eq_ok_iff rfl).mpr ⟨hread, ?_⟩⟩
  · rw [readItem_eq_readScalar (toJson_ne_null hfin) (toJson_ne_array ht)]
    show readScalar .string v.toJson = .ok (.string text)
    rw [readScalar, htext]
    rfl
  · rw [conformsTo_scalar, ht]

/-- Every scalar that is finite becomes a text that becomes the scalar again, and every list of such
scalars becomes a list of texts that becomes the list again. -/
theorem coerce_through_text (t : ScalarType) :
    (∀ v : Value, v.isScalar t = true → v.isFinite = true →
      ∃ text : String, coerce (.scalar .string) v = .ok (.string text) ∧
        coerce (.scalar t) (.string text) = .ok v) ∧
    ∀ items : List Value, (∀ v ∈ items, v.isScalar t = true ∧ v.isFinite = true) →
      ∃ texts : List String,
        coerce (.list .string) (.list items) = .ok (.list (texts.map .string)) ∧
          coerce (.list t) (.list (texts.map .string)) = .ok (.list items) := by
  constructor
  · intro v ht hfin
    obtain ⟨text, hto, hback⟩ := exists_coerceWhole_text ht hfin
    refine ⟨text, ?_, ?_⟩
    · rw [coerce_eq_coerceWhole (.inl rfl), hto]
    · rw [coerce_eq_coerceWhole (.inl rfl), hback]
  · intro items hitems
    obtain ⟨texts, htexts⟩ := exists_forall₂_iff.mpr fun v hv =>
      exists_coerceWhole_text (hitems v hv).1 (hitems v hv).2
    refine ⟨texts, coerce_list_eq_ok_iff.mpr ⟨_, ?_, rfl⟩,
      coerce_list_eq_ok_iff.mpr ⟨_, ?_, rfl⟩⟩
    · rw [coerceItems_eq_ok_iff_forall₂, List.forall₂_map_right_iff]
      exact htexts.imp fun _ _ h => h.1
    · rw [coerceItems_eq_ok_iff_forall₂, List.forall₂_map_left_iff]
      exact (htexts.imp fun _ _ h => h.2).flip

/-- The least of the 64-bit numbers, the last leap second that can be named, and a list of the
smallest double below zero, zero with a minus sign and the largest double. -/
theorem coerce_through_text_extremes :
    let least : Value := .integer Int64.minValue
    let leap : Value := .dateTime ⟨⟨262142, 12, 31, by decide⟩, 86399, 1999999999, by decide⟩
    let doubles : List Value := [.float ⟨true, 1, by decide⟩, .float (.zero true),
      .float ⟨false, Binary64.infinityRank - 1, by decide⟩]
    (∃ text : String, coerce (.scalar .string) least = .ok (.string text) ∧
      coerce (.scalar .integer) (.string text) = .ok least) ∧
    (∃ text : String, coerce (.scalar .string) leap = .ok (.string text) ∧
      coerce (.scalar .dateTime) (.string text) = .ok leap) ∧
    ∃ texts : List String,
      coerce (.list .string) (.list doubles) = .ok (.list (texts.map .string)) ∧
        coerce (.list .float) (.list (texts.map .string)) = .ok (.list doubles) := by
  intro least leap doubles
  refine ⟨(coerce_through_text .integer).1 least rfl rfl,
    (coerce_through_text .dateTime).1 leap rfl rfl, (coerce_through_text .float).2 doubles ?_⟩
  simp only [doubles, List.forall_mem_cons]
  exact ⟨⟨rfl, rfl⟩, ⟨rfl, rfl⟩, ⟨rfl, rfl⟩, List.forall_mem_nil _⟩

end RecordStore.Value
