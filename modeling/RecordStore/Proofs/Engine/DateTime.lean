import RecordStore.Proofs.Engine.Document
import RecordStore.Proofs.Text.ByteOrder

/-!
# `RecordStore.Proofs.Engine.DateTime`: date-times that are stored as texts

The search engine has no date-times. It stores their texts, tells them apart by these, and
compares the bytes. The texts do not all have one length, since a fraction takes three, six or
nine digits and is left out where it is zero, and a leap second is written as second 60; still no
two date-times share a text, and for four-digit years the bytes are in the order of time.

* `order?_eq_lt_iff_utf8`: the earlier date-time has the smaller bytes.
* `matches?_range_dateTime`: a bound on a stored date-time.
* `dateTime_texts`: equality, order and bounds together.
-/

set_option autoImplicit false

namespace RecordStore.Engine

open RecordStore.Calendar (DateTime)
open RecordStore.Json (single)

/-- Only one date-time has a given written form. -/
theorem toJson_dateTime_inj {a b : DateTime} :
    (Value.dateTime a).toJson = (Value.dateTime b).toJson ↔ a = b := by
  rw [Value.toJson, Value.toJson, Json.string.injEq, DateTime.text_inj]

/-- Of two date-times of four-digit years the earlier one has the smaller bytes. -/
theorem order?_eq_lt_iff_utf8 {a b : DateTime} (ha : a.HasPlainYear) (hb : b.HasPlainYear) :
    (Value.dateTime a).order? (.dateTime b) = some .lt ↔ Text.utf8 a.text < Text.utf8 b.text := by
  rw [Value.order?, Option.some.injEq, Int.compare_eq_lt, Text.utf8_lt_iff,
    DateTime.text_lt_iff ha hb]

/-- A document with a date-time of a four-digit year under a name keeps a bound of such a year on
that name if the date-time keeps the bound. -/
theorem matches?_range_dateTime {a b : DateTime} (ha : a.HasPlainYear) (hb : b.HasPlainYear)
    {document : List (String × Json)} {name : String}
    (hname : KeyMap.get? name document = some (Value.dateTime a).toJson) (side : Side) :
    matches? document
        (single "range" (single name (single side.word (Value.dateTime b).toJson))) =
      some (Filter.isBeyond side (.dateTime b) (.dateTime a)) := by
  have hvalues : resolve document name = [(Value.dateTime a).toJson] := by
    rw [resolve, hname]
    rfl
  have hyear : (Value.dateTime a).hasPlainYear = true := decide_eq_true ha
  have hexpressible : (Value.dateTime b).isExpressible = true := decide_eq_true hb
  have hwithin : isWithin (Value.dateTime a).toJson side.word (Value.dateTime b).toJson =
      Filter.isBeyond side (.dateTime b) (.dateTime a) :=
    isWithin_toJson (t := .dateTime) rfl rfl rfl rfl hyear hexpressible side
  rw [matches?_range, hvalues, List.any_cons, List.any_nil, Bool.or_false, hwithin]

/-- Written date-times are equal only if the date-times are. Where the years have four digits the
texts stand in the byte order that the date-times have in time, so a bound in a query keeps the
stored date-times that the bound keeps in memory. -/
theorem dateTime_texts (a b : DateTime) :
    ((Value.dateTime a).toJson = (Value.dateTime b).toJson ↔ a = b) ∧
    (Value.dateTime a).toJson = .string a.text ∧
    (a.HasPlainYear → b.HasPlainYear →
      ((Value.dateTime a).order? (.dateTime b) = some .lt ↔
        Text.utf8 a.text < Text.utf8 b.text) ∧
      ∀ document name, KeyMap.get? name document = some (Value.dateTime a).toJson →
        ∀ side : Side,
          matches? document
              (single "range" (single name (single side.word (Value.dateTime b).toJson))) =
            some (Filter.isBeyond side (.dateTime b) (.dateTime a))) := by
  refine ⟨toJson_dateTime_inj, rfl, fun ha hb => ⟨order?_eq_lt_iff_utf8 ha hb, ?_⟩⟩
  intro document name hname side
  exact matches?_range_dateTime ha hb hname side

/-- A leap second with half a second gone, and the next midnight, which has the shorter text: their
texts are in order, and a stored leap second keeps midnight as an upper bound. -/
theorem dateTime_texts_leap_second :
    let leap : DateTime := ⟨⟨2016, 12, 31, by decide⟩, 86399, 1500000000, by decide⟩
    let midnight : DateTime := ⟨⟨2017, 1, 1, by decide⟩, 0, 0, by decide⟩
    Text.utf8 leap.text < Text.utf8 midnight.text ∧
    matches? [("at", (Value.dateTime leap).toJson)]
      (single "range" (single "at" (single "lt" (Value.dateTime midnight).toJson))) = some true := by
  intro leap midnight
  obtain ⟨horder, hrange⟩ := (dateTime_texts leap midnight).2.2 (by decide) (by decide)
  refine ⟨horder.mp (by decide), ?_⟩
  exact (hrange [("at", (Value.dateTime leap).toJson)] "at" rfl .below).trans (by decide)

end RecordStore.Engine
