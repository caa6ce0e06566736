import RecordStore.Filter.Query
import RecordStore.Proofs.Engine.Document
import RecordStore.Proofs.Filter.Constructible

/-!
# `RecordStore.Proofs.Filter.Query`: a filter and its query select the same entities

To hold of an entity in memory and to match its document in the engine is the same for a filter.
Each condition on a field asks the same of the elements of the field as its clause asks of their
written forms; the rest follows the disjunctions.

* `matches?_equal`, `matches?_member`, `matches?_beyond`, `matches?_present`: single conditions.
* `matches?_toQuery`: all filters.
* `matches?_all`: several filters at once.
-/

set_option autoImplicit false

namespace RecordStore.Filter

open RecordStore.Engine
open RecordStore.Json (single)

variable {s : Schema} {e : Entity}

/-! ### Filters that a query can express -/

/-- All fields that the filter speaks of are fields of the schema. -/
def SpeaksOf (f : Filter) (s : Schema) : Prop :=
  ∀ leaf ∈ f.leaves, ∀ g ∈ leaf.field?, g ∈ s.fields

instance (f : Filter) (s : Schema) : Decidable (f.SpeaksOf s) :=
  inferInstanceAs (Decidable (∀ leaf ∈ f.leaves, ∀ g ∈ leaf.field?, g ∈ s.fields))

/-- The bound of a condition is not infinite, and the years of the bound and of the date-times of
the entity that are compared with it have four digits. -/
def hasPlainBound (e : Entity) : Filter → Bool
  | .beyond _ g bound => bound.isExpressible && (e.elements g).all Value.hasPlainYear
  | _ => true

/-- All bounds in the filter are such. -/
def HasPlainBounds (f : Filter) (e : Entity) : Prop :=
  ∀ leaf ∈ f.leaves, leaf.hasPlainBound e = true

instance (f : Filter) (e : Entity) : Decidable (f.HasPlainBounds e) :=
  inferInstanceAs (Decidable (∀ leaf ∈ f.leaves, leaf.hasPlainBound e = true))

/-- The bound of a condition is not infinite, and as a date-time it has a year of four digits. -/
def hasExpressibleBound : Filter → Bool
  | .beyond _ _ bound => bound.isExpressible
  | _ => true

/-- All bounds in the filter are such. -/
def HasExpressibleBounds (f : Filter) : Prop :=
  ∀ leaf ∈ f.leaves, leaf.hasExpressibleBound = true

instance (f : Filter) : Decidable f.HasExpressibleBounds :=
  inferInstanceAs (Decidable (∀ leaf ∈ f.leaves, leaf.hasExpressibleBound = true))

/-- Where all years of an entity have four digits, only the bounds themselves matter. -/
theorem hasPlainBounds_of_hasExpressibleBounds {f : Filter} (hfields : f.SpeaksOf s)
    (hbounds : f.HasExpressibleBounds)
    (hyears : ∀ g ∈ s.fields, ∀ v ∈ e.elements g, v.hasPlainYear = true) :
    f.HasPlainBounds e := by
  intro leaf hleaf
  cases leaf with
  | beyond side g bound =>
    rw [hasPlainBound, Bool.and_eq_true, List.all_eq_true]
    exact ⟨hbounds _ hleaf, hyears g (hfields _ hleaf g rfl)⟩
  | equal | member | present | anyOf => rfl

/-! ### Single conditions -/

/-- A signed clause is matched if the clause is, or else if it is not. -/
theorem matches?_withSign {document : List (String × Json)} {key : String} {body : Json}
    {answer : Bool} (h : matches? document (single key body) = some answer) (negated : Bool) :
    matches? document (withSign negated (single key body)) = some (negated != answer) := by
  cases negated with
  | false =>
    rw [Bool.false_bne]
    exact h
  | true =>
    rw [Bool.true_bne]
    exact matches?_mustNot document h

/-- A test of written values and one of the values have one outcome if they agree on each value. -/
theorem any_toJson_congr {vs : List Value} {p : Json → Bool} {q : Value → Bool}
    (h : ∀ v ∈ vs, p v.toJson = q v) : (vs.map Value.toJson).any p = vs.any q := by
  induction vs with
  | nil => rfl
  | cons v rest ih =>
    rw [List.map_cons, List.any_cons, List.any_cons, h v (.head _),
      ih fun w hw => h w (List.mem_cons_of_mem _ hw)]

/-- A comparison with one value. -/
theorem matches?_equal (hs : s.IsIndexable) (he : e.IsOf s) (hfin : e.isFinite = true)
    {g : Field} (hg : g ∈ s.fields) {v : Value} (hv : v.isScalar g.type.element = true)
    (negated : Bool) :
    matches? (s.toDocument e) (toQuery (.equal negated g v)) =
      some (holds e (.equal negated g v)) := by
  have hsame : ∀ w ∈ e.elements g, Engine.same w.toJson v.toJson = w.same v := fun w hw =>
    same_toJson (Schema.isScalar_of_mem_elements he hg hw) hv
      (Schema.isFinite_of_mem_elements hfin hw)
  rw [toQuery, holds, matches?_withSign (matches?_term _ _ (Value.toJson_ne_array hv)),
    resolve_keywordName hs he hfin hg, any_toJson_congr hsame]

/-- A comparison with several values. -/
theorem matches?_member (hs : s.IsIndexable) (he : e.IsOf s) (hfin : e.isFinite = true)
    {g : Field} (hg : g ∈ s.fields) {vs : List Value}
    (hvs : ∀ v ∈ vs, v.isScalar g.type.element = true) (negated : Bool) :
    matches? (s.toDocument e) (toQuery (.member negated g vs)) =
      some (holds e (.member negated g vs)) := by
  have hsame : ∀ w ∈ e.elements g,
      (vs.map Value.toJson).any (Engine.same w.toJson) = vs.any fun v => w.same v := fun w hw =>
    any_toJson_congr fun v hv => same_toJson (Schema.isScalar_of_mem_elements he hg hw) (hvs v hv)
      (Schema.isFinite_of_mem_elements hfin hw)
  rw [toQuery, holds, Value.toJson, matches?_withSign (matches?_terms _ _ _),
    resolve_keywordName hs he hfin hg, Value.toJsonItems_eq_map, any_toJson_congr hsame]

/-- A comparison with a bound. -/
theorem matches?_beyond (hs : s.IsIndexable) (he : e.IsOf s) (hfin : e.isFinite = true)
    {g : Field} (hg : g ∈ s.fields) (hordered : g.type.element.isOrdered = true) {bound : Value}
    (hbound : bound.isScalar g.type.element = true) (hexpressible : bound.isExpressible = true)
    (hyears : ∀ v ∈ e.elements g, v.hasPlainYear = true) (side : Side) :
    matches? (s.toDocument e) (toQuery (.beyond side g bound)) =
      some (holds e (.beyond side g bound)) := by
  have hwithin : ∀ w ∈ e.elements g,
      isWithin w.toJson side.word bound.toJson = isBeyond side bound w := by
    intro w hw
    exact isWithin_toJson hordered (Schema.isScalar_of_mem_elements he hg hw) hbound
      (Schema.isFinite_of_mem_elements hfin hw) (hyears w hw) hexpressible side
  rw [toQuery, holds, matches?_range, resolve_documentName hs he hfin hg,
    any_toJson_congr hwithin]

/-- The presence of a value. -/
theorem matches?_present (hs : s.IsIndexable) (he : e.IsOf s) (hfin : e.isFinite = true)
    {g : Field} (hg : g ∈ s.fields) (negated : Bool) :
    matches? (s.toDocument e) (toQuery (.present negated g)) =
      some (holds e (.present negated g)) := by
  rw [toQuery, holds, matches?_withSign (matches?_exists _ _),
    resolve_documentName hs he hfin hg, List.isEmpty_map]

/-! ### All filters -/

mutual

/-- A document matches the query of a filter if the filter holds of the entity. -/
theorem matches?_toQuery_of_fits (hs : s.IsIndexable) (he : e.IsOf s) (hfin : e.isFinite = true) :
    (f : Filter) → (∀ leaf ∈ f.leaves, leaf.fits = true) → f.SpeaksOf s → f.HasPlainBounds e →
    matches? (s.toDocument e) f.toQuery = some (f.holds e)
  | .equal n g v, hfits, hfields, _ =>
    matches?_equal hs he hfin (hfields _ (.head _) g rfl) (hfits _ (.head _)) n
  | .member n g vs, hfits, hfields, _ => by
    have hmember := hfits _ (.head _)
    rw [fits, Bool.and_eq_true, List.all_eq_true] at hmember
    exact matches?_member hs he hfin (hfields _ (.head _) g rfl) hmember.2 n
  | .beyond side g bound, hfits, hfields, hbounds => by
    have hbeyond := hfits _ (.head _)
    rw [fits, Bool.and_eq_true, Bool.and_eq_true] at hbeyond
    have hplain := hbounds _ (.head _)
    rw [hasPlainBound, Bool.and_eq_true, List.all_eq_true] at hplain
    exact matches?_beyond hs he hfin (hfields _ (.head _) g rfl) hbeyond.1.2 hbeyond.2
      hplain.1 hplain.2 side
  | .present n g, _, hfields, _ =>
    matches?_present hs he hfin (hfields _ (.head _) g rfl) n
  -- A disjunction of nothing has a query of its own, which nothing matches.
  | .anyOf [], _, _, _ => matches?_matchNone _ _
  | .anyOf (f :: rest), hfits, hfields, hbounds => by
    have hall := matchesAll?_toQueries hs he hfin (f :: rest) hfits hfields hbounds
    rw [toQuery, holds, matches?_should _ hall (by simp), holdsAny_eq_any, List.any_map]
    rfl

/-- A document matches the queries of those filters that hold of the entity. -/
theorem matchesAll?_toQueries (hs : s.IsIndexable) (he : e.IsOf s) (hfin : e.isFinite = true) :
    (fs : List Filter) → (∀ leaf ∈ leavesAll fs, leaf.fits = true) → (anyOf fs).SpeaksOf s →
    (anyOf fs).HasPlainBounds e →
    matchesAll? (s.toDocument e) (toQueries fs) = some (fs.map (holds e))
  | [], _, _, _ => rfl
  | f :: rest, hfits, hfields, hbounds => by
    have hfirst := matches?_toQuery_of_fits hs he hfin f
      (fun leaf h => hfits leaf (List.mem_append_left _ h))
      (fun leaf h => hfields leaf (List.mem_append_left _ h))
      (fun leaf h => hbounds leaf (List.mem_append_left _ h))
    have hrest := matchesAll?_toQueries hs he hfin rest
      (fun leaf h => hfits leaf (List.mem_append_right _ h))
      (fun leaf h => hfields leaf (List.mem_append_right _ h))
      (fun leaf h => hbounds leaf (List.mem_append_right _ h))
    rw [toQueries, matchesAll?, hfirst, hrest]
    rfl

end

/-- The filters all hold of an entity in memory if the document of the entity matches the query
that asks for all of them. -/
theorem matches?_all (hs : s.IsIndexable) (he : e.IsOf s) (hfin : e.isFinite = true)
    {fs : List Filter} (hfs : ∀ f ∈ fs, f.Constructible) (hfields : ∀ f ∈ fs, f.SpeaksOf s)
    (hbounds : ∀ f ∈ fs, f.HasPlainBounds e) :
    matches? (s.toDocument e) (single "bool" (single "filter" (.array (fs.map toQuery)))) =
      some (fs.all (holds e)) := by
  have hall : matchesAll? (s.toDocument e) (toQueries fs) = some (fs.map (holds e)) := by
    refine matchesAll?_toQueries hs he hfin fs ?_ ?_ ?_
    all_goals
      intro leaf hleaf
      obtain ⟨f, hf, hleaf⟩ := mem_leavesAll.mp hleaf
    · exact fits_of_constructible (hfs f hf) leaf hleaf
    · exact hfields f hf leaf hleaf
    · exact hbounds f hf leaf hleaf
  rw [toQueries_eq_map] at hall
  rw [matches?_filter _ hall, List.all_map]
  rfl

/-- A filter holds of an entity in memory if the document of the entity matches its query. -/
theorem matches?_toQuery (hs : s.IsIndexable) (he : e.IsOf s) (hfin : e.isFinite = true)
    {f : Filter} (hf : f.Constructible) (hfields : f.SpeaksOf s) (hbounds : f.HasPlainBounds e) :
    matches? (s.toDocument e) f.toQuery = some (f.holds e) :=
  matches?_toQuery_of_fits hs he hfin f (fits_of_constructible hf) hfields hbounds

/-- A record of the leap day, asked for one that is not from its station or is of that year. -/
theorem matches?_toQuery_weather :
    let station : Field := ⟨"station", .scalar .string, none, some "station.keyword"⟩
    let taken : Field := ⟨"taken", .scalar .dateTime, some "@timestamp", none⟩
    let newYear : Value := .dateTime ⟨⟨2024, 1, 1, by decide⟩, 0, 500000000, by decide⟩
    let leapDay : Value := .dateTime ⟨⟨2024, 2, 29, by decide⟩, 43200, 0, by decide⟩
    let record := Entity.silent.put "taken" leapDay
    matches? (Schema.weather.toDocument record)
      (anyOf [.equal true station (.string "Oslo"), .beyond .above taken newYear]).toQuery =
        some true := by
  intro station taken newYear leapDay record
  rw [matches?_toQuery (s := .weather) (e := record) (by decide) (by decide) (by decide)
    (by decide) (by decide) (by decide)]
  decide

end RecordStore.Filter
