import RecordStore.Schema
import RecordStore.Proofs.Filter.Construction
import RecordStore.Proofs.Value.RoundTrip

/-!
# `RecordStore.Proofs.Filter.Constructible`: the filters that are ever made

`Filter.new` is the only way to make a filter, so every filter is built by it from filters that
were built by it before. What it checks is a property of each single condition: a filter can be
made if all conditions in it, at any depth of disjunctions, have operands that fit their fields.

* `new_eq_ok`, `new_parts`: what `Filter.new` makes, and of what.
* `constructible_iff`: the filters that can be made.
-/

set_option autoImplicit false

namespace RecordStore.Filter

/-! ### The conditions in a filter -/

mutual

/-- The conditions in the filter that are no disjunctions, in order. -/
def leaves : Filter → List Filter
  | .equal n f v => [.equal n f v]
  | .member n f vs => [.member n f vs]
  | .beyond s f v => [.beyond s f v]
  | .present n f => [.present n f]
  | .anyOf fs => leavesAll fs

/-- The conditions in several filters that are no disjunctions. -/
def leavesAll : List Filter → List Filter
  | [] => []
  | f :: rest => leaves f ++ leavesAll rest

end

/-- The conditions in several filters are those in each one. -/
theorem mem_leavesAll {leaf : Filter} {fs : List Filter} :
    leaf ∈ leavesAll fs ↔ ∃ f ∈ fs, leaf ∈ f.leaves := by
  induction fs with
  | nil => simp [leavesAll]
  | cons f rest ih => simp [leavesAll, ih]

/-- A filter that speaks of a field is its own only condition. -/
theorem leaves_of_field? {f : Filter} {g : Field} (h : f.field? = some g) : f.leaves = [f] := by
  cases f with
  | anyOf fs => cases h
  | equal | member | beyond | present => rfl

/-- A filter that speaks of a field is one of its conditions. -/
theorem mem_leaves_of_field? {f : Filter} {g : Field} (h : f.field? = some g) : f ∈ f.leaves := by
  rw [leaves_of_field? h]
  exact List.mem_singleton_self f

/-- A filter that speaks of a field is no disjunction of others. -/
theorem filters_of_field? {f : Filter} {g : Field} (h : f.field? = some g) : f.filters = [] := by
  cases f with
  | anyOf fs => cases h
  | equal | member | beyond | present => rfl

/-- All doubles among the operands in the filter are finite. -/
def isFinite (f : Filter) : Bool :=
  f.leaves.all fun leaf => leaf.value?.all Value.isFinite

/-- A condition on a field is finite if its operand is, or if it has none. -/
theorem isFinite_of_field? {f : Filter} {g : Field} (h : f.field? = some g) :
    f.isFinite = f.value?.all Value.isFinite := by
  rw [isFinite, leaves_of_field? h, List.all_cons, List.all_nil, Bool.and_true]

/-- The fields that the filter speaks of are the ones that the schema has under their names. -/
def IsDeclared (f : Filter) (s : Schema) : Prop :=
  ∀ leaf ∈ f.leaves, ∀ g ∈ leaf.field?, s.field? g.name = some g

instance (f : Filter) (s : Schema) : Decidable (f.IsDeclared s) :=
  inferInstanceAs (Decidable (∀ leaf ∈ f.leaves, ∀ g ∈ leaf.field?, s.field? g.name = some g))

/-- The operand of a condition fits its field: it is a value of the type of the field's elements,
or a list of such values that is not empty, and a bound is one of a field with an order. -/
def fits : Filter → Bool
  | .equal _ f v => v.isScalar f.type.element
  | .member _ f vs => !vs.isEmpty && vs.all (Value.isScalar f.type.element)
  | .beyond _ f v => !f.type.isList && f.type.element.isOrdered && v.isScalar f.type.element
  | .present _ _ => true
  | .anyOf _ => true

/-- An operand that fits has scalars of the type of the field's elements. -/
theorem hasElements_of_fits {f : Filter} (h : f.fits = true) {g : Field} (hg : f.field? = some g)
    {v : Value} (hv : f.value? = some v) : v.hasElements g.type.element = true := by
  cases f with
  | equal n f v =>
    cases hg
    cases hv
    exact Value.hasElements_of_isScalar h
  | member n f vs =>
    cases hg
    cases hv
    rw [fits, Bool.and_eq_true, List.all_eq_true] at h
    rw [Value.hasElements, Value.haveElements_eq_all, List.all_eq_true]
    exact fun v hv => Value.hasElements_of_isScalar (h.2 v hv)
  | beyond s f v =>
    cases hg
    cases hv
    rw [fits, Bool.and_eq_true] at h
    exact Value.hasElements_of_isScalar h.2
  | present n f => cases hv
  | anyOf fs => cases hg

/-- An operand fits if the operator of the filter can be applied to it. -/
theorem fits_iff_takes {f : Filter} :
    f.fits = true ↔ f.operator.Takes f.field? f.value? := by
  cases f with
  | equal n g v =>
    cases n <;> simp [fits, operator, field?, value?, Operator.Takes, Operator.kind,
      Field.admits_iff]
  | member n g vs =>
    cases n <;> simp [fits, operator, field?, value?, Operator.Takes, Operator.kind,
      Field.admits_iff]
  | beyond side g v =>
    cases side <;> simp [fits, operator, field?, value?, Operator.Takes, Operator.kind,
      Field.admits_iff, Field.isOrdered_iff]
  | present n g => cases n <;> simp [fits, operator, field?, Operator.Takes, Operator.kind]
  | anyOf fs => simp [fits, operator, Operator.Takes, Operator.kind]

/-! ### Construction -/

/-- What is made is the disjunction of the given filters, or a condition whose operand fits. -/
theorem new_eq_ok {op : Operator} {field : Option Field} {value : Option Value}
    {filters : List Filter} {f : Filter} (h : Filter.new op field value filters = .ok f) :
    f = .anyOf filters ∨ f.leaves = [f] ∧ f.fits = true := by
  have hparts := hasParts_of_new h
  cases f with
  | anyOf fs =>
    have hop : op = .anyOf := hparts.operator.symm
    subst hop
    exact .inl (congrArg _ hparts.filters)
  | equal | member | beyond | present => exact .inr ⟨rfl, fits_iff_takes.mpr (takes_of_new h)⟩

/-- A condition whose operand fits can be made of its parts, and so can every disjunction. -/
theorem new_parts {f : Filter} (h : f.fits = true) :
    Filter.new f.operator f.field? f.value? f.filters = .ok f := by
  cases f with
  | equal n g v =>
    have hv : g.Admits v := Field.admits_iff.mpr h
    cases n <;> exact (newEqual_some _ _ g v).trans (if_pos hv)
  | member n g vs =>
    rw [fits, Bool.and_eq_true, List.all_eq_true] at h
    have hne : vs ≠ [] := by simpa using h.1
    have hvs : ∀ v ∈ vs, g.Admits v := fun v hv => Field.admits_iff.mpr (h.2 v hv)
    cases n <;> exact newMember_of_admits _ _ hne hvs
  | beyond side g v =>
    rw [fits, Bool.and_eq_true, Bool.and_eq_true, Bool.not_eq_true'] at h
    have hordered : g.IsOrdered := g.isOrdered_iff.mpr h.1
    have hv : g.Admits v := Field.admits_iff.mpr h.2
    cases side <;> exact (newBeyond_some _ _ hordered v).trans (if_pos hv)
  | present n g => cases n <;> rfl
  | anyOf fs => rfl

/-- The filters that are made of filters that were made before. -/
inductive Constructible : Filter → Prop where
  /-- What `Filter.new` makes of such filters. -/
  | new {op : Operator} {field : Option Field} {value : Option Value} {filters : List Filter}
      {f : Filter} (parts : ∀ g ∈ filters, Constructible g)
      (made : Filter.new op field value filters = .ok f) : Constructible f

/-- A disjunction of filters that were made can be made. -/
theorem constructible_anyOf {fs : List Filter} (h : ∀ f ∈ fs, f.Constructible) :
    (anyOf fs).Constructible :=
  .new h (new_parts (f := .anyOf fs) rfl)

/-- What is made without other filters was made of filters that were made before. -/
theorem constructible_of_new {op : Operator} {field : Option Field} {value : Option Value}
    {f : Filter} (h : Filter.new op field value [] = .ok f) : f.Constructible :=
  .new (List.forall_mem_nil _) h

/-- In a filter that was made all operands fit. -/
theorem fits_of_constructible {f : Filter} (h : f.Constructible) :
    ∀ leaf ∈ f.leaves, leaf.fits = true := by
  -- The induction is on how the filter was made. Only a disjunction has parts.
  induction h with
  | new parts made ih =>
    rcases new_eq_ok made with rfl | ⟨hleaves, hfits⟩
    · intro leaf hleaf
      obtain ⟨g, hg, hleaf⟩ := mem_leavesAll.mp hleaf
      exact ih g hg leaf hleaf
    · intro leaf hleaf
      rw [hleaves, List.mem_singleton] at hleaf
      rw [hleaf]
      exact hfits

mutual

/-- If all operands fit, the filter can be made. -/
theorem constructible_of_fits : (f : Filter) → (∀ leaf ∈ f.leaves, leaf.fits = true) →
    f.Constructible
  | .equal _ _ _, h => constructible_of_new (new_parts (h _ (.head _)))
  | .member _ _ _, h => constructible_of_new (new_parts (h _ (.head _)))
  | .beyond _ _ _, h => constructible_of_new (new_parts (h _ (.head _)))
  | .present _ _, h => constructible_of_new (new_parts (h _ (.head _)))
  | .anyOf fs, h => constructible_anyOf (constructible_of_fits_all fs h)

/-- If all operands in several filters fit, each of the filters can be made. -/
theorem constructible_of_fits_all : (fs : List Filter) →
    (∀ leaf ∈ leavesAll fs, leaf.fits = true) → ∀ f ∈ fs, f.Constructible
  | [], _ => fun _ hf => nomatch hf
  | f :: rest, h => by
    intro g hg
    rcases List.mem_cons.mp hg with heq | hg
    · rw [heq]
      exact constructible_of_fits f fun leaf hleaf => h leaf (List.mem_append_left _ hleaf)
    · exact constructible_of_fits_all rest (fun leaf hleaf =>
        h leaf (List.mem_append_right _ hleaf)) g hg

end

/-- The filters that can be made are those in which all operands fit. -/
theorem constructible_iff {f : Filter} :
    f.Constructible ↔ ∀ leaf ∈ f.leaves, leaf.fits = true :=
  ⟨fits_of_constructible, constructible_of_fits f⟩

/-- A disjunction can be made if all its parts can. -/
theorem constructible_anyOf_iff {fs : List Filter} :
    (anyOf fs).Constructible ↔ ∀ f ∈ fs, f.Constructible := by
  refine ⟨fun h f hf => ?_, constructible_anyOf⟩
  exact constructible_iff.mpr fun leaf hleaf =>
    constructible_iff.mp h leaf (mem_leavesAll.mpr ⟨f, hf, hleaf⟩)

instance (f : Filter) : Decidable f.Constructible :=
  decidable_of_iff _ constructible_iff.symm

end RecordStore.Filter
