import RecordStore.Filter.Evaluation
import RecordStore.Proofs.Entity.Build
import RecordStore.Proofs.Filter.Construction
import RecordStore.Proofs.Value.Order
import RecordStore.Proofs.Value.RoundTrip

/-!
# `RecordStore.Proofs.Filter.Bounds`: comparisons with one bound

A field with an order can be above a bound, equal to it or below it, and there is a filter for
each. Which of them hold of an entity is decided by where the value of the field stands to the
bound, so it is one of the three, or none if there is no value or no order. The filters look for an
element with the property; a field with an order has no more elements than its value.

* `holds_comparing`: each of the three filters asks where the value stands.
* `standing?_eq_some_iff`: when the value stands anywhere.
* `holds_beyond_of_order?`: a bound can be moved away from the values beyond it.
* `bounds_partition`: the three filters divide the entities, and bounds are monotone.
-/

set_option autoImplicit false

namespace RecordStore

/-! ### The value and the bound -/

/-- A field that is no list admits the values of its type. -/
theorem Field.admits_of_conformsTo {f : Field} (hf : f.type.isList = false) {v : Value}
    (h : v.conformsTo f.type = true) : f.Admits v :=
  admits_iff.mpr (Value.isScalar_of_conformsTo hf h)

namespace Entity

/-- Where the value of the field stands to the bound. -/
def standing? (e : Entity) (f : Field) (bound : Value) : Option Ordering :=
  (e.value? f.name).bind fun v => v.order? bound

/-- The field has a value, and neither the value nor the bound is a double that is no number. -/
def IsComparable (e : Entity) (f : Field) (bound : Value) : Prop :=
  ∃ v ∈ e.value? f.name, v.isNaN = false ∧ bound.isNaN = false

instance (e : Entity) (f : Field) (bound : Value) : Decidable (e.IsComparable f bound) :=
  inferInstanceAs (Decidable (∃ v ∈ e.value? f.name, v.isNaN = false ∧ bound.isNaN = false))

variable {e : Entity} {f : Field} {bound : Value}

/-- A field that is no list has its value as its only element. -/
theorem elements_eq_toList (hf : f.type.isList = false) (he : e.FitsField f) :
    e.elements f = (e.value? f.name).toList := by
  rw [elements]
  cases hvalue : e.value? f.name with
  | none => rfl
  | some v =>
    have hv := Value.isScalar_of_conformsTo hf (he v hvalue)
    cases v with
    | list items => cases hv
    | string | integer | float | boolean | dateTime => rfl

/-- The value stands somewhere to the bound if it is there and both are ordered. -/
theorem standing?_eq_some_iff (hf : f.type.isList = false) (hb : f.Admits bound)
    (he : e.FitsField f) : (∃ o, e.standing? f bound = some o) ↔ e.IsComparable f bound := by
  rw [standing?, IsComparable]
  cases hvalue : e.value? f.name with
  | none => simp
  | some v =>
    have hv := Field.admits_of_conformsTo hf (he v hvalue)
    simpa using Value.exists_order?_iff hv hb

end Entity

/-! ### The three filters -/

/-- Where values beyond a bound on this side stand to it. -/
def Side.ordering : Side → Ordering
  | .above => .gt
  | .below => .lt

namespace Filter

variable {e : Entity} {f : Field} {bound : Value}

/-- The value is beyond the bound if it stands to it as the side says. -/
theorem isBeyond_eq (side : Side) (bound v : Value) :
    isBeyond side bound v = (v.order? bound == some side.ordering) := by
  cases side <;> rfl

/-- The filter that looks for values that stand to the bound as the ordering says. -/
def comparing (f : Field) (bound : Value) : Ordering → Filter
  | .lt => .beyond .below f bound
  | .eq => .equal false f bound
  | .gt => .beyond .above f bound

/-- A filter on a bound that the field admits looks where the value of the field stands. -/
theorem holds_comparing (hf : f.type.isList = false) (hb : f.Admits bound) (he : e.FitsField f)
    (o : Ordering) : (comparing f bound o).holds e = (e.standing? f bound == some o) := by
  have helements := Entity.elements_eq_toList hf he
  cases hvalue : e.value? f.name with
  | none =>
    have hnone : e.standing? f bound = none := by rw [Entity.standing?, hvalue]; rfl
    rw [hvalue] at helements
    rw [hnone]
    cases o <;> simp [comparing, holds, helements]
  | some v =>
    have hsome : e.standing? f bound = v.order? bound := by rw [Entity.standing?, hvalue]; rfl
    have hv := Field.admits_of_conformsTo hf (he v hvalue)
    rw [hvalue] at helements
    rw [hsome]
    cases o with
    | lt | gt => simp [comparing, holds, helements, isBeyond_eq, Side.ordering]
    | eq =>
      -- Equality is a test of its own; on scalars of one type it is that of the order.
      have hsame := Value.same_iff_order? hv hb
      rw [Bool.eq_iff_iff, beq_iff_eq, ← hsame]
      simp [comparing, holds, helements]

/-- Inequality is the negation of equality, on an absent value too. -/
theorem holds_equal_negated (e : Entity) (f : Field) (v : Value) :
    (equal true f v).holds e = !(equal false f v).holds e := by
  rw [holds, holds]
  cases (e.elements f).any fun w => w.same v <;> rfl

/-- Of the three filters as many hold as there are places where the value stands. -/
theorem countP_comparing (hf : f.type.isList = false) (hb : f.Admits bound)
    (he : e.FitsField f) :
    [comparing f bound .gt, comparing f bound .eq, comparing f bound .lt].countP (holds e) =
      (e.standing? f bound).toList.length := by
  -- A place is one of the three orderings, and none is counted twice.
  have hcount : ∀ standing : Option Ordering,
      [Ordering.gt, .eq, .lt].countP (fun o => standing == some o) = standing.toList.length := by
    rintro (_ | _ | _ | _) <;> rfl
  have hmap : [comparing f bound .gt, comparing f bound .eq, comparing f bound .lt] =
      [Ordering.gt, .eq, .lt].map (comparing f bound) := rfl
  rw [hmap, List.countP_map, ← hcount]
  exact List.countP_congr fun o _ => by rw [Function.comp, holds_comparing hf hb he]

/-- What holds of the values beyond a bound holds of those beyond one that the bound is itself
beyond. -/
theorem holds_beyond_of_order? (side : Side) {nearer : Value}
    (h : bound.order? nearer = some side.ordering) (hholds : (beyond side f bound).holds e = true) :
    (beyond side f nearer).holds e = true := by
  rw [holds, List.any_eq_true] at hholds ⊢
  obtain ⟨v, hv, hbeyond⟩ := hholds
  rw [isBeyond_eq, beq_iff_eq] at hbeyond
  refine ⟨v, hv, ?_⟩
  rw [isBeyond_eq, beq_iff_eq]
  exact Value.order?_trans hbeyond h

/-! ### Construction -/

/-- A filter on a bound is made of a field with an order and a bound that it admits. -/
theorem comparison_eq_ok (hf : f.IsOrdered) (hb : f.Admits bound) :
    greaterThan f bound = .ok (comparing f bound .gt) ∧
      Filter.is f bound = .ok (comparing f bound .eq) ∧
      lessThan f bound = .ok (comparing f bound .lt) ∧
      isNot f bound = .ok (.equal true f bound) :=
  ⟨(newBeyond_some _ _ hf bound).trans (if_pos hb), (newEqual_some _ _ f bound).trans (if_pos hb),
    (newBeyond_some _ _ hf bound).trans (if_pos hb), (newEqual_some _ _ f bound).trans (if_pos hb)⟩

/-- A field on which a bound can be placed has an order. -/
theorem isOrdered_of_comparison {v : Value} {g : Filter}
    (h : greaterThan f v = .ok g ∨ lessThan f v = .ok g) : f.IsOrdered := by
  have htakes : Operator.greaterThan.Takes (some f) (some v) := by
    rcases h with h | h
    · exact (new_decides .greaterThan (some f) (some v) []).1.mp ⟨g, h⟩
    · exact (new_decides .lessThan (some f) (some v) []).1.mp ⟨g, h⟩
  obtain ⟨f', v', hf', -, hordered, -⟩ := htakes
  cases hf'
  exact hordered

/-- Bounds that are compared are both admitted by a field or neither is. -/
theorem admits_of_order? {nearer : Value} {o : Ordering} (h : nearer.order? bound = some o)
    (hb : f.Admits bound) : f.Admits nearer :=
  (Value.scalarType?_eq_of_order? h).trans hb

/-- On a field that takes bounds, the filters above, equal to and below one bound divide the
entities: exactly one of them holds where the value is there and neither it nor the bound is NaN,
and elsewhere none does, while inequality holds. Whatever is above a bound is above any lower
one, and whatever is below it is below any higher one. -/
theorem bounds_partition (hf : ∃ v g, greaterThan f v = .ok g ∨ lessThan f v = .ok g)
    (hb : bound.conformsTo f.type = true) :
    ∃ above equal below unequal : Filter,
      greaterThan f bound = .ok above ∧ Filter.is f bound = .ok equal ∧
      lessThan f bound = .ok below ∧ isNot f bound = .ok unequal ∧
      (∀ e : Entity, e.FitsField f →
        (e.IsComparable f bound → [above, equal, below].countP (holds e) = 1) ∧
        (¬e.IsComparable f bound →
          [above, equal, below].countP (holds e) = 0 ∧ unequal.holds e = true)) ∧
      (∀ (e : Entity) (lower : Value), above.holds e = true → lower.order? bound = some .lt →
        ∃ g, greaterThan f lower = .ok g ∧ g.holds e = true) ∧
      (∀ (e : Entity) (higher : Value), below.holds e = true → bound.order? higher = some .lt →
        ∃ g, lessThan f higher = .ok g ∧ g.holds e = true) := by
  obtain ⟨v, g, hg⟩ := hf
  have hordered := isOrdered_of_comparison hg
  have hlist := (f.isOrdered_iff.mp hordered).1
  have hadmits := Field.admits_of_conformsTo hlist hb
  obtain ⟨habove, hequal, hbelow, hunequal⟩ := comparison_eq_ok hordered hadmits
  refine ⟨_, _, _, _, habove, hequal, hbelow, hunequal, ?_, ?_, ?_⟩
  · intro e he
    rw [countP_comparing hlist hadmits he, ← Entity.standing?_eq_some_iff hlist hadmits he]
    constructor
    · rintro ⟨o, ho⟩
      rw [ho]
      rfl
    · intro hnone
      have hstanding : e.standing? f bound = none :=
        Option.eq_none_iff_forall_ne_some.mpr fun o ho => hnone ⟨o, ho⟩
      have hnotEqual := holds_comparing hlist hadmits he .eq
      rw [hstanding] at hnotEqual ⊢
      refine ⟨rfl, ?_⟩
      rw [holds_equal_negated]
      show (!(comparing f bound .eq).holds e) = true
      rw [hnotEqual]
      rfl
  · intro e lower hholds horder
    have hlower := admits_of_order? horder hadmits
    have hback : bound.order? lower = some .gt := by
      rw [Value.order?_swap, horder]
      rfl
    exact ⟨_, (comparison_eq_ok hordered hlower).1,
      holds_beyond_of_order? .above hback hholds⟩
  · intro e higher hholds horder
    have hhigher : f.Admits higher := by
      refine admits_of_order? (o := .gt) ?_ hadmits
      rw [Value.order?_swap, horder]
      rfl
    exact ⟨_, (comparison_eq_ok hordered hhigher).2.2.1,
      holds_beyond_of_order? .below horder hholds⟩

/-- A record of a leap second under a bound shortly before it: exactly one of the three filters
holds, and one second before the bound the record is still above. -/
theorem bounds_partition_leap_second :
    let taken : Field := ⟨"taken", .scalar .dateTime, none, none⟩
    let leap : Value := .dateTime ⟨⟨2016, 12, 31, by decide⟩, 86399, 1500000000, by decide⟩
    let second : Value := .dateTime ⟨⟨2016, 12, 31, by decide⟩, 86399, 900000000, by decide⟩
    let earlier : Value := .dateTime ⟨⟨2016, 12, 31, by decide⟩, 86398, 900000000, by decide⟩
    let record := Entity.empty.put "taken" leap
    ∃ above equal below lower : Filter,
      greaterThan taken second = .ok above ∧ Filter.is taken second = .ok equal ∧
      lessThan taken second = .ok below ∧ greaterThan taken earlier = .ok lower ∧
      [above, equal, below].countP (holds record) = 1 ∧ lower.holds record = true := by
  intro taken leap second earlier record
  have hf : ∃ v g, greaterThan taken v = .ok g ∨ lessThan taken v = .ok g :=
    ⟨second, _, .inl rfl⟩
  have hb : second.conformsTo taken.type = true := by decide
  obtain ⟨above, equal, below, unequal, habove, hequal, hbelow, -, hpartition, hmonotone, -⟩ :=
    bounds_partition hf hb
  have hcount := (hpartition record (by decide)).1 (by decide)
  have hholds : above.holds record = true := by
    cases habove
    decide
  obtain ⟨lower, hmade, hlower⟩ := hmonotone record earlier hholds (by decide)
  exact ⟨above, equal, below, lower, habove, hequal, hbelow, hmade, hcount, hlower⟩

end Filter

end RecordStore
