import RecordStore.Value.Basic

/-!
# `RecordStore.Proofs.Value.Order`: the order of values

Scalars of one type are compared by what orders their type: texts and truth values by themselves,
numbers by their exact value, date-times by their place among all others. So the order of values
has the laws of an order, and values are equal if neither comes before the other. The two zeros
have one exact value, and a leap second has a place of its own.

* `order?_eq_some_iff`: which values are compared, and how.
* `order?_swap`, `order?_trans`: the laws of an order.
* `same_iff_order?`: equality is that of the order.
* `exists_order?_iff`: two scalars of one type are compared unless one of them is no number.
-/

set_option autoImplicit false

namespace RecordStore

/-- In an order, two things that are exchanged stand the other way round. -/
theorem compare_swap {α : Type} [Ord α] [Std.OrientedOrd α] {a b : α} {o : Ordering}
    (h : compare a b = o) : compare b a = o.swap :=
  Std.OrientedOrd.eq_swap.trans (congrArg Ordering.swap h)

/-- In an order, what stands as the ordering says to one thing, which stands so to another, stands
so to that other. -/
theorem compare_trans {α : Type} [Ord α] [Std.TransOrd α] {a b c : α} {o : Ordering}
    (hab : compare a b = o) (hbc : compare b c = o) : compare a c = o := by
  cases o with
  | lt => exact Std.TransCmp.lt_trans hab hbc
  | eq => exact Std.TransCmp.eq_trans hab hbc
  | gt => exact Std.TransCmp.gt_trans hab hbc

/-- Two doubles are ordered, by their exact values, if both are numbers. -/
theorem Binary64.order?_eq_some_iff {x y : Binary64} {o : Ordering} :
    x.order? y = some o ↔ x.isNaN = false ∧ y.isNaN = false ∧ compare x.units y.units = o := by
  rw [order?]
  cases x.isNaN <;> cases y.isNaN <;> simp

namespace Value

/-- The value is a double that is no number. -/
def isNaN : Value → Bool
  | .float x => x.isNaN
  | _ => false

/-- The first value stands to the second as the ordering says: they are scalars of one type, and
what their type compares them by is so ordered. -/
inductive Compares : Value → Value → Ordering → Prop where
  | string {a b : String} {o : Ordering} (h : compare a b = o) :
      Compares (.string a) (.string b) o
  | integer {a b : Int64} {o : Ordering} (h : compare a.toInt b.toInt = o) :
      Compares (.integer a) (.integer b) o
  | float {x y : Binary64} {o : Ordering} (hx : x.isNaN = false) (hy : y.isNaN = false)
      (h : compare x.units y.units = o) : Compares (.float x) (.float y) o
  | boolean {a b : Bool} {o : Ordering} (h : compare a b = o) :
      Compares (.boolean a) (.boolean b) o
  | dateTime {a b : Calendar.DateTime} {o : Ordering} (h : compare a.instant b.instant = o) :
      Compares (.dateTime a) (.dateTime b) o

/-- The order of two values is what `Compares` says, and there is none where it says nothing. -/
theorem order?_eq_some_iff {v w : Value} {o : Ordering} :
    v.order? w = some o ↔ Compares v w o := by
  constructor
  · intro h
    cases v <;> cases w
    case string.string a b => exact .string (Option.some.inj h)
    case integer.integer a b => exact .integer (Option.some.inj h)
    case float.float x y =>
      obtain ⟨hx, hy, ho⟩ := Binary64.order?_eq_some_iff.mp h
      exact .float hx hy ho
    case boolean.boolean a b => exact .boolean (Option.some.inj h)
    case dateTime.dateTime a b => exact .dateTime (Option.some.inj h)
    -- Values of two types are not compared, and neither are lists.
    all_goals cases h
  · intro h
    cases h with
    | string h | integer h | boolean h | dateTime h => exact congrArg some h
    | float hx hy h => exact Binary64.order?_eq_some_iff.mpr ⟨hx, hy, h⟩

/-- Values that are compared are scalars of one type. -/
theorem scalarType?_eq_of_order? {v w : Value} {o : Ordering} (h : v.order? w = some o) :
    v.scalarType? = w.scalarType? := by
  cases order?_eq_some_iff.mp h <;> rfl

/-! ### The laws of an order -/

/-- Two values that are compared stand the other way round if they are exchanged. -/
theorem Compares.swap {v w : Value} {o : Ordering} (h : Compares v w o) :
    Compares w v o.swap := by
  cases h with
  | string h => exact .string (compare_swap h)
  | integer h => exact .integer (compare_swap h)
  | float hx hy h => exact .float hy hx (compare_swap h)
  | boolean h => exact .boolean (compare_swap h)
  | dateTime h => exact .dateTime (compare_swap h)

/-- Of three values of which each stands alike to the next, the first stands so to the last. -/
theorem Compares.trans {u v w : Value} {o : Ordering} (huv : Compares u v o)
    (hvw : Compares v w o) : Compares u w o := by
  cases huv with
  | string huv =>
    cases hvw with
    | string hvw => exact .string (compare_trans huv hvw)
  | integer huv =>
    cases hvw with
    | integer hvw => exact .integer (compare_trans huv hvw)
  | float hu hv huv =>
    cases hvw with
    | float _ hw hvw => exact .float hu hw (compare_trans huv hvw)
  | boolean huv =>
    cases hvw with
    | boolean hvw => exact .boolean (compare_trans huv hvw)
  | dateTime huv =>
    cases hvw with
    | dateTime hvw => exact .dateTime (compare_trans huv hvw)

/-- Exchanged values have the order that is the other way round. -/
theorem order?_swap (v w : Value) : w.order? v = (v.order? w).map Ordering.swap := by
  cases h : v.order? w with
  | some o => exact order?_eq_some_iff.mpr (order?_eq_some_iff.mp h).swap
  | none =>
    cases h' : w.order? v with
    | none => rfl
    | some o =>
      have hswap := order?_eq_some_iff.mpr (order?_eq_some_iff.mp h').swap
      rw [h] at hswap
      cases hswap

/-- The order of values is transitive, in each of its three relations. -/
theorem order?_trans {u v w : Value} {o : Ordering} (huv : u.order? v = some o)
    (hvw : v.order? w = some o) : u.order? w = some o :=
  order?_eq_some_iff.mpr
    ((order?_eq_some_iff.mp huv).trans (order?_eq_some_iff.mp hvw))

/-! ### Scalars of one type -/

/-- Two scalars of one type are equal if they are compared and neither comes before the other. -/
theorem same_iff_order? {t : ScalarType} {v w : Value} (hv : v.scalarType? = some t)
    (hw : w.scalarType? = some t) : v.same w = true ↔ v.order? w = some .eq := by
  cases v <;> cases hv <;> cases w <;> cases hw
  case string.refl.string.refl a b =>
    show (a == b) = true ↔ some (compare a b) = some .eq
    rw [beq_iff_eq, Option.some.injEq, Std.LawfulEqCmp.compare_eq_iff_eq]
  case boolean.refl.boolean.refl a b =>
    show (a == b) = true ↔ some (compare a b) = some .eq
    rw [beq_iff_eq, Option.some.injEq, Std.LawfulEqCmp.compare_eq_iff_eq]
  case integer.refl.integer.refl a b =>
    show (a == b) = true ↔ some (compare a.toInt b.toInt) = some .eq
    rw [beq_iff_eq, Option.some.injEq, Std.LawfulEqCmp.compare_eq_iff_eq, Int64.toInt_inj]
  case float.refl.float.refl x y =>
    show (x.order? y == some .eq) = true ↔ x.order? y = some .eq
    exact beq_iff_eq
  case dateTime.refl.dateTime.refl a b =>
    -- A date-time is determined by its place, a leap second by one of its own.
    show (a == b) = true ↔ some (compare a.instant b.instant) = some .eq
    rw [beq_iff_eq, Option.some.injEq, Std.LawfulEqCmp.compare_eq_iff_eq]
    exact ⟨congrArg _, Calendar.DateTime.instant_injective⟩

/-- The two zeros are one number. -/
example : (Value.float ⟨true, 0, by decide⟩).order? (.float ⟨false, 0, by decide⟩) = some .eq := by
  decide

/-- Two scalars of one type are compared unless one of them is no number. -/
theorem exists_order?_iff {t : ScalarType} {v w : Value} (hv : v.scalarType? = some t)
    (hw : w.scalarType? = some t) :
    (∃ o, v.order? w = some o) ↔ v.isNaN = false ∧ w.isNaN = false := by
  cases v <;> cases hv <;> cases w <;> cases hw
  case float.refl.float.refl x y =>
    constructor
    · rintro ⟨o, h⟩
      obtain ⟨hx, hy, -⟩ := Binary64.order?_eq_some_iff.mp h
      exact ⟨hx, hy⟩
    · rintro ⟨hx, hy⟩
      exact ⟨_, Binary64.order?_eq_some_iff.mpr ⟨hx, hy, rfl⟩⟩
  all_goals exact iff_of_true ⟨_, rfl⟩ ⟨rfl, rfl⟩

end Value

end RecordStore
