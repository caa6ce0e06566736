import RecordStore.Entity
import RecordStore.Filter.Basic

/-!
# `RecordStore.Filter.Evaluation`: filters on entities in memory

A field has the elements of its list, or its one value as its only element; an absent field and an
empty list have no elements, as in a search index. A filter looks for an element with some
property, and a negated filter holds where the filter itself does not, so it holds of a field
without elements.
-/

set_option autoImplicit false

namespace RecordStore

/-- The values of a field, one by one. -/
def Entity.elements (e : Entity) (f : Field) : List Value :=
  match e.value? f.name with
  | none => []
  | some (.list items) => items
  | some v => [v]

namespace Filter

/-- The value is on the given side of the bound. -/
def isBeyond (side : Side) (bound v : Value) : Bool :=
  match side with
  | .above => v.order? bound == some .gt
  | .below => v.order? bound == some .lt

mutual

/-- The filter holds of the entity. -/
def holds (e : Entity) : Filter → Bool
  | .equal negated f v => negated != (e.elements f).any fun w => w.same v
  | .member negated f vs => negated != (e.elements f).any fun w => vs.any fun v => w.same v
  | .beyond side f bound => (e.elements f).any (isBeyond side bound)
  | .present negated f => negated != !(e.elements f).isEmpty
  | .anyOf fs => holdsAny e fs

/-- Some of the filters hold of the entity. -/
def holdsAny (e : Entity) : List Filter → Bool
  | [] => false
  | f :: rest => holds e f || holdsAny e rest

end

/-- Some of the filters hold if one of them does. -/
theorem holdsAny_eq_any (e : Entity) (fs : List Filter) : holdsAny e fs = fs.any (holds e) := by
  induction fs with
  | nil => rfl
  | cons f rest ih => simp [holdsAny, ih]

end Filter

end RecordStore
