import RecordStore.Filter.Basic
import RecordStore.Value.Json

/-!
# `RecordStore.Filter.Query`: filters as queries of a search engine

Equality and membership look at the keyword name of a field, bounds and presence at its document
name. A disjunction of nothing holds of nothing, which needs a clause of its own: to the engine a
condition with no alternatives is no condition.
-/

set_option autoImplicit false

namespace RecordStore.Filter

open RecordStore.Json (single)

/-- The clause that holds where `clause` does not. -/
def mustNot (clause : Json) : Json :=
  single "bool" (single "must_not" clause)

/-- `clause`, or its negation. -/
def withSign (negated : Bool) (clause : Json) : Json :=
  if negated then mustNot clause else clause

mutual

/-- The query that selects what the filter holds of. -/
def toQuery : Filter → Json
  | .equal negated f v => withSign negated (single "term" (single f.keywordName v.toJson))
  | .member negated f vs =>
    withSign negated (single "terms" (single f.keywordName (Value.list vs).toJson))
  | .beyond side f bound =>
    single "range" (single f.documentName (single side.word bound.toJson))
  | .present negated f =>
    withSign negated (single "exists" (single "field" (.string f.documentName)))
  | .anyOf fs =>
    match fs with
    | [] => single "match_none" (.object [])
    | f :: rest => single "bool" (single "should" (.array (toQueries (f :: rest))))

/-- The queries of several filters. -/
def toQueries : List Filter → List Json
  | [] => []
  | f :: rest => toQuery f :: toQueries rest

end

/-- The queries stand in the order of the filters. -/
theorem toQueries_eq_map (fs : List Filter) : toQueries fs = fs.map toQuery := by
  induction fs with
  | nil => rfl
  | cons f rest ih => simp [toQueries, ih]

end RecordStore.Filter
