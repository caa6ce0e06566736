import RecordStore.Filter.Query
import RecordStore.Proofs.Filter.Constructible

/-!
# `RecordStore.Proofs.Engine.Clause`: the names that a query asks about

A query asks about names only in the clauses at the ends of its combinations. `clauses` lists
them with their names by the shape of the query alone, in the way in which a query is understood:
an object with the key `bool` holds combinations, and any other key is what a clause asks.

* `clauses`: the clauses in a query.
* `clauses_toQuery`: the query of a filter has one clause for each of the conditions in it.
-/

set_option autoImplicit false

namespace RecordStore.Engine

/-- A clause about the values under one name:

- `kind`: what it asks of them;
- `name`: the name. -/
structure Clause where
  kind : String
  name : String
deriving DecidableEq

/-- The clause of a kind with the given body, if it is about a name. -/
def Clause.ofMember? (kind : String) (body : Json) : Option Clause :=
  if kind = "exists" then ((body.member? "field").bind Json.string?).map (Clause.mk kind)
  else
    match body with
    | .object [(name, _)] => some ⟨kind, name⟩
    | _ => none

mutual

/-- The clauses about names in a query, or in several queries, in order. -/
def clauses : Json → List Clause
  | .object members => memberClauses members
  | .array queries => clausesAll queries
  | .null => []
  | .bool _ => []
  | .int _ => []
  | .float _ => []
  | .string _ => []

/-- The clauses in the members of a query. -/
def memberClauses : List (String × Json) → List Clause
  | [] => []
  | (kind, body) :: rest =>
    (if kind = "bool" then combinedClauses body else (Clause.ofMember? kind body).toList) ++
      memberClauses rest

/-- The clauses in a combination. -/
def combinedClauses : Json → List Clause
  | .object parts => partClauses parts
  | .null => []
  | .bool _ => []
  | .int _ => []
  | .float _ => []
  | .string _ => []
  | .array _ => []

/-- The clauses in the parts of a combination. -/
def partClauses : List (String × Json) → List Clause
  | [] => []
  | (_, queries) :: rest => clauses queries ++ partClauses rest

/-- The clauses in several queries. -/
def clausesAll : List Json → List Clause
  | [] => []
  | query :: rest => clauses query ++ clausesAll rest

end

end RecordStore.Engine

namespace RecordStore.Filter

open RecordStore.Engine
open RecordStore.Json (single)

/-- The clause that a condition on a field is turned into: equality and membership ask about the
keyword name of the field, bounds and presence about its document name. -/
def clause? : Filter → Option Clause
  | .equal _ g _ => some ⟨"term", g.keywordName⟩
  | .member _ g _ => some ⟨"terms", g.keywordName⟩
  | .beyond _ g _ => some ⟨"range", g.documentName⟩
  | .present _ g => some ⟨"exists", g.documentName⟩
  | .anyOf _ => none

/-- A query of one clause has that clause. -/
theorem clauses_single {kind : String} (h : kind ≠ "bool") (body : Json) :
    clauses (single kind body) = (Clause.ofMember? kind body).toList := by
  rw [single, clauses, memberClauses, if_neg h, memberClauses, List.append_nil]

/-- A combination under one key has the clauses of what is combined. -/
theorem clauses_combination (key : String) (queries : Json) :
    clauses (single "bool" (single key queries)) = clauses queries := by
  rw [single, clauses, memberClauses, if_pos rfl, memberClauses, List.append_nil, single,
    combinedClauses, partClauses, partClauses, List.append_nil]

/-- The negation of a clause has that clause. -/
theorem clauses_withSign (negated : Bool) (clause : Json) :
    clauses (withSign negated clause) = clauses clause := by
  cases negated with
  | false => rfl
  | true => exact clauses_combination "must_not" clause

mutual

/-- The query of a filter has the clauses of the conditions in the filter, in order. -/
theorem clauses_toQuery : (f : Filter) → clauses f.toQuery = f.leaves.filterMap clause?
  | .equal n g v => by
    rw [toQuery, clauses_withSign, clauses_single (by decide)]
    rfl
  | .member n g vs => by
    rw [toQuery, clauses_withSign, clauses_single (by decide)]
    rfl
  | .beyond side g bound => by
    rw [toQuery, clauses_single (by decide)]
    rfl
  | .present n g => by
    rw [toQuery, clauses_withSign, clauses_single (by decide)]
    rfl
  -- A disjunction of nothing has a query of its own, which is about no name.
  | .anyOf [] => by
    rw [toQuery, clauses_single (by decide)]
    rfl
  | .anyOf (f :: rest) => by
    rw [toQuery, clauses_combination, clauses]
    exact clausesAll_toQueries (f :: rest)

/-- The queries of several filters have the clauses of the conditions in all of them. -/
theorem clausesAll_toQueries : (fs : List Filter) →
    clausesAll (toQueries fs) = (leavesAll fs).filterMap clause?
  | [] => rfl
  | f :: rest => by
    rw [toQueries, clausesAll, clauses_toQuery f, clausesAll_toQueries rest, leavesAll,
      List.filterMap_append]

end

end RecordStore.Filter
