import RecordStore.Proofs.Engine.Query
import RecordStore.Proofs.KeyMap
import RecordStore.Store.Client

/-!
# `RecordStore.Proofs.Engine.Client`: an engine that keeps what it is given

A search engine in one place: under each id of an index it keeps the last document that was put
there, and it answers a search with the documents that match. How many hits a reply can hold, and
in what order the matches are listed from one search to the next, is left to a policy; a reply
always says how many matches there are, whether it holds them all or not.

* `Policy`, `State`, `client`: the engine.
* `hits?_mapValues`: the matches of a query that is understood.
-/

set_option autoImplicit false

namespace RecordStore.Engine

open RecordStore.Json (single)

/-- How searches are answered:

- `limit`: a reply lists this many hits at most;
- `arrange`: the matches of a search in the order in which they are listed, which may be another
  one after each search;
- `perm`: only the order is changed. -/
structure Policy where
  limit : Nat
  arrange : Nat → List (String × Json) → List (String × Json)
  perm : ∀ n hits, (arrange n hits).Perm hits

/-- What an engine keeps: the documents of each index under their ids, and how many searches it has
answered. -/
structure State where
  indices : List (String × List (String × Json))
  searches : Nat

/-- Why a request fails: there is no such index, or the request is not understood. -/
inductive Failure where
  | noIndex
  | badRequest

/-! ### Documents -/

namespace State

/-- The documents of an index. -/
def documents (state : State) (index : String) : List (String × Json) :=
  (KeyMap.get? index state.indices).getD []

/-- The state with other documents in an index. -/
def withDocuments (state : State) (index : String) (documents : List (String × Json)) : State :=
  { state with indices := KeyMap.insert index documents state.indices }

/-- The documents of the index are those that were put there. -/
theorem get?_withDocuments (state : State) (index : String) (documents : List (String × Json)) :
    KeyMap.get? index (state.withDocuments index documents).indices = some documents :=
  KeyMap.get?_insert_self index documents state.indices

end State

/-! ### Searches -/

/-- The documents that match a query, with their ids; `none` if the query is not understood. -/
def hits? (query : Json) : List (String × Json) → Option (List (String × Json))
  | [] => some []
  | (id, document) :: rest =>
    (matches? (document.members?.getD []) query).bind fun answer =>
      (hits? query rest).map fun hits => if answer then (id, document) :: hits else hits

/-- A hit as it stands in a reply. -/
def hitJson (index : String) (hit : String × Json) : Json :=
  .ofMembers [("_index", .string index), ("_id", .string hit.1), ("_source", hit.2)]

/-- A number of matches as it stands in a reply. -/
def totalJson (total : Nat) : Json :=
  .ofMembers [("value", .int total), ("relation", .string "eq")]

/-- The reply that lists some hits. -/
def replyJson (index : String) (total : Nat) (hits : List (String × Json)) : Json :=
  single "hits"
    (.ofMembers [("total", totalJson total), ("hits", .array (hits.map (hitJson index)))])

/-- The answer to a search. -/
def search (policy : Policy) (state : State) (index : String) (body : Json) :
    Except Failure Json × State :=
  match KeyMap.get? index state.indices with
  | none => (.error .noIndex, state)
  | some documents =>
    match (body.member? "query").bind fun query => hits? query documents with
    | none => (.error .badRequest, state)
    | some hits =>
      let listed := (policy.arrange state.searches hits).take policy.limit
      (.ok (replyJson index hits.length listed), { state with searches := state.searches + 1 })

/-- The client of the engine. -/
def client (policy : Policy) : SearchClient (StateM State) Failure where
  get index id := modifyGet fun state => (.ok (KeyMap.get? id (state.documents index)), state)
  put index id document := modifyGet fun state =>
    (.ok (), state.withDocuments index (KeyMap.insert id document (state.documents index)))
  delete index id := modifyGet fun state =>
    match KeyMap.get? id (state.documents index) with
    | none => (.ok false, state)
    | some _ =>
      (.ok true, state.withDocuments index (KeyMap.erase id (state.documents index)))
  search index body := modifyGet fun state => search policy state index body
  createIndex index _ := modifyGet fun state =>
    (.ok (), state.withDocuments index (state.documents index))
  deleteIndex index := modifyGet fun state =>
    (.ok (), { state with indices := KeyMap.erase index state.indices })

/-- If a query is understood on each of some documents, the hits are those that match. -/
theorem hits?_mapValues {α : Type} {query : Json} {write : α → Json} {p : α → Bool}
    {entries : List (String × α)}
    (h : ∀ entry ∈ entries,
      matches? ((write entry.2).members?.getD []) query = some (p entry.2)) :
    hits? query (KeyMap.mapValues write entries) =
      some (KeyMap.mapValues write (entries.filter fun entry => p entry.2)) := by
  induction entries with
  | nil => rfl
  | cons entry rest ih =>
    obtain ⟨id, a⟩ := entry
    have hfirst : matches? ((write a).members?.getD []) query = some (p a) :=
      h (id, a) List.mem_cons_self
    have hrest := ih fun entry hentry => h entry (List.mem_cons_of_mem _ hentry)
    rw [KeyMap.mapValues] at hrest
    rw [KeyMap.mapValues, List.map_cons, hits?, hfirst, Option.bind_some, hrest, Option.map_some,
      List.filter_cons]
    cases p a <;> rfl

end RecordStore.Engine
