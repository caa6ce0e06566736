import RecordStore.Entity
import RecordStore.Filter.Query
import RecordStore.Mapping
import RecordStore.Store.Client
import RecordStore.Store.Error

/-!
# `RecordStore.Store.Search`: entities kept in a search index

Entities are written as documents, and all filters of a read become one query without scores. A
reply counts only if it holds every match: `decodeReply` refuses one that says that there are
more, or that does not say how many there are exactly. A reply without a number of matches is
taken to be complete.
-/

set_option autoImplicit false

namespace RecordStore

open RecordStore.Json (single)

/-! ### Replies -/

section Replies

variable {ε : Type}

/-- The entity that a stored document holds. -/
def Schema.decodeSource (s : Schema) (source : Json) : Except (StoreError ε) Entity :=
  match source with
  | .object members =>
    match s.ofDocument members with
    | .ok e => .ok e
    | .error cause => .error (.refused cause)
  | _ => .error (.malformed (.notObject source))

/-- The number of matches and its relation to the true number. A bare number is exact, and so is
one without a relation. -/
def readTotal (total : Json) : Option Nat × String :=
  match total with
  | .int n => (Json.count? (.int n), "eq")
  | .float _ => (none, "eq")
  | _ =>
    ((total.member? "value").bind Json.count?,
      ((total.member? "relation").bind Json.string?).getD "eq")

/-- The reply with `returned` hits holds all matches. -/
def checkComplete (total : Option Json) (returned : Nat) : Except (StoreError ε) Unit :=
  match total with
  | none => .ok ()
  | some total =>
    match readTotal total with
    | (none, _) => .error (.malformed (.badTotal total))
    | (some value, relation) =>
      -- Only an exact number that the hits reach says that nothing is missing.
      if relation = "eq" ∧ value ≤ returned then .ok ()
      else .error (.truncated returned value relation)

/-- The entities that the hits hold, or the first error. -/
def Schema.decodeHits (s : Schema) : List Json → Except (StoreError ε) (List Entity)
  | [] => .ok []
  | hit :: rest =>
    match hit.member? "_source" with
    | none => .error (.malformed .noSource)
    | some source =>
      match s.decodeSource source with
      | .error e => .error e
      | .ok e =>
        match s.decodeHits rest with
        | .error err => .error err
        | .ok es => .ok (e :: es)

/-- The entities that a reply to a search holds. -/
def Schema.decodeReply (s : Schema) (reply : Json) : Except (StoreError ε) (List Entity) :=
  let hits := reply.member? "hits"
  match (hits.bind (Json.member? "hits")).bind Json.items? with
  | none => .error (.malformed .noHits)
  | some items =>
    match checkComplete (hits.bind (Json.member? "total")) items.length with
    | .error e => .error e
    | .ok () => s.decodeHits items

end Replies

/-- The body of the search for what satisfies all filters. -/
def searchBody (filters : List Filter) : Json :=
  single "query" (single "bool" (single "filter" (.array (filters.map Filter.toQuery))))

/-! ### The store -/

/-- A store of the entities of a schema in an index of a search engine. -/
structure SearchStore (m : Type → Type) (ε : Type) where
  client : SearchClient m ε
  schema : Schema
  index : String

namespace SearchStore

variable {m : Type → Type} [Monad m] {ε α β : Type}

/-- What a store makes of the answer to a request: a failure is kept as the cause. -/
def answer (result : Except ε α) (next : α → Except (StoreError ε) β) :
    Except (StoreError ε) β :=
  match result with
  | .ok a => next a
  | .error cause => .error (.client cause)

/-- Create the index with the schema's mapping. -/
def ensureIndex (s : SearchStore m ε) : m (Except (StoreError ε) Unit) := do
  let result ← s.client.createIndex s.index s.schema.mapping
  pure (answer result .ok)

/-- Put an entity under a key, whatever stood there. -/
def put (s : SearchStore m ε) (key : String) (e : Entity) : m (Except (StoreError ε) Unit) := do
  let result ← s.client.put s.index key (.object (s.schema.toDocument e))
  pure (answer result .ok)

/-- The entity under a key. -/
def get (s : SearchStore m ε) (key : String) : m (Except (StoreError ε) Entity) := do
  let result ← s.client.get s.index key
  pure (answer result fun
    | some source => s.schema.decodeSource source
    | none => .error (.notFound key))

/-- Remove the entity under a key, which must be there. -/
def delete (s : SearchStore m ε) (key : String) : m (Except (StoreError ε) Unit) := do
  let result ← s.client.delete s.index key
  pure (answer result fun found => if found then .ok () else .error (.notFound key))

/-- The entities that satisfy all filters, in the order of the reply. -/
def read (s : SearchStore m ε) (filters : List Filter) :
    m (Except (StoreError ε) (List Entity)) := do
  let result ← s.client.search s.index (searchBody filters)
  pure (answer result s.schema.decodeReply)

end SearchStore

end RecordStore
