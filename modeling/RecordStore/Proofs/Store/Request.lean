import RecordStore.Store.Memory
import RecordStore.Store.Search

/-!
# `RecordStore.Proofs.Store.Request`: stores under requests

What is asked of a store and what it answers, as data, so that a store can be asked one request
after the other and two stores can be asked the same.

* `MemoryStore.serve`, `SearchStore.serve`: one request.
* `MemoryStore.run`, `SearchStore.run`: any number of requests.
-/

set_option autoImplicit false

namespace RecordStore

/-- What is asked of a store: to put an entity under a key, for the first time or again, to find or
to remove what is under a key, or to list the entities that satisfy all filters. -/
inductive Request where
  | create (key : String) (e : Entity)
  | update (key : String) (e : Entity)
  | get (key : String)
  | delete (key : String)
  | read (filters : List Filter)

/-- What a store answers: to a write or a removal, to a request for one entity, or to one for
several. -/
inductive Answer (ε : Type) where
  | done (result : Except (StoreError ε) Unit)
  | entity (result : Except (StoreError ε) Entity)
  | entities (result : Except (StoreError ε) (List Entity))

/-- The answer of a store in memory, and the store after it. -/
def MemoryStore.serve {ε : Type} (s : MemoryStore) : Request → Answer ε × MemoryStore
  | .create key e => (.done (.ok ()), s.put key e)
  | .update key e => (.done (.ok ()), s.put key e)
  | .get key => (.entity (s.get key), s)
  | .delete key =>
    match s.delete key with
    | .ok next => (.done (.ok ()), next)
    | .error cause => (.done (.error cause), s)
  | .read filters => (.entities (.ok (s.read filters)), s)

/-- The answers of a store in memory, and the store after them. -/
def MemoryStore.run {ε : Type} (s : MemoryStore) : List Request → List (Answer ε) × MemoryStore
  | [] => ([], s)
  | request :: rest =>
    let (answer, next) := s.serve request
    let (answers, last) := next.run rest
    (answer :: answers, last)

section Search

variable {m : Type → Type} [Monad m] {ε : Type}

/-- The answer of a store in an index. -/
def SearchStore.serve (s : SearchStore m ε) : Request → m (Answer ε)
  | .create key e => Answer.done <$> s.put key e
  | .update key e => Answer.done <$> s.put key e
  | .get key => Answer.entity <$> s.get key
  | .delete key => Answer.done <$> s.delete key
  | .read filters => Answer.entities <$> s.read filters

/-- The answers of a store in an index. -/
def SearchStore.run (s : SearchStore m ε) : List Request → m (List (Answer ε))
  | [] => pure []
  | request :: rest => do
    let answer ← s.serve request
    let answers ← s.run rest
    pure (answer :: answers)

end Search

end RecordStore
