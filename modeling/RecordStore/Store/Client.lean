import RecordStore.Json.Basic

/-!
# `RecordStore.Store.Client`: what a store needs of a search engine

A client is a record of the requests that a search engine serves. Documents are JSON objects under
ids in a named index. The requests run in a monad `m` of the client's choice, and `ε` is what it
reports when a request fails.
-/

set_option autoImplicit false

namespace RecordStore

/-- The requests that a search engine serves:

- `get`: the document under an id, if there is one;
- `put`: put a document under an id;
- `delete`: remove the document under an id; the answer says whether there was one;
- `search`: run a search and answer with the reply as it is;
- `createIndex`: create an index with the given mapping;
- `deleteIndex`: remove an index, if it is there. -/
structure SearchClient (m : Type → Type) (ε : Type) where
  get (index id : String) : m (Except ε (Option Json))
  put (index id : String) (document : Json) : m (Except ε Unit)
  delete (index id : String) : m (Except ε Bool)
  search (index : String) (body : Json) : m (Except ε Json)
  createIndex (index : String) (body : Json) : m (Except ε Unit)
  deleteIndex (index : String) : m (Except ε Unit)

end RecordStore
