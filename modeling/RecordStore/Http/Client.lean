import RecordStore.Http.Error
import RecordStore.Settings.Basic
import RecordStore.Store.Client

/-!
# `RecordStore.Http.Client`: a search engine behind an address

Each request of a store becomes one exchange: a request is made from the settings, and what comes
back decides the answer. Both halves are plain functions; `HttpClient.searchClient` puts an
exchange of any kind between them.

* `accept_eq_ok_iff`: which replies an answer is read from.
-/

set_option autoImplicit false

namespace RecordStore

open RecordStore.Http

/-- A client for the search engine at a base URL:

- `base`: the URL that all requests are built upon;
- `settings`: how the engine is spoken to;
- `rooted`: other URLs can be built upon the base. -/
structure HttpClient where
  base : Url
  settings : Settings
  rooted : base.isRootless = false

namespace HttpClient

/-- The client with the given settings, if their address is a URL that others can be built upon. -/
def new (settings : Settings) : Except SettingsFault HttpClient :=
  match Url.ofText? settings.url with
  | .error cause => .error (.badUrl settings.url cause)
  | .ok base =>
    if h : base.isRootless = true then .error (.rootlessUrl settings.url)
    else .ok ⟨base, settings, by simpa using h⟩

/-! ### Addresses -/

/-- The URL of an index. -/
def indexUrl (c : HttpClient) (index : String) : Url :=
  c.base.withSegments [index]

/-- The URL of a document. -/
def documentUrl (c : HttpClient) (index id : String) : Url :=
  c.base.withSegments [index, "_doc", id]

/-- The URL for searches in an index: so many hits, and an exact count of the matches. -/
def searchUrl (c : HttpClient) (index : String) : Url :=
  ((c.base.withSegments [index, "_search"]).withPair "size"
    (String.ofList (Decimal.digits c.settings.maxHits))).withPair "track_total_hits" "true"

/-- The URL for a write, which says whether the write must show in searches at once. -/
def writeUrl (c : HttpClient) (index id : String) : Url :=
  (c.documentUrl index id).withPair "refresh" (if c.settings.refresh then "true" else "false")

/-! ### Requests -/

/-- The authorization, if the settings name a user; a password that is not set is empty. -/
def authorization (c : HttpClient) : Option String :=
  c.settings.username.map fun user => basicAuthorization user (c.settings.password.getD "")

/-- The request to look a document up. -/
def getRequest (c : HttpClient) (index id : String) : Request :=
  ⟨.get, c.documentUrl index id, c.authorization, none⟩

/-- The request to put a document under an id. -/
def putRequest (c : HttpClient) (index id : String) (document : Json) : Request :=
  ⟨.put, c.writeUrl index id, c.authorization, some document⟩

/-- The request to remove a document. -/
def deleteRequest (c : HttpClient) (index id : String) : Request :=
  ⟨.delete, c.writeUrl index id, c.authorization, none⟩

/-- The request to run a search. -/
def searchRequest (c : HttpClient) (index : String) (body : Json) : Request :=
  ⟨.post, c.searchUrl index, c.authorization, some body⟩

/-- The request to create an index. -/
def createIndexRequest (c : HttpClient) (index : String) (body : Json) : Request :=
  ⟨.put, c.indexUrl index, c.authorization, some body⟩

/-- The request to remove an index. -/
def deleteIndexRequest (c : HttpClient) (index : String) : Request :=
  ⟨.delete, c.indexUrl index, c.authorization, none⟩

end HttpClient

namespace Http

/-! ### Answers -/

/-- The reply to a request, if it is a success, or an absence where that is an answer too. -/
def accept (absenceToo : Bool) (request : Request) : Option Reply → Except HttpError Reply
  | none => .error .noReply
  | some reply =>
    if reply.isSuccess || (absenceToo && reply.isAbsent) then .ok reply
    else .error (.status request reply)

/-- An answer is read from a reply that is a success, or an absence where that is an answer too. -/
theorem accept_eq_ok_iff {absenceToo : Bool} {request : Request} {reply? : Option Reply}
    {reply : Reply} :
    accept absenceToo request reply? = .ok reply ↔
      reply? = some reply ∧
        (reply.isSuccess = true ∨ (absenceToo = true ∧ reply.isAbsent = true)) := by
  cases reply? with
  | none => simp [accept]
  | some r =>
    simp only [accept, Option.some.injEq, ← Bool.and_eq_true, ← Bool.or_eq_true]
    by_cases h : (r.isSuccess || (absenceToo && r.isAbsent)) = true
    · -- The reply is accepted, so it is the one that is returned.
      rw [if_pos h]
      constructor
      · intro heq
        cases heq
        exact ⟨rfl, h⟩
      · rintro ⟨heq, _⟩
        rw [heq]
    · -- The reply is refused, so no reply at all is returned.
      rw [if_neg h]
      constructor
      · intro heq
        cases heq
      · rintro ⟨heq, hr⟩
        rw [heq] at h
        exact absurd hr h

/-- The JSON value in the body of a reply. -/
def readBody (reply : Reply) : Except HttpError Json :=
  match reply.json? with
  | some body => .ok body
  | none => .error .notJson

/-- The document that the body of a successful look-up holds. A body may also say that there is
none. -/
def readDocument (body : Json) : Except HttpError (Option Json) :=
  if (body.member? "found").bind Json.bool? = some false then .ok none
  else
    match body.member? "_source" with
    | some source => .ok (some source)
    | none => .error .noSource

/-- What a look-up finds out. -/
def readGet (request : Request) (reply? : Option Reply) : Except HttpError (Option Json) := do
  let reply ← accept true request reply?
  if reply.isAbsent then pure none else readDocument (← readBody reply)

/-- What a removal finds out: whether there was a document. -/
def readDelete (request : Request) (reply? : Option Reply) : Except HttpError Bool := do
  let reply ← accept true request reply?
  pure !reply.isAbsent

/-- What a search finds out. -/
def readSearch (request : Request) (reply? : Option Reply) : Except HttpError Json := do
  readBody (← accept false request reply?)

/-- What any other request finds out: that it has been carried out. -/
def readDone (absenceToo : Bool) (request : Request) (reply? : Option Reply) :
    Except HttpError Unit := do
  let _ ← accept absenceToo request reply?

end Http

namespace HttpClient

variable {m : Type → Type} [Monad m]

/-- The requests of a store, each answered by one exchange; an exchange without a reply has
failed. -/
def searchClient (c : HttpClient) (exchange : Request → m (Option Reply)) :
    SearchClient m HttpError :=
  let answer {α : Type} (request : Request)
      (read : Request → Option Reply → Except HttpError α) : m (Except HttpError α) := do
    pure (read request (← exchange request))
  { get := fun index id => answer (c.getRequest index id) readGet
    put := fun index id document => answer (c.putRequest index id document) (readDone false)
    delete := fun index id => answer (c.deleteRequest index id) readDelete
    search := fun index body => answer (c.searchRequest index body) readSearch
    createIndex := fun index body => answer (c.createIndexRequest index body) (readDone false)
    deleteIndex := fun index => answer (c.deleteIndexRequest index) (readDone true) }

end HttpClient

end RecordStore
