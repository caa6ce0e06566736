import RecordStore.Proofs.Http.Address
import RecordStore.Proofs.Http.Reply
import RecordStore.Proofs.Store.Decision
import RecordStore.Proofs.Store.Request

/-!
# `RecordStore.Proofs.Http.Outcome`: what a store makes of a reply

An operation of a store behind an address is one exchange. What it makes of the reply is one of
three things: an entity is missing, the exchange has failed, or the reply is used. The conditions of
the three exclude each other, so a missing document is never taken for a failed request, nor the
other way round.

* `Settles`: the three things, each with the condition under which it is what comes out.
* `settles_get`, `settles_delete`, `settles_done`, `settles_read`: the operations on any reply.
* `SearchStore.settles_by_reply`: the operations as exchanges.
-/

set_option autoImplicit false

namespace RecordStore

namespace Http

/-! ### Outcomes -/

variable {β : Type} {request : Request} {reply : Reply}

/-- The result says neither that an entity is missing nor that an exchange has failed. -/
def IsOwn (result : Except (StoreError HttpError) β) : Prop :=
  (∀ key, result ≠ .error (.notFound key)) ∧ ∀ cause, result ≠ .error (.client cause)

/-- The result is one of three things, each exactly under its condition:

- `notFound`: an entity is missing;
- `client`: the exchange has failed, and the result has its error for a cause;
- `own`: the result is what the rest of the operation makes of the reply. -/
structure Settles (missing : String → Prop) (fails : HttpError → Prop)
    (goesOn : Except (StoreError HttpError) β → Prop) (result : Except (StoreError HttpError) β) :
    Prop where
  notFound : ∀ key, result = .error (.notFound key) ↔ missing key
  client : ∀ cause, result = .error (.client cause) ↔ fails cause
  own : ∀ next, IsOwn next ∧ result = next ↔ goesOn next

/-- The result of an operation that only has to be carried out: no entity can be missing, a status
404 is a failure like any other, and what is not a failure is done. -/
def SettlesDone (request : Request) (reply : Reply) :
    Except (StoreError HttpError) Unit → Prop :=
  Settles (fun _ => False) (Fails false .nothing request reply)
    fun next => reply.isSuccess = true ∧ next = .ok ()

/-- What is done is the operation's own. -/
theorem isOwn_ok (a : β) : IsOwn (.ok a) := by
  constructor
  · intro key h
    cases h
  · intro cause h
    cases h

/-- An error without a cause that is no absence is the operation's own. -/
theorem isOwn_error {e : StoreError HttpError} (hfound : e.isNotFound = false)
    (hcause : e.cause? = none) : IsOwn (.error e : Except (StoreError HttpError) β) := by
  constructor
  · rintro key ⟨⟩
    cases hfound
  · rintro cause ⟨⟩
    cases hcause

/-- If one of the three conditions is met, and each of them decides the result, then the result is
settled. -/
theorem settles_of_cases {missing : String → Prop} {fails : HttpError → Prop}
    {goesOn : Except (StoreError HttpError) β → Prop} {result : Except (StoreError HttpError) β}
    (hcases : (∃ key, missing key) ∨ (∃ cause, fails cause) ∨ ∃ next, goesOn next)
    (hmissing : ∀ key, missing key → result = .error (.notFound key))
    (hfails : ∀ cause, fails cause → result = .error (.client cause))
    (hgoesOn : ∀ next, goesOn next → IsOwn next ∧ result = next) :
    Settles missing fails goesOn result := by
  -- Each condition excludes the others, since the results they decide on differ.
  refine ⟨fun key => ⟨fun h => ?_, hmissing key⟩, fun cause => ⟨fun h => ?_, hfails cause⟩,
    fun next => ⟨?_, hgoesOn next⟩⟩
  · rcases hcases with ⟨key', hkey'⟩ | ⟨cause, hcause⟩ | ⟨next, hnext⟩
    · have hsame := (hmissing key' hkey').symm.trans h
      cases hsame
      exact hkey'
    · cases (hfails cause hcause).symm.trans h
    · obtain ⟨hown, rfl⟩ := hgoesOn next hnext
      exact absurd h (hown.1 key)
  · rcases hcases with ⟨key, hkey⟩ | ⟨cause', hcause'⟩ | ⟨next, hnext⟩
    · cases (hmissing key hkey).symm.trans h
    · have hsame := (hfails cause' hcause').symm.trans h
      cases hsame
      exact hcause'
    · obtain ⟨hown, rfl⟩ := hgoesOn next hnext
      exact absurd h (hown.2 cause)
  · rintro ⟨hown, rfl⟩
    rcases hcases with ⟨key, hkey⟩ | ⟨cause, hcause⟩ | ⟨next, hnext⟩
    · exact absurd (hmissing key hkey) (hown.1 key)
    · exact absurd (hfails cause hcause) (hown.2 cause)
    · rw [(hgoesOn next hnext).2]
      exact hnext

end Http

namespace Schema

open RecordStore.Http

/-- What a stored document is decoded to is the store's own. -/
theorem isOwn_decodeSource (s : Schema) (source : Json) :
    IsOwn (s.decodeSource (ε := HttpError) source) := by
  cases source with
  | object members =>
    rw [decodeSource]
    cases s.ofDocument members with
    | ok e => exact isOwn_ok e
    | error cause => exact isOwn_error rfl rfl
  | null | bool | int | float | string | array => exact isOwn_error rfl rfl

/-- What a reply to a search is decoded to is the store's own. -/
theorem isOwn_decodeReply (s : Schema) (reply : Json) :
    IsOwn (s.decodeReply (ε := HttpError) reply) := by
  rcases s.accepts_or_refuses (ε := HttpError) reply with ⟨es, hes⟩ | ⟨e, he⟩
  · rw [decodeReply_of_accepts hes]
    exact isOwn_ok es
  · rw [decodeReply_of_refuses he]
    cases he with
    | noHits | badTotal | truncated => exact isOwn_error rfl rfl
    | hit _ _ _ refused => cases refused <;> exact isOwn_error rfl rfl

end Schema

namespace Http

variable {β : Type}

/-! ### Operations on a reply -/

/-- A look-up finds nothing if the status is 404 or a success says that there is nothing, and it
decodes the document that any other success shows. -/
theorem settles_get (s : Schema) (key : String) (request : Request) (reply : Reply) :
    Settles (fun k => k = key ∧ (reply.status = 404 ∨ reply.isSuccess = true ∧ reply.Denies))
      (Fails true .document request reply)
      (fun next => ∃ source, reply.isSuccess = true ∧ reply.Shows source ∧
        next = s.decodeSource source)
      (SearchStore.answer (readGet request (some reply)) fun
        | some source => s.decodeSource source
        | none => .error (.notFound key)) := by
  refine settles_of_cases ?_ ?_ ?_ ?_
  · -- The cases are the checks in their order: the status first, then the body of a success.
    rcases isSuccess_or_absent_or_fails true .document request reply with
      hsuccess | ⟨-, habsent⟩ | hfails
    · rcases denies_or_shows_or_fails request hsuccess with hdenies | ⟨source, hshows⟩ | hfails
      · exact .inl ⟨key, rfl, .inr ⟨hsuccess, hdenies⟩⟩
      · exact .inr (.inr ⟨_, source, hsuccess, hshows, rfl⟩)
      · exact .inr (.inl hfails)
    · exact .inl ⟨key, rfl, .inl habsent⟩
    · exact .inr (.inl ⟨_, hfails⟩)
  · rintro k ⟨rfl, habsent | ⟨hsuccess, hdenies⟩⟩
    · rw [readGet_of_absent habsent]
      rfl
    · rw [readGet_of_denies hsuccess hdenies]
      rfl
  · intro cause hfails
    rw [readGet_of_fails hfails]
    rfl
  · rintro next ⟨source, hsuccess, hshows, rfl⟩
    rw [readGet_of_shows hsuccess hshows]
    exact ⟨s.isOwn_decodeSource source, rfl⟩

/-- A removal finds nothing if the status is 404, and is done if it is a success. -/
theorem settles_delete (key : String) (request : Request) (reply : Reply) :
    Settles (fun k => k = key ∧ reply.status = 404) (Fails true .nothing request reply)
      (fun next => reply.isSuccess = true ∧ next = .ok ())
      (SearchStore.answer (readDelete request (some reply)) fun found =>
        if found then .ok () else .error (.notFound key)) := by
  refine settles_of_cases ?_ ?_ ?_ ?_
  · rcases isSuccess_or_absent_or_fails true .nothing request reply with
      hsuccess | ⟨-, habsent⟩ | hfails
    · exact .inr (.inr ⟨_, hsuccess, rfl⟩)
    · exact .inl ⟨key, rfl, habsent⟩
    · exact .inr (.inl ⟨_, hfails⟩)
  · rintro k ⟨rfl, habsent⟩
    have hfound : reply.isAbsent = true := beq_iff_eq.mpr habsent
    rw [readDelete, accept_of_absent habsent]
    show SearchStore.answer (.ok !reply.isAbsent) _ = _
    rw [hfound]
    rfl
  · intro cause hfails
    rw [readDelete, accept_of_fails_nothing hfails]
    rfl
  · rintro next ⟨hsuccess, rfl⟩
    refine ⟨isOwn_ok (), ?_⟩
    rw [readDelete, accept_of_isSuccess hsuccess]
    show SearchStore.answer (.ok !reply.isAbsent) _ = _
    rw [Reply.isAbsent_of_isSuccess hsuccess]
    rfl

/-- A write, and the creation of an index, is done if the status is a success. -/
theorem settles_done (request : Request) (reply : Reply) :
    SettlesDone request reply (SearchStore.answer (readDone false request (some reply)) .ok) := by
  refine settles_of_cases ?_ nofun ?_ ?_
  · rcases isSuccess_or_absent_or_fails false .nothing request reply with
      hsuccess | ⟨htoo, -⟩ | hfails
    · exact .inr (.inr ⟨_, hsuccess, rfl⟩)
    · cases htoo
    · exact .inr (.inl ⟨_, hfails⟩)
  · intro cause hfails
    rw [readDone, accept_of_fails_nothing hfails]
    rfl
  · rintro next ⟨hsuccess, rfl⟩
    refine ⟨isOwn_ok (), ?_⟩
    rw [readDone, accept_of_isSuccess hsuccess]
    rfl

/-- A search decodes the JSON of a success. -/
theorem settles_read (s : Schema) (request : Request) (reply : Reply) :
    Settles (fun _ => False) (Fails false .json request reply)
      (fun next => ∃ body, reply.isSuccess = true ∧ reply.json? = some body ∧
        next = s.decodeReply body)
      (SearchStore.answer (readSearch request (some reply)) s.decodeReply) := by
  refine settles_of_cases ?_ nofun ?_ ?_
  · rcases isSuccess_or_absent_or_fails false .json request reply with
      hsuccess | ⟨htoo, -⟩ | hfails
    · cases hbody : reply.json? with
      | none => exact .inr (.inl ⟨_, .notJson (by decide) hsuccess hbody⟩)
      | some body => exact .inr (.inr ⟨_, body, hsuccess, rfl, rfl⟩)
    · cases htoo
    · exact .inr (.inl ⟨_, hfails⟩)
  · intro cause hfails
    rw [readSearch_of_fails hfails]
    rfl
  · rintro next ⟨body, hsuccess, hbody, rfl⟩
    rw [readSearch_of_isSuccess hsuccess, readBody, hbody]
    exact ⟨s.isOwn_decodeReply body, rfl⟩

/-! ### Operations as exchanges -/

section Exchange

variable {m : Type → Type} [Monad m] {α : Type}

/-- The operation is one exchange of the request, and what it makes of each reply is as said. -/
def ByReply (exchange : Request → m (Option Reply)) (request : Request) (operation : m β)
    (settled : Reply → β → Prop) : Prop :=
  ∃ outcome : Option Reply → β, operation = outcome <$> exchange request ∧
    ∀ reply, settled reply (outcome (some reply))

variable [LawfulMonad m] {exchange : Request → m (Option Reply)} {request : Request}

/-- A request of the client, and what the store makes of its answer, are one exchange. -/
theorem byReply_answer {read : Request → Option Reply → Except HttpError α}
    {next : α → Except (StoreError HttpError) β}
    {settled : Reply → Except (StoreError HttpError) β → Prop}
    (h : ∀ reply, settled reply (SearchStore.answer (read request (some reply)) next)) :
    ByReply exchange request
      (do
        let result ← (do pure (read request (← exchange request)))
        pure (SearchStore.answer result next)) settled := by
  refine ⟨fun reply? => SearchStore.answer (read request reply?) next, ?_, h⟩
  simp only [bind_assoc, pure_bind, map_eq_pure_bind]

/-- What is made of the result of an exchange is made of each reply. -/
theorem ByReply.map {operation : m α} {settled : Reply → α → Prop} (f : α → β)
    (h : ByReply exchange request operation settled) :
    ByReply exchange request (f <$> operation) fun reply b => ∃ a, b = f a ∧ settled reply a := by
  obtain ⟨outcome, hoperation, hsettled⟩ := h
  refine ⟨f ∘ outcome, ?_, fun reply => ⟨_, rfl, hsettled reply⟩⟩
  rw [hoperation, comp_map]

end Exchange

end Http

section Store

open RecordStore.Http

variable {m : Type → Type} [Monad m] [LawfulMonad m]

/-- Each operation of a store behind an address is one exchange, and for every reply it is said
exactly when an entity is missing, when the exchange has failed, and what is made of any other
reply. A failed exchange is the cause of the error, which is neither the caller's nor an absence.
Where the status is to blame, the cause carries the request and the reply and says the method, the
URL, the status and the text of the body. -/
theorem SearchStore.settles_by_reply (c : HttpClient)
    (exchange : Http.Request → m (Option Reply)) (s : Schema) (index : String) :
    let store : SearchStore m HttpError := ⟨c.searchClient exchange, s, index⟩
    (∀ key, ByReply exchange (c.getRequest index key) (store.get key) fun reply =>
      Settles (fun k => k = key ∧ (reply.status = 404 ∨ reply.isSuccess = true ∧ reply.Denies))
        (Fails true .document (c.getRequest index key) reply)
        fun next => ∃ source, reply.isSuccess = true ∧ reply.Shows source ∧
          next = s.decodeSource source) ∧
    (∀ key, ByReply exchange (c.deleteRequest index key) (store.delete key) fun reply =>
      Settles (fun k => k = key ∧ reply.status = 404)
        (Fails true .nothing (c.deleteRequest index key) reply)
        fun next => reply.isSuccess = true ∧ next = .ok ()) ∧
    (∀ key e, ∀ write ∈ [Request.create key e, .update key e],
      let request := c.putRequest index key (.object (s.toDocument e))
      ByReply exchange request (store.serve write) fun reply answer =>
        ∃ result, answer = .done result ∧ SettlesDone request reply result) ∧
    ByReply exchange (c.createIndexRequest index s.mapping) store.ensureIndex
      (SettlesDone (c.createIndexRequest index s.mapping)) ∧
    (∀ filters, ByReply exchange (c.searchRequest index (searchBody filters))
      (store.read filters) fun reply =>
        Settles (fun _ => False)
          (Fails false .json (c.searchRequest index (searchBody filters)) reply)
          fun next => ∃ body, reply.isSuccess = true ∧ reply.json? = some body ∧
            next = s.decodeReply body) ∧
    (∀ cause : HttpError, (StoreError.client cause).cause? = some cause ∧
      (StoreError.client cause).isClientError = false ∧
      (StoreError.client cause).isNotFound = false) ∧
    ∀ (request : Http.Request) (reply : Reply), (HttpError.status request reply).message =
      request.method.word ++ " " ++ request.url.text ++ " returned " ++
        String.ofList (Decimal.digits reply.status) ++ ": " ++ reply.text := by
  intro store
  refine ⟨?_, ?_, ?_, ?_, ?_, fun cause => ⟨rfl, rfl, rfl⟩, fun request reply => rfl⟩
  · intro key
    exact byReply_answer (settles_get s key (c.getRequest index key))
  · intro key
    exact byReply_answer (settles_delete key (c.deleteRequest index key))
  · intro key e write hwrite request
    have hput : ByReply exchange request (store.put key e) (SettlesDone request) :=
      byReply_answer (settles_done request)
    -- A first write and a further one are the same request.
    rcases List.mem_pair.mp hwrite with rfl | rfl
    · exact hput.map Answer.done
    · exact hput.map Answer.done
  · exact byReply_answer (settles_done (c.createIndexRequest index s.mapping))
  · intro filters
    exact byReply_answer (settles_read s (c.searchRequest index (searchBody filters)))

/-- An engine that answers 404 to everything: a document is missing, and a search has failed. -/
theorem SearchStore.settles_by_reply_not_found :
    let reply : Reply := ⟨404, "no such index"⟩
    let store : SearchStore Id HttpError :=
      ⟨HttpClient.onLocalhost.searchClient fun _ => some reply, ⟨"Item", []⟩, "items"⟩
    (store.get "a" : Except (StoreError HttpError) Entity) = .error (.notFound "a") ∧
    (store.read [] : Except (StoreError HttpError) (List Entity)) =
      .error (.client
        (.status (HttpClient.onLocalhost.searchRequest "items" (searchBody [])) reply)) := by
  intro reply store
  obtain ⟨hget, -, -, -, hread, -⟩ := SearchStore.settles_by_reply (m := Id)
    HttpClient.onLocalhost (fun _ => some reply) ⟨"Item", []⟩ "items"
  constructor
  · obtain ⟨outcome, hoperation, hsettled⟩ := hget "a"
    exact hoperation.trans (((hsettled reply).notFound "a").mpr ⟨rfl, .inl rfl⟩)
  · obtain ⟨outcome, hoperation, hsettled⟩ := hread []
    exact hoperation.trans (((hsettled reply).client _).mpr (.status rfl nofun))

end Store

end RecordStore
