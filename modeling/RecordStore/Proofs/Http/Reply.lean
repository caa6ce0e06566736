import RecordStore.Http.Client

/-!
# `RecordStore.Proofs.Http.Reply`: which replies are answers

What a client makes of a reply depends on the status, on whether the body is JSON, and for a look-up
on what the body says. A status 404 is an answer to a look-up and to a removal only. `Fails` names
the error of a reply that is no answer.

* `isSuccess_or_absent_or_fails`, `denies_or_shows_or_fails`: there is no other case.
* `readGet_of_absent`, `readGet_of_denies`, `readGet_of_shows`, `readGet_of_fails`: look-ups.
* `readSearch_of_isSuccess`, `readSearch_of_fails`: searches.
* `accept_of_fails_nothing`: requests that need nothing of the body.
-/

set_option autoImplicit false

namespace RecordStore.Http

/-! ### Replies -/

/-- The body says that there is no document. -/
def Reply.Denies (r : Reply) : Prop :=
  ∃ body, r.json? = some body ∧ body.member? "found" = some (.bool false)

/-- The body holds the document and does not say that there is none. -/
def Reply.Shows (r : Reply) (source : Json) : Prop :=
  ∃ body, r.json? = some body ∧ body.member? "found" ≠ some (.bool false) ∧
    body.member? "_source" = some source

/-- What an operation needs of the body of a successful reply:

- `nothing`: the status is enough;
- `json`: the body is JSON;
- `document`: the body is JSON that holds a document or says that there is none. -/
inductive Need where
  | nothing
  | json
  | document
deriving DecidableEq

/-- The exchange has failed with this error, although there is a reply:

- `status`: it is neither a success nor an absence where that is an answer too;
- `notJson`: its body is needed and is no JSON;
- `noSource`: a document is needed, and the body neither holds one nor says that there is none. -/
inductive Fails (absenceToo : Bool) (need : Need) (request : Request) (reply : Reply) :
    HttpError → Prop where
  | status (hsuccess : reply.isSuccess = false) (habsent : absenceToo = true → reply.status ≠ 404) :
      Fails absenceToo need request reply (.status request reply)
  | notJson (hneed : need ≠ .nothing) (hsuccess : reply.isSuccess = true)
      (hbody : reply.json? = none) : Fails absenceToo need request reply .notJson
  | noSource {body : Json} (hneed : need = .document) (hsuccess : reply.isSuccess = true)
      (hbody : reply.json? = some body) (hfound : body.member? "found" ≠ some (.bool false))
      (hsource : body.member? "_source" = none) : Fails absenceToo need request reply .noSource

variable {absenceToo : Bool} {need : Need} {request : Request} {reply : Reply}

/-- A success is accepted. -/
theorem accept_of_isSuccess (h : reply.isSuccess = true) :
    accept absenceToo request (some reply) = .ok reply :=
  accept_eq_ok_iff.mpr ⟨rfl, .inl h⟩

/-- An absence is accepted where that is an answer too. -/
theorem accept_of_absent (h : reply.status = 404) : accept true request (some reply) = .ok reply :=
  accept_eq_ok_iff.mpr ⟨rfl, .inr ⟨rfl, beq_iff_eq.mpr h⟩⟩

/-- No other reply is accepted. -/
theorem accept_of_refused (hsuccess : reply.isSuccess = false)
    (habsent : absenceToo = true → reply.status ≠ 404) :
    accept absenceToo request (some reply) = .error (.status request reply) := by
  have hrefused : (reply.isSuccess || (absenceToo && reply.isAbsent)) = false := by
    cases absenceToo with
    | false => simp [hsuccess]
    | true => simp [hsuccess, Reply.isAbsent, habsent rfl]
  rw [accept, hrefused]
  rfl

/-- A reply is a success, or an absence where that is an answer too, or the exchange has failed. -/
theorem isSuccess_or_absent_or_fails (absenceToo : Bool) (need : Need) (request : Request)
    (reply : Reply) :
    reply.isSuccess = true ∨ (absenceToo = true ∧ reply.status = 404) ∨
      Fails absenceToo need request reply (.status request reply) := by
  cases hsuccess : reply.isSuccess with
  | true => exact .inl rfl
  | false =>
    by_cases habsent : absenceToo = true ∧ reply.status = 404
    · exact .inr (.inl habsent)
    · exact .inr (.inr (.status hsuccess fun htoo hstatus => habsent ⟨htoo, hstatus⟩))

/-- Where nothing is needed of the body, an exchange fails by its status only. -/
theorem accept_of_fails_nothing {cause : HttpError}
    (h : Fails absenceToo .nothing request reply cause) :
    accept absenceToo request (some reply) = .error cause := by
  cases h with
  | status hsuccess habsent => exact accept_of_refused hsuccess habsent
  | notJson hneed => exact absurd rfl hneed
  | noSource hneed => cases hneed

/-! ### Answers -/

/-- The member `found` of a body is false. -/
theorem bind_bool?_eq_iff {found? : Option Json} {b : Bool} :
    found?.bind Json.bool? = some b ↔ found? = some (.bool b) := by
  cases found? with
  | none => exact iff_of_false nofun nofun
  | some found => cases found <;> simp [Json.bool?]

/-- A look-up reads the body of a success. -/
theorem readGet_of_isSuccess (hsuccess : reply.isSuccess = true) :
    readGet request (some reply) = readBody reply >>= readDocument := by
  rw [readGet, accept_of_isSuccess hsuccess]
  -- Both checks of the status are passed: the reply is accepted, and it is no absence.
  show (if reply.isAbsent = true then pure none else readBody reply >>= readDocument) = _
  rw [Reply.isAbsent_of_isSuccess hsuccess]
  rfl

/-- An absence is an answer to a look-up. -/
theorem readGet_of_absent (h : reply.status = 404) : readGet request (some reply) = .ok none := by
  have habsent : reply.isAbsent = true := beq_iff_eq.mpr h
  rw [readGet, accept_of_absent h]
  show (if reply.isAbsent = true then pure none else readBody reply >>= readDocument) = _
  rw [if_pos habsent]
  rfl

/-- A success that says that there is no document is an answer to a look-up. -/
theorem readGet_of_denies (hsuccess : reply.isSuccess = true) (h : reply.Denies) :
    readGet request (some reply) = .ok none := by
  obtain ⟨body, hbody, hfound⟩ := h
  rw [readGet_of_isSuccess hsuccess, readBody, hbody]
  show readDocument body = _
  rw [readDocument, if_pos (bind_bool?_eq_iff.mpr hfound)]

/-- A success with a document is an answer to a look-up. -/
theorem readGet_of_shows {source : Json} (hsuccess : reply.isSuccess = true)
    (h : reply.Shows source) : readGet request (some reply) = .ok (some source) := by
  obtain ⟨body, hbody, hfound, hsource⟩ := h
  rw [readGet_of_isSuccess hsuccess, readBody, hbody]
  show readDocument body = _
  rw [readDocument, if_neg fun h => hfound (bind_bool?_eq_iff.mp h), hsource]

/-- Any other reply is none to a look-up. -/
theorem readGet_of_fails {cause : HttpError} (h : Fails true .document request reply cause) :
    readGet request (some reply) = .error cause := by
  cases h with
  | status hsuccess habsent =>
    rw [readGet, accept_of_refused hsuccess habsent]
    rfl
  | notJson _ hsuccess hbody =>
    rw [readGet_of_isSuccess hsuccess, readBody, hbody]
    rfl
  | noSource _ hsuccess hbody hfound hsource =>
    rw [readGet_of_isSuccess hsuccess, readBody, hbody]
    show readDocument _ = _
    rw [readDocument, if_neg fun h => hfound (bind_bool?_eq_iff.mp h), hsource]

/-- A success says that there is no document, or shows one, or the look-up has failed. -/
theorem denies_or_shows_or_fails (request : Request) (hsuccess : reply.isSuccess = true) :
    reply.Denies ∨ (∃ source, reply.Shows source) ∨
      ∃ cause, Fails true .document request reply cause := by
  cases hbody : reply.json? with
  | none => exact .inr (.inr ⟨_, .notJson (by decide) hsuccess hbody⟩)
  | some body =>
    by_cases hfound : body.member? "found" = some (.bool false)
    · exact .inl ⟨body, hbody, hfound⟩
    · cases hsource : body.member? "_source" with
      | none => exact .inr (.inr ⟨_, .noSource rfl hsuccess hbody hfound hsource⟩)
      | some source => exact .inr (.inl ⟨source, body, hbody, hfound, hsource⟩)

/-- A search reads the body of a success. -/
theorem readSearch_of_isSuccess (hsuccess : reply.isSuccess = true) :
    readSearch request (some reply) = readBody reply := by
  rw [readSearch, accept_of_isSuccess hsuccess]
  rfl

/-- Without JSON a reply is no answer to a search. -/
theorem readSearch_of_fails {cause : HttpError} (h : Fails false .json request reply cause) :
    readSearch request (some reply) = .error cause := by
  cases h with
  | status hsuccess habsent =>
    rw [readSearch, accept_of_refused hsuccess habsent]
    rfl
  | notJson _ hsuccess hbody => rw [readSearch_of_isSuccess hsuccess, readBody, hbody]
  | noSource hneed => cases hneed

end RecordStore.Http
