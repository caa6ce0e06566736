import RecordStore.Http.Base64
import RecordStore.Json.Printer
import RecordStore.Json.Reader
import RecordStore.Text.Mark
import RecordStore.Url.Basic

/-!
# `RecordStore.Http.Message`: requests and replies

A request is a method, a URL, an authorization and a body, which is JSON if there is one. A reply
is a status and a text. Its bytes are taken to be UTF-8: a reply of other bytes, which would be no
JSON and be shown with replacement characters, is not among the replies here.
-/

set_option autoImplicit false

namespace RecordStore.Http

/-- What a request does to the resource:

- `get`: read it;
- `put`: write it;
- `post`: send it something to work on;
- `delete`: remove it. -/
inductive Method where
  | get
  | put
  | post
  | delete
deriving DecidableEq

/-- The word for a method in a request. -/
def Method.word : Method → String
  | .get => "GET"
  | .put => "PUT"
  | .post => "POST"
  | .delete => "DELETE"

/-! ### Requests -/

/-- A request:

- `method`: what it does;
- `url`: the resource;
- `authorization`: on whose behalf, as the header says it;
- `body`: what it sends. -/
structure Request where
  method : Method
  url : Url
  authorization : Option String
  body : Option Json

namespace Request

/-- What the server is asked for: the path and the query. -/
def target (r : Request) : String :=
  r.url.target

/-- The type of the body, if there is one. -/
def contentType (r : Request) : Option String :=
  r.body.map fun _ => "application/json"

/-- The body as it is sent; without one nothing is sent. -/
def bodyText (r : Request) : String :=
  (r.body.map Json.text).getD ""

end Request

/-- The authorization of a user by name and password. -/
def basicAuthorization (user password : String) : String :=
  "Basic " ++ String.ofList (Base64.encode (user ++ ":" ++ password).toUTF8.toList)

/-! ### Replies -/

/-- A reply:

- `status`: its status;
- `body`: the text that its bytes spell in UTF-8. -/
structure Reply where
  status : Nat
  body : String

namespace Reply

/-- The request has been carried out. -/
def isSuccess (r : Reply) : Bool :=
  200 ≤ r.status && r.status < 300

/-- There is no such resource. -/
def isAbsent (r : Reply) : Bool :=
  r.status == 404

/-- The text to show, without the mark that may stand in front of it. -/
def text (r : Reply) : String :=
  String.ofList (Text.withoutMark r.body.toList)

/-- The JSON value that the body is. -/
def json? (r : Reply) : Option Json :=
  Json.ofText? r.body

/-- A reply is never both a success and an absence. -/
theorem isAbsent_of_isSuccess {r : Reply} (h : r.isSuccess = true) : r.isAbsent = false := by
  simp only [isSuccess, Bool.and_eq_true, decide_eq_true_eq] at h
  simp only [isAbsent, beq_eq_false_iff_ne]
  omega

end Reply

end RecordStore.Http
