import RecordStore.Http.Message

/-!
# `RecordStore.Http.Error`: exchanges that fail

There is no reply, or its status is no success, or its body cannot be read, or it lacks the
document.
-/

set_option autoImplicit false

namespace RecordStore.Http

/-- A failed exchange:

- `noReply`: there is no reply;
- `notJson`: the body of the reply is no JSON;
- `status`: the status of the reply is no success;
- `noSource`: the reply to a look-up does not hold the document. -/
inductive HttpError where
  | noReply
  | notJson
  | status (request : Request) (reply : Reply)
  | noSource

namespace HttpError

/-- What went wrong, in words. -/
def message : HttpError → String
  | .noReply => "HTTP error: no reply"
  | .notJson => "HTTP error: the body is not JSON"
  | .status request reply =>
    request.method.word ++ " " ++ request.url.text ++ " returned " ++
      String.ofList (Decimal.digits reply.status) ++ ": " ++ reply.text
  | .noSource => "unexpected response: document without _source"

end HttpError

end RecordStore.Http
