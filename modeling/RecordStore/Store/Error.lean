import RecordStore.Error

/-!
# `RecordStore.Store.Error`: what can go wrong in a store

An operation of a store fails because its input is refused, because there is no entity under the
key, or because of the search engine: the client reports a failure, the reply has the wrong form,
or it does not hold all matches. The client's failure is kept as the cause.
-/

set_option autoImplicit false

namespace RecordStore

/-- A reply of a search engine that cannot be decoded:

- `notObject`: the stored document is not an object;
- `noHits`: there is no list of hits;
- `badTotal`: the number of matches cannot be read;
- `noSource`: a hit does not hold its document. -/
inductive ReplyFault where
  | notObject (source : Json)
  | noHits
  | badTotal (total : Json)
  | noSource

namespace ReplyFault

/-- What is wrong, in words. -/
def message : ReplyFault → String
  | .notObject source => "document source is not an object: " ++ source.text
  | .noHits => "missing hits.hits"
  | .badTotal total => "unreadable hits.total: " ++ total.text
  | .noSource => "hit without _source"

end ReplyFault

/-- A failure of a store; `ε` is what the client of the search engine reports:

- `refused`: the input is refused;
- `notFound`: there is no entity under the key;
- `client`: the client failed;
- `malformed`: the reply has the wrong form;
- `truncated`: the reply holds fewer hits than there are matches, or it does not say that it holds
  all. -/
inductive StoreError (ε : Type) where
  | refused (cause : Error)
  | notFound (key : String)
  | client (cause : ε)
  | malformed (fault : ReplyFault)
  | truncated (returned total : Nat) (relation : String)

namespace StoreError

variable {ε : Type}

/-- What went wrong, in words; `words` are those of the client. -/
def message (words : ε → String) : StoreError ε → String
  | .refused cause => cause.message
  | .notFound key => "entity not found: " ++ key
  | .client cause => "search backend error: " ++ words cause
  | .malformed fault => "malformed search response: " ++ fault.message
  | .truncated returned total relation =>
    "search returned " ++ String.ofList (Decimal.digits returned) ++ " hits but " ++
      String.ofList (Decimal.digits total) ++ " (" ++ relation ++ ") matched"

/-- The caller's input is at fault. -/
def isClientError : StoreError ε → Bool
  | .refused _ => true
  | _ => false

/-- There is no entity under the key. -/
def isNotFound : StoreError ε → Bool
  | .notFound _ => true
  | _ => false

/-- The failure of the client that caused this one. -/
def cause? : StoreError ε → Option ε
  | .client cause => some cause
  | _ => none

end StoreError

end RecordStore
