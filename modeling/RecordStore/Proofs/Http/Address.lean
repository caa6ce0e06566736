import RecordStore.Http.Client
import RecordStore.Proofs.Url.Reader

/-!
# `RecordStore.Proofs.Http.Address`: which resource a request is about

A request names an index, and often a document in it, by segments behind those of the base URL.
They arrive as they were given if the base URL and the segments are such that all segments are
kept; this module shows that they do not arrive otherwise, for every base URL that a client can
have. So two requests about different resources may share an address only if one of the resources
has a segment that is not kept.

* `Url.decodedSegments_withSegments_iff`: segments behind any URL that can be built upon.
* `segments_of_asks`: the requests of a client.
* `documentUrl_not_injective`: two keys with one address.
-/

set_option autoImplicit false

namespace RecordStore

open RecordStore.Http (Request)
open RecordStore.Url (areKept bytes percentDecode segments stem)

namespace Url

/-- The segments of the path, decoded. -/
def decodedSegments (u : Url) : List (List UInt8) :=
  (segments u.path).map percentDecode

/-- The segments of the path, decoded, without an empty one at the end. -/
def baseSegments (u : Url) : List (List UInt8) :=
  (stem u.path).map percentDecode

/-- Segments behind the URL are all appended as they are, and so are its own: the path of two
slashes is none, and all segments are kept. -/
def keeps (u : Url) (appended : List String) : Bool :=
  u.path ≠ ['/', '/'] && areKept u.kind (stem u.path).isEmpty appended

/-- Segments that are not empty stand behind those of the URL if they are kept, and only then. -/
theorem decodedSegments_withSegments_iff {u : Url} (hu : IsRooted u.kind u.path)
    {appended : List String} (hne : "" ∉ appended) (hsome : appended ≠ []) :
    (u.withSegments appended).decodedSegments =
        u.baseSegments ++ appended.map (fun s => bytes s.toList) ↔
      u.keeps appended = true := by
  rw [keeps, Bool.and_eq_true, decide_eq_true_eq]
  exact segments_extendAll_iff hu hne hsome

end Url

namespace HttpClient

/-- The requests of a client, with the segments of the resource that each is about. -/
inductive Asks (c : HttpClient) : Request → List String → Prop where
  | get (index id : String) : Asks c (c.getRequest index id) [index, "_doc", id]
  | put (index id : String) (document : Json) :
      Asks c (c.putRequest index id document) [index, "_doc", id]
  | delete (index id : String) : Asks c (c.deleteRequest index id) [index, "_doc", id]
  | search (index : String) (body : Json) :
      Asks c (c.searchRequest index body) [index, "_search"]
  | createIndex (index : String) (body : Json) : Asks c (c.createIndexRequest index body) [index]
  | deleteIndex (index : String) : Asks c (c.deleteIndexRequest index) [index]

variable {c : HttpClient} {request : Request} {resource : List String}

/-- Every request is about something. -/
theorem ne_nil_of_asks (h : c.Asks request resource) : resource ≠ [] := by
  cases h <;> simp

/-- The path of a request is the one that its segments make behind the base URL. -/
theorem path_of_asks (h : c.Asks request resource) :
    request.url.path = (c.base.withSegments resource).path := by
  cases h <;> rfl

/-- The base URL of a client has a path that can be extended. -/
theorem isRooted_base {settings : Settings} (h : HttpClient.new settings = .ok c) :
    Url.IsRooted c.base.kind c.base.path := by
  rw [HttpClient.new] at h
  split at h
  · cases h
  · rename_i base hbase
    split at h
    · cases h
    · rename_i hrooted
      cases h
      exact Url.isRooted_of_ofText? hbase (by simpa using hrooted)

/-- A request about a resource without empty segments has the segments of the resource behind those
of the base URL if they are kept, and only then. No other request about a resource whose segments
are kept has the path of such a request. -/
theorem segments_of_asks {settings : Settings} (h : HttpClient.new settings = .ok c)
    (hasks : c.Asks request resource) (hne : "" ∉ resource) :
    (request.url.decodedSegments =
        c.base.baseSegments ++ resource.map (fun s => bytes s.toList) ↔
      c.base.keeps resource = true) ∧
    ∀ {other : Request} {otherResource : List String}, c.Asks other otherResource →
      "" ∉ otherResource → c.base.keeps resource = true → c.base.keeps otherResource = true →
      other.url.path = request.url.path → otherResource = resource := by
  have hiff : ∀ {request : Request} {resource : List String}, c.Asks request resource →
      "" ∉ resource → (request.url.decodedSegments =
        c.base.baseSegments ++ resource.map (fun s => bytes s.toList) ↔
      c.base.keeps resource = true) := by
    intro request resource hasks hne
    rw [Url.decodedSegments, path_of_asks hasks]
    exact Url.decodedSegments_withSegments_iff (isRooted_base h) hne (ne_nil_of_asks hasks)
  refine ⟨hiff hasks hne, ?_⟩
  intro other otherResource hother hotherNe hkept hotherKept hpath
  have hsegments := (hiff hasks hne).mpr hkept
  have hotherSegments := (hiff hother hotherNe).mpr hotherKept
  rw [Url.decodedSegments, hpath, ← Url.decodedSegments, hsegments] at hotherSegments
  have hresources := List.append_cancel_left hotherSegments
  refine ((List.map_inj_right fun s t hst => ?_).mp hresources).symm
  exact String.toList_inj.mp (Url.bytes_inj.mp hst)

/-- The client for an engine on this machine, behind a path. -/
def onLocalhost : HttpClient where
  base :=
    ⟨"http", some ⟨[], .name "localhost".toList, some 9200⟩, "/search/".toList, none, none⟩
  settings := .ofUrl "http://localhost:9200/search/"
  rooted := rfl

/-- The settings of the client make that client. -/
theorem new_onLocalhost : HttpClient.new onLocalhost.settings = .ok onLocalhost :=
  rfl

/-- A key with all signs that divide URLs is asked for as it is, and by no other key. -/
theorem segments_of_asks_localhost :
    let key := "../%2E?a=b#c/\\d e"
    (onLocalhost.getRequest "items" key).url.decodedSegments =
      ["search", "items", "_doc", key].map (fun s => bytes s.toList) ∧
    ∀ other, other ≠ "" → onLocalhost.base.keeps ["items", "_doc", other] = true →
      (onLocalhost.getRequest "items" other).url.path =
        (onLocalhost.getRequest "items" key).url.path →
      other = key := by
  intro key
  have hkept : onLocalhost.base.keeps ["items", "_doc", key] = true := by decide +kernel
  obtain ⟨hiff, hother⟩ := segments_of_asks new_onLocalhost (.get "items" key) (by decide)
  refine ⟨hiff.mpr hkept, fun other hne hotherKept hpath => ?_⟩
  have hsame := hother (.get "items" other) (by simp [Ne.symm hne]) hkept hotherKept hpath
  exact (List.cons.inj (List.cons.inj (List.cons.inj hsame).2).2).1

/-- A key with a tab in it has the address of another key, and one of a dot has that of no key. -/
theorem documentUrl_not_injective :
    HttpClient.new onLocalhost.settings = .ok onLocalhost ∧
    onLocalhost.documentUrl "items" "a\tb" = onLocalhost.documentUrl "items" "ab" ∧
    (onLocalhost.documentUrl "items" ".").decodedSegments =
      ["search", "items", "_doc"].map (fun s => bytes s.toList) := by
  refine ⟨rfl, rfl, ?_⟩
  decide +kernel

end HttpClient

end RecordStore
