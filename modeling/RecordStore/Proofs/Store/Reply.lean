import RecordStore.Proofs.Engine.Client
import RecordStore.Proofs.Store.Decision

/-!
# `RecordStore.Proofs.Store.Reply`: what a store makes of an engine's replies

A reply says how many matches there are and lists some of them. The store takes the list only if
it is as long as the number says, so a reply that was cut short is never taken for the whole
answer.

* `checkComplete_totalJson`: whether a reply is complete.
* `decodeHits_map`: the entities of the hits.
* `decodeReply_replyJson`, `decodeReply_replyJson_of_error`: the two together.
-/

set_option autoImplicit false

namespace RecordStore.Engine

open RecordStore.Json (member?_ofMembers member?_single)

variable {ε : Type}

/-- A hit holds its document. -/
theorem member?_hitJson (index : String) (hit : String × Json) :
    (hitJson index hit).member? "_source" = some hit.2 :=
  member?_ofMembers (show ["_index", "_id", "_source"].Nodup by decide) (by simp)

/-! ### Numbers of matches -/

/-- A number of matches is read if it fits 64 bits. -/
theorem readTotal_totalJson (total : Nat) :
    readTotal (totalJson total) =
      (if total < 0x10000000000000000 then some total else none, "eq") := by
  have hnodup : ["value", "relation"].Nodup := by decide
  have hvalue : (totalJson total).member? "value" = some (.int total) :=
    member?_ofMembers hnodup (by simp)
  have hrelation : (totalJson total).member? "relation" = some (.string "eq") :=
    member?_ofMembers hnodup (by simp)
  have hcount : Json.count? (.int total) =
      if total < 0x10000000000000000 then some total else none := by
    rw [Json.count?]
    split <;> split <;> first | rfl | omega
  show ((((totalJson total).member? "value").bind Json.count?,
    (((totalJson total).member? "relation").bind Json.string?).getD "eq")) = _
  rw [hvalue, hrelation, Option.bind_some, hcount]
  rfl

/-- A reply is complete if its hits are as many as the matches. -/
theorem checkComplete_totalJson {total : Nat} (h : total < 0x10000000000000000)
    (returned : Nat) :
    checkComplete (ε := ε) (some (totalJson total)) returned =
      if total ≤ returned then .ok () else .error (.truncated returned total "eq") := by
  rw [checkComplete]
  simp only [readTotal_totalJson, if_pos h, true_and]

/-- A number of matches that does not fit 64 bits is not taken. -/
theorem checkComplete_totalJson_of_le {total : Nat} (h : 0x10000000000000000 ≤ total)
    (returned : Nat) :
    checkComplete (ε := ε) (some (totalJson total)) returned =
      .error (.malformed (.badTotal (totalJson total))) := by
  rw [checkComplete]
  simp only [readTotal_totalJson, if_neg (Nat.not_lt.mpr h)]

/-! ### Hits -/

/-- If the document of each hit holds an entity, the hits hold these entities. -/
theorem decodeHits_map {s : Schema} {index : String} {hits : List (String × Json)}
    {decode : String × Json → Entity}
    (h : ∀ hit ∈ hits, s.decodeSource (ε := ε) hit.2 = .ok (decode hit)) :
    s.decodeHits (ε := ε) (hits.map (hitJson index)) = .ok (hits.map decode) := by
  induction hits with
  | nil => rfl
  | cons hit rest ih =>
    have hrest := ih fun other hother => h other (List.mem_cons_of_mem _ hother)
    rw [List.map_cons, Schema.decodeHits, member?_hitJson]
    simp only [h hit List.mem_cons_self, hrest, List.map_cons]

/-- A reply lists its hits, and beside them stands the number of matches. -/
theorem isReply_replyJson (index : String) (total : Nat) (hits : List (String × Json)) :
    (replyJson index total hits).IsReply (hits.map (hitJson index)) (some (totalJson total)) := by
  have hnodup : ["total", "hits"].Nodup := by decide
  refine ⟨_, member?_single "hits" _, ?_, ?_⟩
  · exact member?_ofMembers hnodup (.tail _ (.head _))
  · exact member?_ofMembers hnodup (.head _)

/-- A complete reply holds the entities of its hits. -/
theorem decodeReply_replyJson {s : Schema} {index : String} {total : Nat}
    {hits : List (String × Json)} {decode : String × Json → Entity}
    (hcomplete : checkComplete (ε := ε) (some (totalJson total)) hits.length = .ok ())
    (h : ∀ hit ∈ hits, s.decodeSource (ε := ε) hit.2 = .ok (decode hit)) :
    s.decodeReply (ε := ε) (replyJson index total hits) = .ok (hits.map decode) := by
  rw [Schema.decodeReply_of_isReply (isReply_replyJson index total hits), List.length_map,
    hcomplete]
  exact decodeHits_map h

/-- A reply that is not complete is refused. -/
theorem decodeReply_replyJson_of_error {s : Schema} {index : String} {total : Nat}
    {hits : List (String × Json)} {e : StoreError ε}
    (herror : checkComplete (some (totalJson total)) hits.length = .error e) :
    s.decodeReply (replyJson index total hits) = .error e := by
  rw [Schema.decodeReply_of_isReply (isReply_replyJson index total hits), List.length_map, herror]
  rfl

end RecordStore.Engine
