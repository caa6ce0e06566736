import RecordStore.Proofs.Outcome
import RecordStore.Store.Search

/-!
# `RecordStore.Proofs.Store.Decision`: which replies a store takes

A reply of a search engine may be any JSON value. `Schema.Accepts` says what a store takes for a
complete answer and which entities it holds, and `Schema.Refuses` names the first error of any other
reply: there is no list of hits, the number of matches cannot be read, it is not known to be reached
by the hits, or a hit holds no entity.

* `readTotal_eq_some_iff`: the number of matches that a reply tells.
* `checkComplete_of_reached`, `checkComplete_of_counts`, `checkComplete_of_not_counts`: whether the
  hits are all.
* `accepts_or_refuses`: there is no third case.
* `read_decides`: what `SearchStore.read` makes of a reply.
-/

set_option autoImplicit false

namespace RecordStore

/-! ### Replies -/

/-- The reply lists these hits, and beside them stands this number of matches or none. -/
def Json.IsReply (reply : Json) (items : List Json) (total? : Option Json) : Prop :=
  ∃ parts, reply.member? "hits" = some parts ∧ parts.member? "hits" = some (.array items) ∧
    parts.member? "total" = total?

/-- The value tells a number of matches of 64 bits, and its relation to the true number:

- `bare`: a whole number is exact;
- `related`: an object has both as members;
- `unrelated`: an object whose relation is missing or no text has an exact number. -/
inductive Json.Counts : Json → Nat → String → Prop where
  | bare {k : Nat} (hk : k < 0x10000000000000000) : Counts (.int k) k "eq"
  | related {members : List (String × Json)} {k : Nat} {relation : String}
      (hk : k < 0x10000000000000000) (hvalue : KeyMap.get? "value" members = some (.int k))
      (hrelation : KeyMap.get? "relation" members = some (.string relation)) :
      Counts (.object members) k relation
  | unrelated {members : List (String × Json)} {k : Nat} (hk : k < 0x10000000000000000)
      (hvalue : KeyMap.get? "value" members = some (.int k))
      (hrelation : ∀ s, KeyMap.get? "relation" members ≠ some (.string s)) :
      Counts (.object members) k "eq"

/-- The number of matches is missing, or it is exact and so many hits reach it. -/
def Json.IsReached (total? : Option Json) (returned : Nat) : Prop :=
  ∀ total ∈ total?, ∃ k, total.Counts k "eq" ∧ k ≤ returned

namespace Schema

variable {ε : Type}

/-- The hit holds the document of the entity. -/
def HitHolds (s : Schema) (hit : Json) (e : Entity) : Prop :=
  ∃ members, hit.member? "_source" = some (.object members) ∧ s.ofDocument members = .ok e

/-- The error of a hit that holds no entity:

- `noSource`: there is no document;
- `notObject`: the document is no object;
- `refused`: the document is not one of an entity of the schema. -/
inductive RefusesHit (s : Schema) : Json → StoreError ε → Prop where
  | noSource {hit : Json} (missing : hit.member? "_source" = none) :
      RefusesHit s hit (.malformed .noSource)
  | notObject {hit source : Json} (found : hit.member? "_source" = some source)
      (hsource : ∀ members, source ≠ .object members) :
      RefusesHit s hit (.malformed (.notObject source))
  | refused {hit : Json} {members : List (String × Json)} {cause : Error}
      (found : hit.member? "_source" = some (.object members))
      (undecodable : s.ofDocument members = .error cause) : RefusesHit s hit (.refused cause)

/-- The reply is a complete list of hits that hold these entities, one by one. -/
def Accepts (s : Schema) (reply : Json) (es : List Entity) : Prop :=
  ∃ items total?, reply.IsReply items total? ∧ Json.IsReached total? items.length ∧
    List.Forall₂ s.HitHolds items es

/-- The first error of a reply:

- `noHits`: there is no list of hits;
- `badTotal`: the number of matches is there but cannot be read;
- `truncated`: it is not exact, or the hits do not reach it;
- `hit`: a hit holds no entity, and all hits before it hold one. -/
inductive Refuses (s : Schema) : Json → StoreError ε → Prop where
  | noHits {reply : Json} (missing : ∀ items total?, ¬reply.IsReply items total?) :
      Refuses s reply (.malformed .noHits)
  | badTotal {reply total : Json} {items : List Json} (listed : reply.IsReply items (some total))
      (uncounted : ∀ k relation, ¬total.Counts k relation) :
      Refuses s reply (.malformed (.badTotal total))
  | truncated {reply total : Json} {items : List Json} {k : Nat} {relation : String}
      (listed : reply.IsReply items (some total)) (counted : total.Counts k relation)
      (partly : relation ≠ "eq" ∨ items.length < k) :
      Refuses s reply (.truncated items.length k relation)
  | hit {reply hit : Json} {before after : List Json} {total? : Option Json} {e : StoreError ε}
      (listed : reply.IsReply (before ++ hit :: after) total?)
      (reached : Json.IsReached total? (before ++ hit :: after).length)
      (hold : ∀ other ∈ before, ∃ entity, s.HitHolds other entity) (refused : s.RefusesHit hit e) :
      Refuses s reply e

end Schema

/-! ### Numbers of matches -/

variable {ε : Type}

/-- A count is a whole number of 64 bits. -/
theorem Json.count?_eq_some_iff {j : Json} {k : Nat} :
    j.count? = some k ↔ j = .int k ∧ k < 0x10000000000000000 := by
  cases j with
  | int n =>
    rw [count?, Json.int.injEq]
    split
    · rw [Option.some.injEq]
      omega
    · refine iff_of_false nofun ?_
      omega
  | null | bool | float | string | array | object => simp [count?]

/-- A text where one may be. -/
theorem Json.string?_eq_some_iff {j : Json} {text : String} :
    j.string? = some text ↔ j = .string text := by
  cases j <;> simp [string?]

/-- The number of matches in an object. -/
theorem bind_count?_eq_some_iff {value? : Option Json} {k : Nat} :
    value?.bind Json.count? = some k ↔ value? = some (.int k) ∧ k < 0x10000000000000000 := by
  cases value? with
  | none => exact iff_of_false nofun nofun
  | some value => rw [Option.bind_some, Json.count?_eq_some_iff, Option.some.injEq]

/-- The relation in an object: a text, or that of an exact number. -/
theorem getD_bind_string?_eq_iff {relation? : Option Json} {relation : String} :
    (relation?.bind Json.string?).getD "eq" = relation ↔
      relation? = some (.string relation) ∨
        (∀ text, relation? ≠ some (.string text)) ∧ relation = "eq" := by
  cases hrelation : relation?.bind Json.string? with
  | none =>
    have hnone : ∀ text, relation? ≠ some (.string text) := by
      rintro text rfl
      cases hrelation
    simp [hnone, eq_comm]
  | some text =>
    obtain ⟨raw, rfl, hraw⟩ := Option.bind_eq_some_iff.mp hrelation
    rw [Json.string?_eq_some_iff] at hraw
    subst hraw
    simp

/-- What is read of a number of matches is what it tells. -/
theorem readTotal_eq_some_iff {total : Json} {k : Nat} {relation : String} :
    readTotal total = (some k, relation) ↔ total.Counts k relation := by
  cases total with
  | int n =>
    rw [readTotal, Prod.mk.injEq, Json.count?_eq_some_iff]
    constructor
    · rintro ⟨⟨hn, hk⟩, rfl⟩
      rw [hn]
      exact .bare hk
    · rintro ⟨hk⟩
      exact ⟨⟨rfl, hk⟩, rfl⟩
  | object members =>
    show ((KeyMap.get? "value" members).bind Json.count?,
      ((KeyMap.get? "relation" members).bind Json.string?).getD "eq") = _ ↔ _
    rw [Prod.mk.injEq, bind_count?_eq_some_iff, getD_bind_string?_eq_iff]
    constructor
    · rintro ⟨⟨hvalue, hk⟩, hrelation | ⟨hrelation, rfl⟩⟩
      · exact .related hk hvalue hrelation
      · exact .unrelated hk hvalue hrelation
    · intro h
      cases h with
      | related hk hvalue hrelation => exact ⟨⟨hvalue, hk⟩, .inl hrelation⟩
      | unrelated hk hvalue hrelation => exact ⟨⟨hvalue, hk⟩, .inr ⟨hrelation, rfl⟩⟩
  | null | bool | float | string | array => exact iff_of_false nofun nofun

/-- A number of matches that is exact and reached is no reason to refuse a reply, and neither is
none. -/
theorem checkComplete_of_isReached {total? : Option Json} {returned : Nat}
    (h : Json.IsReached total? returned) : checkComplete (ε := ε) total? returned = .ok () := by
  cases total? with
  | none => rfl
  | some total =>
    obtain ⟨k, hcounts, hk⟩ := h total rfl
    simp only [checkComplete, readTotal_eq_some_iff.mpr hcounts, hk, and_self, if_true]

/-- A number of matches that is not exact, or that the hits do not reach, is reported. -/
theorem checkComplete_of_counts {total : Json} {k : Nat} {relation : String} {returned : Nat}
    (hcounts : total.Counts k relation) (h : relation ≠ "eq" ∨ returned < k) :
    checkComplete (ε := ε) (some total) returned = .error (.truncated returned k relation) := by
  have hpartly : ¬(relation = "eq" ∧ k ≤ returned) := by
    rintro ⟨heq, hle⟩
    rcases h with hne | hlt
    · exact hne heq
    · omega
  simp only [checkComplete, readTotal_eq_some_iff.mpr hcounts, if_neg hpartly]

/-- A number of matches that cannot be read is reported. -/
theorem checkComplete_of_not_counts {total : Json} {returned : Nat}
    (h : ∀ k relation, ¬total.Counts k relation) :
    checkComplete (ε := ε) (some total) returned = .error (.malformed (.badTotal total)) := by
  rw [checkComplete]
  rcases hread : readTotal total with ⟨_ | k, relation⟩
  · rfl
  · exact absurd (readTotal_eq_some_iff.mp hread) (h k relation)

/-! ### Hits -/

namespace Schema

variable {s : Schema}

/-- A hit holds an entity or has an error. -/
theorem hitHolds_or_refusesHit (s : Schema) (hit : Json) :
    (∃ e, s.HitHolds hit e) ∨ ∃ e : StoreError ε, s.RefusesHit hit e := by
  cases hsource : hit.member? "_source" with
  | none => exact .inr ⟨_, .noSource hsource⟩
  | some source =>
    cases source with
    | object members =>
      cases hdocument : s.ofDocument members with
      | ok e => exact .inl ⟨e, members, hsource, hdocument⟩
      | error cause => exact .inr ⟨_, .refused hsource hdocument⟩
    | null | bool | int | float | string | array =>
      exact .inr ⟨_, .notObject hsource nofun⟩

/-- Hits that hold entities are decoded as these, one by one. -/
theorem decodeHits_of_hold {items : List Json} {es : List Entity}
    (h : List.Forall₂ s.HitHolds items es) : s.decodeHits (ε := ε) items = .ok es := by
  induction h with
  | nil => rfl
  | cons hhit _ ih =>
    obtain ⟨members, hsource, hdocument⟩ := hhit
    simp only [decodeHits, hsource, decodeSource, hdocument, ih]

/-- A document that is no object is reported. -/
theorem decodeSource_of_not_object {source : Json} (h : ∀ members, source ≠ .object members) :
    s.decodeSource (ε := ε) source = .error (.malformed (.notObject source)) := by
  cases source with
  | object members => exact absurd rfl (h members)
  | null | bool | int | float | string | array => rfl

/-- Of several hits the first that holds no entity is reported. -/
theorem decodeHits_of_refusesHit {before : List Json} {hit : Json} {e : StoreError ε}
    (hbefore : ∀ other ∈ before, ∃ entity, s.HitHolds other entity) (h : s.RefusesHit hit e)
    (after : List Json) : s.decodeHits (before ++ hit :: after) = .error e := by
  -- The hits before the one at fault are decoded, and then dropped for its error.
  induction before with
  | nil =>
    cases h with
    | noSource missing => simp only [List.nil_append, decodeHits, missing]
    | notObject found hsource =>
      simp only [List.nil_append, decodeHits, found, decodeSource_of_not_object hsource]
    | refused found undecodable =>
      simp only [List.nil_append, decodeHits, found, decodeSource, undecodable]
  | cons other rest ih =>
    obtain ⟨⟨entity, members, hsource, hdocument⟩, hrest⟩ := List.forall_mem_cons.mp hbefore
    simp only [List.cons_append, decodeHits, hsource, decodeSource, hdocument, ih hrest]

/-! ### Decisions -/

/-- The hits of a reply reach the number of matches, or the reply has an error. -/
theorem isReached_or_refuses (s : Schema) {reply : Json} {items : List Json}
    {total? : Option Json} (h : reply.IsReply items total?) :
    Json.IsReached total? items.length ∨ ∃ e : StoreError ε, s.Refuses reply e := by
  cases total? with
  | none => exact .inl nofun
  | some total =>
    by_cases hcounted : ∃ k relation, total.Counts k relation
    · obtain ⟨k, relation, hcounts⟩ := hcounted
      by_cases hpartly : relation ≠ "eq" ∨ items.length < k
      · exact .inr ⟨_, .truncated h hcounts hpartly⟩
      · rw [not_or, not_not, Nat.not_lt] at hpartly
        obtain ⟨rfl, hk⟩ := hpartly
        refine .inl ?_
        rintro _ ⟨⟩
        exact ⟨k, hcounts, hk⟩
    · exact .inr ⟨_, .badTotal h fun k relation hcounts => hcounted ⟨k, relation, hcounts⟩⟩

/-- A reply is a complete list of hits that hold entities, or it has an error. -/
theorem accepts_or_refuses (s : Schema) (reply : Json) :
    (∃ es, s.Accepts reply es) ∨ ∃ e : StoreError ε, s.Refuses reply e := by
  -- The checks come in this order: the list of hits, the number of matches, each hit.
  by_cases hlisted : ∃ items total?, reply.IsReply items total?
  · obtain ⟨items, total?, hreply⟩ := hlisted
    rcases s.isReached_or_refuses (ε := ε) hreply with hreached | hrefuses
    · rcases all_or_first fun hit (_ : hit ∈ items) => s.hitHolds_or_refusesHit (ε := ε) hit with
        hall | ⟨before, hit, after, e, rfl, hbefore, hhit⟩
      · obtain ⟨es, hes⟩ := exists_forall₂_iff.mpr hall
        exact .inl ⟨es, items, total?, hreply, hreached, hes⟩
      · exact .inr ⟨e, .hit hreply hreached hbefore hhit⟩
    · exact .inr hrefuses
  · exact .inr ⟨_, .noHits fun items total? hreply => hlisted ⟨items, total?, hreply⟩⟩

/-- What becomes of a reply with hits is decided by the number of matches, and if this is reached
by the hits. -/
theorem decodeReply_of_isReply {reply : Json} {items : List Json} {total? : Option Json}
    (h : reply.IsReply items total?) :
    s.decodeReply (ε := ε) reply =
      (checkComplete total? items.length).bind fun _ => s.decodeHits items := by
  obtain ⟨parts, hparts, hhits, htotal⟩ := h
  simp only [decodeReply, hparts, Option.bind_some, hhits, htotal, Json.items?]
  cases checkComplete (ε := ε) total? items.length <;> rfl

/-- A reply without hits is reported. -/
theorem decodeReply_of_not_isReply {reply : Json}
    (h : ∀ items total?, ¬reply.IsReply items total?) :
    s.decodeReply (ε := ε) reply = .error (.malformed .noHits) := by
  have hnone : ((reply.member? "hits").bind (Json.member? "hits")).bind Json.items? = none := by
    refine Option.eq_none_iff_forall_ne_some.mpr fun items hitems => ?_
    obtain ⟨hits, hfound, harray⟩ := Option.bind_eq_some_iff.mp hitems
    obtain ⟨parts, hparts, hhits⟩ := Option.bind_eq_some_iff.mp hfound
    cases hits with
    | array raws => exact h raws _ ⟨parts, hparts, hhits, rfl⟩
    | null | bool | int | float | string | object => cases harray
  simp only [decodeReply, hnone]

/-- A complete list of hits is decoded. -/
theorem decodeReply_of_accepts {reply : Json} {es : List Entity} (h : s.Accepts reply es) :
    s.decodeReply (ε := ε) reply = .ok es := by
  obtain ⟨items, total?, hreply, hreached, hhold⟩ := h
  rw [decodeReply_of_isReply hreply, checkComplete_of_isReached hreached]
  exact decodeHits_of_hold hhold

/-- Any other reply is refused with its first error. -/
theorem decodeReply_of_refuses {reply : Json} {e : StoreError ε} (h : s.Refuses reply e) :
    s.decodeReply reply = .error e := by
  cases h with
  | noHits missing => exact decodeReply_of_not_isReply missing
  | badTotal listed uncounted =>
    rw [decodeReply_of_isReply listed, checkComplete_of_not_counts uncounted]
    rfl
  | truncated listed counted partly =>
    rw [decodeReply_of_isReply listed, checkComplete_of_counts counted partly]
    rfl
  | hit listed reached hold refused =>
    rw [decodeReply_of_isReply listed, checkComplete_of_isReached reached]
    exact decodeHits_of_refusesHit hold refused _

end Schema

/-- A read is one search, whose failure is kept as the cause. Of a reply, whatever it is, a read
makes the entities of its hits, one by one, exactly if it is a complete list of hits that hold
entities, and the first error of any other. -/
theorem SearchStore.read_decides {m : Type → Type} [Monad m] (store : SearchStore m ε)
    (filters : List Filter) :
    (store.read filters = do
      match ← store.client.search store.index (searchBody filters) with
      | .ok reply => pure (store.schema.decodeReply reply)
      | .error cause => pure (.error (.client cause))) ∧
    ∀ reply, (∀ es, store.schema.decodeReply (ε := ε) reply = .ok es ↔
        store.schema.Accepts reply es) ∧
      ∀ e : StoreError ε, store.schema.decodeReply reply = .error e ↔
        store.schema.Refuses reply e := by
  constructor
  · refine congrArg (bind _) (funext fun result => ?_)
    cases result <;> rfl
  · intro reply
    exact outcome_iff (store.schema.accepts_or_refuses reply)
      (fun es => Schema.decodeReply_of_accepts) fun e => Schema.decodeReply_of_refuses

end RecordStore
