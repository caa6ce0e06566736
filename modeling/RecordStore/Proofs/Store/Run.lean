import Mathlib.Data.List.Forall2
import RecordStore.Proofs.Filter.Query
import RecordStore.Proofs.Store.Reply
import RecordStore.Proofs.Store.Request

/-!
# `RecordStore.Proofs.Store.Run`: the two stores under the same requests

A store in memory and one in an engine's index are asked the same, one request after the other.
After each request the index holds the documents of the entities in memory, and the two answers
agree: they are the same, but for two things that the engine decides. It lists what is read in an
order of its own, and if it cannot list all, the read is refused and not answered in part.

* `serve_agrees`: one request.
* `run_agrees`: any number of requests.
-/

set_option autoImplicit false

namespace RecordStore

open RecordStore.Engine (Policy State Failure client matches?)

/-! ### Agreement -/

/-- What the engine makes of a read that has the given answer in memory: all of it, in some order,
if so many hits can be listed, and a refusal if not. A number of matches that does not fit 64 bits
cannot be told. -/
def ReadAgrees (limit : Nat) (es : List Entity)
    (result : Except (StoreError Failure) (List Entity)) : Prop :=
  if 0x10000000000000000 ≤ es.length then
    result = .error (.malformed (.badTotal (Engine.totalJson es.length)))
  else if es.length ≤ limit then ∃ found, result = .ok found ∧ found.Perm es
  else result = .error (.truncated limit es.length "eq")

/-- The first answer is one from memory, and the second is what an engine that lists so many hits
at most makes of it. -/
def Agrees (limit : Nat) : Answer Failure → Answer Failure → Prop
  | .done a, .done b => a = b
  | .entity a, .entity b => a = b
  | .entities (.ok es), .entities b => ReadAgrees limit es b
  | _, _ => False

/-- The entity is one of the schema, its doubles are finite, and the years of its date-times have
four digits. -/
structure Entity.IsPlain (e : Entity) (s : Schema) : Prop where
  isOf : e.IsOf s
  isFinite : e.isFinite = true
  hasPlainYears : ∀ f ∈ s.fields, ∀ v ∈ e.elements f, v.hasPlainYear = true

instance (e : Entity) (s : Schema) : Decidable (e.IsPlain s) :=
  decidable_of_iff (e.IsOf s ∧ e.isFinite = true ∧
    ∀ f ∈ s.fields, ∀ v ∈ e.elements f, v.hasPlainYear = true)
    ⟨fun h => ⟨h.1, h.2.1, h.2.2⟩, fun h => ⟨h.isOf, h.isFinite, h.hasPlainYears⟩⟩

/-- What is put is plain, and what is asked can be expressed. -/
def Request.IsPlain (s : Schema) : Request → Prop
  | .create _ e => e.IsPlain s
  | .update _ e => e.IsPlain s
  | .get _ => True
  | .delete _ => True
  | .read filters =>
    ∀ f ∈ filters, f.Constructible ∧ f.SpeaksOf s ∧ f.HasExpressibleBounds

instance (s : Schema) (request : Request) : Decidable (request.IsPlain s) :=
  match request with
  | .create _ e => inferInstanceAs (Decidable (e.IsPlain s))
  | .update _ e => inferInstanceAs (Decidable (e.IsPlain s))
  | .get _ => inferInstanceAs (Decidable True)
  | .delete _ => inferInstanceAs (Decidable True)
  | .read filters => inferInstanceAs (Decidable
      (∀ f ∈ filters, f.Constructible ∧ f.SpeaksOf s ∧ f.HasExpressibleBounds))

/-- The document of an entity as it is put in an index. -/
def Schema.source (s : Schema) (e : Entity) : Json :=
  .object (s.toDocument e)

/-- The index holds the documents of the entities in memory, and these are plain. -/
structure Simulates (s : Schema) (index : String) (store : MemoryStore) (state : State) :
    Prop where
  documents : KeyMap.get? index state.indices = some (KeyMap.mapValues s.source store.entries)
  plain : ∀ entry ∈ store.entries, entry.2.IsPlain s

/-! ### One request -/

namespace Simulates

variable {s : Schema} {index : String} {store : MemoryStore} {state : State}

/-- The documents of the index are those of the entities. -/
theorem documents_eq (h : Simulates s index store state) :
    state.documents index = KeyMap.mapValues s.source store.entries := by
  rw [State.documents, h.documents]
  rfl

/-- Under each key the index has the document of the entity that memory has. -/
theorem get?_documents (h : Simulates s index store state) (key : String) :
    KeyMap.get? key (state.documents index) =
      (KeyMap.get? key store.entries).map s.source := by
  rw [h.documents_eq, KeyMap.get?_mapValues]

/-- The document of an entity that is kept is read back. -/
theorem decodeSource_source (hs : s.IsRegular) {e : Entity} (he : e.IsPlain s) :
    s.decodeSource (ε := Failure) (s.source e) = .ok e := by
  rw [Schema.source, Schema.decodeSource, Schema.ofDocument_toDocument hs he.isOf he.isFinite]

/-- An index without documents holds those of no entities. -/
theorem empty (h : KeyMap.get? index state.indices = some []) :
    Simulates s index MemoryStore.empty state :=
  ⟨h, fun _ hentry => nomatch hentry⟩

/-- Putting an entity in memory is putting its document in the index. -/
theorem put (h : Simulates s index store state) {e : Entity} (he : e.IsPlain s) (key : String) :
    Simulates s index (store.put key e) (state.withDocuments index
      (KeyMap.insert key (s.source e) (state.documents index))) where
  documents := by
    rw [State.get?_withDocuments, h.documents_eq]
    exact congrArg some (KeyMap.insert_mapValues s.source key e store.entries)
  plain := by
    intro entry hentry
    rcases KeyMap.mem_insert hentry with rfl | hentry
    · exact he
    · exact h.plain entry hentry

/-- Removing an entity from memory is removing its document from the index. -/
theorem erase (h : Simulates s index store state) (key : String) :
    Simulates s index ⟨KeyMap.erase key store.entries, KeyMap.sorted_erase store.sorted⟩
      (state.withDocuments index (KeyMap.erase key (state.documents index))) where
  documents := by
    rw [State.get?_withDocuments, h.documents_eq]
    exact congrArg some (KeyMap.erase_mapValues s.source key store.entries)
  plain := fun entry hentry => h.plain entry (KeyMap.mem_of_mem_erase hentry)

/-- Answering a search changes no document. -/
theorem searched (h : Simulates s index store state) (n : Nat) :
    Simulates s index store { state with searches := n } :=
  ⟨h.documents, h.plain⟩

/-- The hits of a search for what satisfies all filters are the documents of the entities that
satisfy them. -/
theorem hits? (h : Simulates s index store state) (hs : s.IsIndexable) {filters : List Filter}
    (hfilters : (Request.read filters).IsPlain s) :
    Engine.hits? (.single "bool" (.single "filter" (.array (filters.map Filter.toQuery))))
      (KeyMap.mapValues s.source store.entries) =
        some (KeyMap.mapValues s.source
          (store.entries.filter fun entry => filters.all (Filter.holds entry.2))) := by
  refine Engine.hits?_mapValues (p := fun e => filters.all (Filter.holds e)) ?_
  intro entry hentry
  have he := h.plain entry hentry
  refine Filter.matches?_all hs he.isOf he.isFinite (fun f hf => (hfilters f hf).1)
    (fun f hf => (hfilters f hf).2.1) ?_
  intro f hf
  obtain ⟨-, hfields, hbounds⟩ := hfilters f hf
  exact Filter.hasPlainBounds_of_hasExpressibleBounds hfields hbounds he.hasPlainYears

/-- A search for what satisfies all filters is answered with the documents of the entities that
satisfy them. -/
theorem search (h : Simulates s index store state) (hs : s.IsIndexable) {filters : List Filter}
    (hfilters : (Request.read filters).IsPlain s) (policy : Policy) :
    let hits := KeyMap.mapValues s.source
      (store.entries.filter fun entry => filters.all (Filter.holds entry.2))
    Engine.search policy state index (searchBody filters) =
      (.ok (Engine.replyJson index hits.length
        ((policy.arrange state.searches hits).take policy.limit)),
        { state with searches := state.searches + 1 }) := by
  intro hits
  rw [Engine.search, h.documents]
  simp only [searchBody, Json.member?_single, Option.bind_some, h.hits? hs hfilters]
  rfl

end Simulates

/-- The entity that a document holds, or one without values if it holds none. -/
def Schema.entityOf (s : Schema) (source : Json) : Entity :=
  match s.decodeSource (ε := Failure) source with
  | .ok e => e
  | .error _ => Entity.empty

/-- The document of a plain entity holds the entity. -/
theorem Schema.entityOf_source {s : Schema} (hs : s.IsRegular) {e : Entity} (he : e.IsPlain s) :
    s.entityOf (s.source e) = e := by
  rw [entityOf, Simulates.decodeSource_source hs he]

/-- What the engine makes of a read of which it knows all matches. -/
theorem readAgrees_decodeReply {s : Schema} (hs : s.IsRegular) (policy : Policy) (n : Nat)
    (index : String) {kept : List (String × Entity)} (hplain : ∀ entry ∈ kept, entry.2.IsPlain s) :
    let hits := KeyMap.mapValues s.source kept
    ReadAgrees policy.limit (kept.map Prod.snd)
      (s.decodeReply (Engine.replyJson index hits.length
        ((policy.arrange n hits).take policy.limit))) := by
  intro hits
  have hlength : hits.length = kept.length := List.length_map ..
  have hperm := policy.perm n hits
  have hdecode : ∀ hit ∈ hits,
      s.decodeSource (ε := Failure) hit.2 = .ok (s.entityOf hit.2) := by
    intro hit hhit
    obtain ⟨entry, hentry, rfl⟩ := List.mem_map.mp hhit
    rw [Schema.entityOf_source hs (hplain entry hentry)]
    exact Simulates.decodeSource_source hs (hplain entry hentry)
  have hentities : hits.map (fun hit => s.entityOf hit.2) = kept.map Prod.snd := by
    show ((kept.map fun entry => (entry.1, s.source entry.2)).map fun hit => s.entityOf hit.2) = _
    rw [List.map_map]
    exact List.map_congr_left fun entry hentry =>
      Schema.entityOf_source hs (hplain entry hentry)
  rw [ReadAgrees, List.length_map, hlength]
  split
  · rename_i hbig
    -- The number of matches cannot be told, so the reply is refused whatever it lists.
    exact Engine.decodeReply_replyJson_of_error (Engine.checkComplete_totalJson_of_le hbig _)
  · rename_i hsmall
    split
    · rename_i hle
      -- All matches are listed, so the order is all that can differ.
      have htake : (policy.arrange n hits).take policy.limit = policy.arrange n hits := by
        rw [List.take_of_length_le]
        rw [hperm.length_eq, hlength]
        exact hle
      rw [htake]
      refine ⟨(policy.arrange n hits).map fun hit => s.entityOf hit.2, ?_, ?_⟩
      · refine Engine.decodeReply_replyJson ?_ fun hit hhit => hdecode hit (hperm.mem_iff.mp hhit)
        rw [Engine.checkComplete_totalJson (Nat.not_le.mp hsmall), hperm.length_eq, hlength,
          if_pos (Nat.le_refl _)]
      · rw [← hentities]
        exact hperm.map _
    · rename_i hgt
      -- The reply is as long as it can be, and that is less than it says.
      have htake : ((policy.arrange n hits).take policy.limit).length = policy.limit := by
        rw [List.length_take, hperm.length_eq, hlength]
        omega
      refine Engine.decodeReply_replyJson_of_error ?_
      rw [Engine.checkComplete_totalJson (Nat.not_le.mp hsmall), htake, if_neg hgt]

/-- What a removal does in an engine. -/
theorem run_delete (policy : Policy) (s : Schema) (index key : String) (state : State) :
    let search : SearchStore (StateM State) Failure := ⟨client policy, s, index⟩
    (search.serve (.delete key)).run state =
      match KeyMap.get? key (state.documents index) with
      | none => (.done (.error (.notFound key)), state)
      | some _ => (.done (.ok ()),
          state.withDocuments index (KeyMap.erase key (state.documents index))) := by
  intro search
  show (let found :=
      match KeyMap.get? key (state.documents index) with
      | none => (Except.ok false, state)
      | some _ =>
        (Except.ok true, state.withDocuments index (KeyMap.erase key (state.documents index)))
    (Answer.done (SearchStore.answer found.1 _), found.2)) = _
  cases KeyMap.get? key (state.documents index) <;> rfl

/-- What a read makes of a reply. -/
theorem run_read_of_search {policy : Policy} {s : Schema} {index : String} {filters : List Filter}
    {state next : State} {reply : Json}
    (h : Engine.search policy state index (searchBody filters) = (.ok reply, next)) :
    let search : SearchStore (StateM State) Failure := ⟨client policy, s, index⟩
    (search.serve (.read filters)).run state = (.entities (s.decodeReply reply), next) := by
  intro search
  show (Answer.entities (SearchStore.answer
      (Engine.search policy state index (searchBody filters)).1 s.decodeReply),
    (Engine.search policy state index (searchBody filters)).2) = _
  rw [h]
  rfl

/-- The answers to one request agree, and after it the index holds the documents of the entities
in memory. -/
theorem serve_agrees {s : Schema} (hs : s.IsRegular) (hindex : s.IsIndexable) (policy : Policy)
    {index : String} {store : MemoryStore} {state : State} (h : Simulates s index store state)
    {request : Request} (hrequest : request.IsPlain s) :
    let search : SearchStore (StateM State) Failure := ⟨client policy, s, index⟩
    Agrees policy.limit (store.serve request).1 ((search.serve request).run state).1 ∧
      Simulates s index (store.serve (ε := Failure) request).2
        ((search.serve request).run state).2 := by
  intro search
  cases request with
  | create key e => exact ⟨rfl, h.put hrequest key⟩
  | update key e => exact ⟨rfl, h.put hrequest key⟩
  | get key =>
    refine ⟨?_, h⟩
    show store.get key = SearchStore.answer (.ok (KeyMap.get? key (state.documents index))) _
    rw [h.get?_documents, MemoryStore.get]
    cases hfound : KeyMap.get? key store.entries with
    | none => rfl
    | some e =>
      have he := h.plain _ (KeyMap.mem_of_get? hfound)
      exact (Simulates.decodeSource_source hs he).symm
  | delete key =>
    rw [run_delete policy s index key state, h.get?_documents, MemoryStore.serve,
      MemoryStore.delete]
    cases KeyMap.get? key store.entries with
    | none => exact ⟨rfl, h⟩
    | some e => exact ⟨rfl, h.erase key⟩
  | read filters =>
    have hread : store.read filters =
        (store.entries.filter fun entry => filters.all (Filter.holds entry.2)).map Prod.snd :=
      List.filter_map
    have hplain : ∀ entry ∈ store.entries.filter fun entry => filters.all (Filter.holds entry.2),
        entry.2.IsPlain s := by
      intro entry hentry
      exact h.plain entry (List.mem_filter.mp hentry).1
    have hagrees := readAgrees_decodeReply hs policy state.searches index hplain
    rw [← hread] at hagrees
    rw [run_read_of_search (h.search hindex hrequest policy)]
    exact ⟨hagrees, h.searched (state.searches + 1)⟩

/-- From stores that hold the same on, the answers to any number of requests agree, one by one, and
the stores hold the same after them. -/
theorem run_agrees_of_simulates {s : Schema} (hs : s.IsRegular) (hindex : s.IsIndexable)
    (policy : Policy) {index : String} {store : MemoryStore} {state : State}
    (h : Simulates s index store state) {requests : List Request}
    (hrequests : ∀ request ∈ requests, request.IsPlain s) :
    let search : SearchStore (StateM State) Failure := ⟨client policy, s, index⟩
    List.Forall₂ (Agrees policy.limit) (store.run requests).1
        ((search.run requests).run state).1 ∧
      Simulates s index (store.run (ε := Failure) requests).2
        ((search.run requests).run state).2 := by
  intro search
  -- The stores change from request to request, so the induction is for all that hold the same.
  induction requests generalizing store state with
  | nil => exact ⟨.nil, h⟩
  | cons request rest ih =>
    obtain ⟨hanswer, hnext⟩ :=
      serve_agrees hs hindex policy h (hrequests request List.mem_cons_self)
    obtain ⟨hanswers, hlast⟩ :=
      ih hnext fun other hother => hrequests other (List.mem_cons_of_mem _ hother)
    exact ⟨.cons hanswer hanswers, hlast⟩

/-- The answers to any number of requests agree, one by one, if the index is there and empty at
the start. -/
theorem run_agrees {s : Schema} (hs : s.IsRegular) (hindex : s.IsIndexable) (policy : Policy)
    {index : String} {state : State} (hempty : KeyMap.get? index state.indices = some [])
    {requests : List Request} (hrequests : ∀ request ∈ requests, request.IsPlain s) :
    let search : SearchStore (StateM State) Failure := ⟨client policy, s, index⟩
    List.Forall₂ (Agrees policy.limit) (MemoryStore.empty.run requests).1
      ((search.run requests).run state).1 :=
  (run_agrees_of_simulates hs hindex policy (.empty hempty) hrequests).1

/-- Two records are put, read, which is too much for the engine, and read again when one of them is
gone. -/
theorem run_agrees_weather :
    let policy : Policy := ⟨1, fun _ hits => hits.reverse, fun _ hits => hits.reverse_perm⟩
    let search : SearchStore (StateM State) Failure := ⟨client policy, .weather, "weather"⟩
    let station : Field := ⟨"station", .scalar .string, none, some "station.keyword"⟩
    let fromOslo : Request := .read [.equal false station (.string "Oslo")]
    let requests : List Request := [.create "b" .silent, .update "a" .silent, fromOslo,
      .delete "b", fromOslo, .get "b"]
    List.Forall₂ (Agrees 1) (MemoryStore.empty.run requests).1
      ((search.run requests).run ⟨[("weather", [])], 0⟩).1 := by
  intro policy search station fromOslo requests
  exact run_agrees (s := .weather) (by decide) (by decide) policy rfl (by decide)

end RecordStore
