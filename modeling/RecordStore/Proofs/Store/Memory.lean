import Mathlib.Tactic.Tauto
import RecordStore.Proofs.KeyMap
import RecordStore.Proofs.Store.Request
import RecordStore.Proofs.Text.ByteOrder

/-!
# `RecordStore.Proofs.Store.Memory`: a store in memory is a map

What a store in memory holds is a map from keys to entities. A request changes it under one key or
not at all, and the answer can be told from the map before the request. So after any number of
requests, what is under a key is what the last request that wrote or removed there has left.

* `holds_contents`: all that can be asked of a store follows from what it finds under each key.
* `answers_serve`, `contents_serve`: one request.
* `run_eq`: any number of requests.
* `afterAll_eq_some_iff`: which request has left what is found.
* `run_refines`: the answers of a store that is made of entries, and the store after them.
-/

set_option autoImplicit false

namespace RecordStore

/-! ### Contents -/

/-- What a store holds under each key: an entity or nothing. -/
abbrev Contents :=
  String → Option Entity

namespace Contents

variable {ε : Type}

/-- Nothing under any key. -/
def empty : Contents :=
  fun _ => none

/-- The contents with an entity put under a key. -/
def put (m : Contents) (key : String) (e : Entity) : Contents :=
  fun k => if k = key then some e else m k

/-- The contents without the entity under a key. -/
def erase (m : Contents) (key : String) : Contents :=
  fun k => if k = key then none else m k

/-- There is nothing to remove where there is nothing. -/
theorem erase_eq_self {m : Contents} {key : String} (h : m key = none) : m.erase key = m := by
  funext k
  by_cases hk : k = key
  · rw [erase, if_pos hk, hk, h]
  · rw [erase, if_neg hk]

/-- The given entities; of a repeated key the last one counts. -/
def ofList (entries : List (String × Entity)) : Contents :=
  entries.foldl (fun m entry => m.put entry.1 entry.2) empty

/-- The entity under a key, which must be there. -/
def get (m : Contents) (key : String) : Except (StoreError ε) Entity :=
  match m key with
  | some e => .ok e
  | none => .error (.notFound key)

/-- An entity is found where it is. -/
theorem get_eq_ok_iff {m : Contents} {key : String} {e : Entity} :
    m.get (ε := ε) key = .ok e ↔ m key = some e := by
  rw [get]
  cases m key <;> simp

/-- Nothing is found where there is nothing. -/
theorem get_eq_notFound_iff {m : Contents} {key : String} :
    m.get (ε := ε) key = .error (.notFound key) ↔ m key = none := by
  rw [get]
  cases m key <;> simp

/-- The contents after a request: an entity is put in place of what stood there, or removed. -/
def after (m : Contents) : Request → Contents
  | .create key e => m.put key e
  | .update key e => m.put key e
  | .get _ => m
  | .delete key => m.erase key
  | .read _ => m

/-- The contents after several requests. -/
def afterAll (m : Contents) (requests : List Request) : Contents :=
  requests.foldl after m

/-- The list has one entity for each key whose entity satisfies all filters, and no others. -/
def Lists (m : Contents) (filters : List Filter) (es : List Entity) : Prop :=
  ∃ keys : List String, keys.Nodup ∧ keys.map m = es.map some ∧
    ∀ key, key ∈ keys ↔ ∃ e, m key = some e ∧ ∀ f ∈ filters, f.holds e = true

/-- The answer is the one that these contents have to the request: writes succeed, removals do so
if there is something to remove, and what is found or listed is what is there. -/
def Answers (m : Contents) : Request → Answer ε → Prop
  | .create _ _, answer => answer = .done (.ok ())
  | .update _ _, answer => answer = .done (.ok ())
  | .get key, answer => answer = .entity (m.get key)
  | .delete key, answer => answer = .done ((m.get key).map fun _ => ())
  | .read filters, answer => ∃ es, answer = .entities (.ok es) ∧ m.Lists filters es

/-- The answers are those to the requests, each by the contents after the requests before it. -/
inductive AnswersAll : Contents → List Request → List (Answer ε) → Prop where
  | nil (m : Contents) : AnswersAll m [] []
  | cons {m : Contents} {request : Request} {answer : Answer ε} {requests : List Request}
      {answers : List (Answer ε)} (first : m.Answers request answer)
      (rest : AnswersAll (m.after request) requests answers) :
      AnswersAll m (request :: requests) (answer :: answers)

end Contents

/-- The key under which the request writes or removes. -/
def Request.target? : Request → Option String
  | .create key _ => some key
  | .update key _ => some key
  | .get _ => none
  | .delete key => some key
  | .read _ => none

/-- The request puts the entity under the key. -/
def Request.Puts (key : String) (e : Entity) (request : Request) : Prop :=
  request = .create key e ∨ request = .update key e

/-- The answer is an error. -/
def Answer.IsFailure {ε : Type} : Answer ε → Prop
  | .done result => ∃ cause, result = .error cause
  | .entity result => ∃ cause, result = .error cause
  | .entities result => ∃ cause, result = .error cause

/-! ### What a store holds -/

namespace MemoryStore

/-- What a look-up finds under each key. -/
def contents (s : MemoryStore) : Contents :=
  fun key => KeyMap.get? key s.entries

/-- The store holds the contents: this is what it answers to each question about them.

- `get`: what is under a key is found;
- `keys_sorted`, `mem_keys`: the keys with an entity are listed in the order of their bytes;
- `size`, `isEmpty`: they are counted;
- `read`, `read_all`: the entities that satisfy all filters are listed, and without filters all
  are. -/
structure Holds (s : MemoryStore) (m : Contents) : Prop where
  get : ∀ (ε : Type) (key : String), s.get (ε := ε) key = m.get key
  keys_sorted : s.keys.Pairwise fun k l => Text.utf8 k < Text.utf8 l
  mem_keys : ∀ key, key ∈ s.keys ↔ ∃ e, m key = some e
  size : s.size = s.keys.length
  isEmpty : s.isEmpty = true ↔ ∀ key, m key = none
  read : ∀ filters, m.Lists filters (s.read filters)
  read_all : (s.read []).length = s.size

/-- The keys of entries in key order are distinct. -/
theorem nodup_keys {entries : List (String × Entity)} (h : KeyMap.Sorted entries) :
    (KeyMap.keys entries).Nodup := by
  refine List.Pairwise.imp ?_ h
  intro k l hlt heq
  exact String.lt_irrefl l (heq ▸ hlt)

/-- What is read are the entities of the entries that are kept. -/
theorem read_eq (s : MemoryStore) (filters : List Filter) :
    s.read filters =
      (s.entries.filter fun entry => filters.all (Filter.holds entry.2)).map Prod.snd :=
  List.filter_map

/-- What is read has one entity for each key whose entity satisfies all filters. -/
theorem lists_read (s : MemoryStore) (filters : List Filter) :
    s.contents.Lists filters (s.read filters) := by
  let kept := s.entries.filter fun entry => filters.all (Filter.holds entry.2)
  have hkept : KeyMap.Sorted kept := KeyMap.sorted_filter _ s.sorted
  refine ⟨KeyMap.keys kept, nodup_keys hkept, ?_, fun key => ?_⟩
  · rw [read_eq, KeyMap.keys, List.map_map, List.map_map]
    refine List.map_congr_left fun entry hentry => ?_
    exact KeyMap.get?_of_mem s.sorted (List.mem_filter.mp hentry).1
  · rw [KeyMap.mem_keys_iff,
      KeyMap.get?_filter (fun e => filters.all (Filter.holds e)) key s.sorted]
    simp only [Option.filter_eq_some_iff, List.all_eq_true, contents]

/-- All that can be asked of a store follows from what it finds under each key. -/
theorem holds_contents (s : MemoryStore) : s.Holds s.contents where
  get := fun _ _ => rfl
  keys_sorted := s.sorted.imp Text.utf8_lt_iff.mpr
  mem_keys := fun _ => KeyMap.mem_keys_iff
  size := (List.length_map ..).symm
  isEmpty := by
    rw [isEmpty, List.isEmpty_iff]
    constructor
    · intro h key
      rw [contents, h]
      rfl
    · intro h
      refine List.eq_nil_iff_forall_not_mem.mpr fun entry hentry => ?_
      have hfound := KeyMap.get?_of_mem s.sorted hentry
      rw [← contents, h] at hfound
      cases hfound
  read := s.lists_read
  read_all := by
    have hall : s.entries.filter (fun entry => [].all (Filter.holds entry.2)) = s.entries :=
      List.filter_eq_self.mpr fun _ _ => rfl
    rw [read_eq, hall, List.length_map, size]

/-- A look-up after a write finds what was written and whatever else there was. -/
theorem get?_insert_eq_put (key : String) (e : Entity) (entries : List (String × Entity)) :
    (fun k => KeyMap.get? k (KeyMap.insert key e entries)) =
      Contents.put (fun k => KeyMap.get? k entries) key e := by
  funext k
  by_cases hk : k = key
  · subst hk
    exact (KeyMap.get?_insert_self k e entries).trans (if_pos rfl).symm
  · exact (KeyMap.get?_insert_of_ne hk e entries).trans (if_neg hk).symm

/-- Of the entries of a repeated key the last one counts. -/
theorem contents_ofList (entries : List (String × Entity)) :
    (ofList entries).contents = Contents.ofList entries := by
  suffices h : ∀ es : List (String × Entity),
      (fun key => KeyMap.get? key
        (entries.foldl (fun es entry => KeyMap.insert entry.1 entry.2 es) es)) =
      entries.foldl (fun m entry => Contents.put m entry.1 entry.2)
        (fun key => KeyMap.get? key es) from h []
  -- The entries are put in one by one, so the induction is for all that stood there before.
  induction entries with
  | nil => exact fun es => rfl
  | cons entry rest ih =>
    intro es
    rw [List.foldl_cons, List.foldl_cons, ih, get?_insert_eq_put]

/-! ### One request -/

/-- Putting an entity under a key changes nothing else. -/
theorem contents_put (s : MemoryStore) (key : String) (e : Entity) :
    (s.put key e).contents = s.contents.put key e :=
  get?_insert_eq_put key e s.entries

/-- Removing what is under a key changes nothing else. -/
theorem contents_erase (s : MemoryStore) (key : String) :
    contents ⟨KeyMap.erase key s.entries, KeyMap.sorted_erase s.sorted⟩ = s.contents.erase key := by
  funext k
  by_cases hk : k = key
  · subst hk
    exact (KeyMap.get?_erase_self s.sorted).trans (if_pos rfl).symm
  · exact (KeyMap.get?_erase_of_ne hk s.entries).trans (if_neg hk).symm

variable {ε : Type}

/-- A request is answered from the contents of the store. -/
theorem answers_serve (s : MemoryStore) (request : Request) :
    s.contents.Answers request (s.serve (ε := ε) request).1 := by
  cases request with
  | create key e | update key e | get key => rfl
  | delete key =>
    rw [Contents.Answers, Contents.get, contents, serve, delete]
    cases KeyMap.get? key s.entries <;> rfl
  | read filters => exact ⟨_, rfl, s.lists_read filters⟩

/-- After a request the store has the contents after it. -/
theorem contents_serve (s : MemoryStore) (request : Request) :
    (s.serve (ε := ε) request).2.contents = s.contents.after request := by
  cases request with
  | create key e | update key e => exact s.contents_put key e
  | get key | read filters => rfl
  | delete key =>
    rw [Contents.after, serve, delete]
    cases hfound : KeyMap.get? key s.entries with
    -- A removal that is refused would not have changed a map either.
    | none => exact (Contents.erase_eq_self hfound).symm
    | some e => exact s.contents_erase key

/-- A request that asks only, or that is refused, leaves the store as it was. -/
theorem serve_eq_self (s : MemoryStore) {request : Request}
    (h : request.target? = none ∨ (s.serve (ε := ε) request).1.IsFailure) :
    (s.serve (ε := ε) request).2 = s := by
  cases request with
  | create key e | update key e => rcases h with h | ⟨cause, h⟩ <;> cases h
  | get key | read filters => rfl
  | delete key =>
    rw [serve, delete] at h ⊢
    cases hfound : KeyMap.get? key s.entries with
    | none => rfl
    | some e =>
      rw [hfound] at h
      rcases h with h | ⟨cause, h⟩ <;> cases h

/-! ### Any number of requests -/

/-- Requests are answered from the contents after the requests before them, which are those of the
store at that time. -/
theorem run_eq (s : MemoryStore) (requests : List Request) :
    s.contents.AnswersAll requests (s.run (ε := ε) requests).1 ∧
      (s.run (ε := ε) requests).2.contents = s.contents.afterAll requests := by
  -- The store changes from request to request, so the induction is for all stores.
  induction requests generalizing s with
  | nil => exact ⟨.nil _, rfl⟩
  | cons request rest ih =>
    obtain ⟨hanswers, hlast⟩ := ih (s.serve (ε := ε) request).2
    rw [contents_serve] at hanswers hlast
    exact ⟨.cons (s.answers_serve request) hanswers, hlast⟩

end MemoryStore

/-! ### History -/

/-- Of the requests that write or remove under the key the last one puts the entity there. -/
def LastPut (key : String) (e : Entity) (requests : List Request) : Prop :=
  ∃ before request after, requests = before ++ request :: after ∧ request.Puts key e ∧
    ∀ other ∈ after, other.target? ≠ some key

/-- The last request that writes or removes is among the later ones, or it is the first. -/
theorem lastPut_cons {key : String} {e : Entity} {request : Request} {rest : List Request} :
    LastPut key e (request :: rest) ↔
      LastPut key e rest ∨ request.Puts key e ∧ ∀ other ∈ rest, other.target? ≠ some key := by
  constructor
  · rintro ⟨before, last, after, heq, hputs, hafter⟩
    cases before with
    | nil =>
      cases heq
      exact .inr ⟨hputs, hafter⟩
    | cons first before =>
      cases heq
      exact .inl ⟨before, last, after, rfl, hputs, hafter⟩
  · rintro (⟨before, last, after, rfl, hputs, hafter⟩ | ⟨hputs, hrest⟩)
    · exact ⟨request :: before, last, after, rfl, hputs, hafter⟩
    · exact ⟨[], request, rest, rfl, hputs, hrest⟩

namespace Contents

/-- What is under a key after a request was put there by the request, or it was there before and
the request has left it. -/
theorem after_eq_some_iff {m : Contents} {request : Request} {key : String} {e : Entity} :
    m.after request key = some e ↔
      request.Puts key e ∨ request.target? ≠ some key ∧ m key = some e := by
  cases request with
  | create k other | update k other =>
    by_cases hk : key = k
    · subst hk
      simp [after, put, Request.Puts, Request.target?]
    · simp [after, put, Request.Puts, Request.target?, hk, Ne.symm hk]
  | get k | read filters => simp [after, Request.Puts, Request.target?]
  | delete k =>
    by_cases hk : key = k
    · subst hk
      simp [after, erase, Request.Puts, Request.target?]
    · simp [after, erase, Request.Puts, Request.target?, hk, Ne.symm hk]

/-- What is under a key after several requests was put there by the last that wrote or removed
there, or it was there before and they all have left it. -/
theorem afterAll_eq_some_iff {m : Contents} {requests : List Request} {key : String} {e : Entity} :
    m.afterAll requests key = some e ↔
      LastPut key e requests ∨ (∀ request ∈ requests, request.target? ≠ some key) ∧
        m key = some e := by
  -- The first request makes the contents from which the others start.
  induction requests generalizing m with
  | nil => simp [afterAll, LastPut]
  | cons request rest ih =>
    show (m.after request).afterAll rest key = some e ↔ _
    rw [ih, after_eq_some_iff, lastPut_cons, List.forall_mem_cons]
    tauto

/-- To start from entries is to start from nothing and to put them in first. -/
theorem ofList_eq_afterAll (entries : List (String × Entity)) :
    ofList entries = empty.afterAll (entries.map fun entry => .create entry.1 entry.2) := by
  rw [afterAll, List.foldl_map]
  rfl

/-- What is under a key after requests to a store of entries was put there by the last entry or
request that wrote or removed there. -/
theorem afterAll_ofList_eq_some_iff {entries : List (String × Entity)} {requests : List Request}
    {key : String} {e : Entity} :
    (ofList entries).afterAll requests key = some e ↔
      LastPut key e ((entries.map fun entry => .create entry.1 entry.2) ++ requests) := by
  rw [ofList_eq_afterAll, afterAll, afterAll, ← List.foldl_append, ← afterAll,
    afterAll_eq_some_iff]
  exact or_iff_left fun h => nomatch h.2

/-- A request changes nothing under other keys than its own. -/
theorem after_of_target?_ne {m : Contents} {request : Request} {key : String}
    (h : request.target? ≠ some key) : m.after request key = m key := by
  cases request with
  | create k e | update k e | delete k =>
    exact if_neg fun heq => h (congrArg some heq.symm)
  | get k | read filters => rfl

end Contents

namespace MemoryStore

/-- A store of entries answers any number of requests as a map does, and after them it holds what
the map holds. What is found under a key is the entity of the last entry or request that wrote
there, if nothing was removed there since. A request changes nothing under other keys than its own,
and nothing at all if it asks only or is refused. -/
theorem run_refines (ε : Type) (entries : List (String × Entity)) (requests : List Request) :
    let initial := Contents.ofList entries
    let served := (ofList entries).run (ε := ε) requests
    let history := (entries.map fun entry => Request.create entry.1 entry.2) ++ requests
    initial.AnswersAll requests served.1 ∧
    served.2.Holds (initial.afterAll requests) ∧
    (∀ key e, served.2.get (ε := ε) key = .ok e ↔ LastPut key e history) ∧
    (∀ key, served.2.get (ε := ε) key = .error (.notFound key) ↔ ∀ e, ¬LastPut key e history) ∧
    ∀ request : Request,
      (∀ key, request.target? ≠ some key →
        (served.2.serve (ε := ε) request).2.get (ε := ε) key = served.2.get key) ∧
      (request.target? = none ∨ (served.2.serve (ε := ε) request).1.IsFailure →
        (served.2.serve (ε := ε) request).2 = served.2) := by
  intro initial served history
  obtain ⟨hanswers, hcontents⟩ := (ofList entries).run_eq (ε := ε) requests
  rw [contents_ofList] at hanswers hcontents
  have hholds : served.2.Holds (initial.afterAll requests) := hcontents ▸ served.2.holds_contents
  refine ⟨hanswers, hholds, fun key e => ?_, fun key => ?_, fun request => ⟨fun key hkey => ?_,
    served.2.serve_eq_self⟩⟩
  · rw [hholds.get, Contents.get_eq_ok_iff]
    exact Contents.afterAll_ofList_eq_some_iff
  · rw [hholds.get, Contents.get_eq_notFound_iff, Option.eq_none_iff_forall_ne_some]
    exact forall_congr' fun e => not_congr Contents.afterAll_ofList_eq_some_iff
  · show (served.2.serve request).2.contents.get key = served.2.contents.get key
    rw [contents_serve, Contents.get, Contents.get, Contents.after_of_target?_ne hkey]

/-- Two entries under one key, and requests for another one. -/
theorem run_refines_twice :
    let oslo : Entity := Entity.empty.put "station" (.string "Oslo")
    let served := (ofList [("a", .empty), ("a", oslo)]).run (ε := Empty) [.get "b", .read []]
    served.2.get (ε := Empty) "a" = .ok oslo ∧
    (served.2.serve (ε := Empty) (.update "b" oslo)).2.get (ε := Empty) "a" =
      served.2.get "a" ∧
    (served.2.serve (ε := Empty) (.delete "b")).2 = served.2 := by
  intro oslo served
  obtain ⟨-, -, hfound, -, hserve⟩ :=
    run_refines Empty [("a", .empty), ("a", oslo)] [.get "b", .read []]
  have hrefused : (served.2.serve (ε := Empty) (.delete "b")).1.IsFailure := by
    show Answer.IsFailure (.done (.error (.notFound "b")))
    exact ⟨_, rfl⟩
  refine ⟨(hfound "a" oslo).mpr ?_, (hserve _).1 "a" (by decide), (hserve _).2 (.inr hrefused)⟩
  exact ⟨[.create "a" .empty], .create "a" oslo, _, rfl, .inl rfl, by decide⟩

end MemoryStore

end RecordStore
