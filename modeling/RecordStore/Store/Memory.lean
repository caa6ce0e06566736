import RecordStore.Filter.Evaluation
import RecordStore.Store.Error

/-!
# `RecordStore.Store.Memory`: entities kept in memory

The store is a map from keys to entities, in key order. Creating and updating are one operation:
the entity is put under the key, whatever stood there.
-/

set_option autoImplicit false

namespace RecordStore

/-- A store in memory: entities under their keys, in key order. -/
structure MemoryStore where
  entries : List (String × Entity)
  sorted : KeyMap.Sorted entries

namespace MemoryStore

/-- The store without entities. -/
def empty : MemoryStore :=
  ⟨[], KeyMap.sorted_nil⟩

/-- The store with the given entities; of a repeated key the last one counts. -/
def ofList (entries : List (String × Entity)) : MemoryStore :=
  ⟨KeyMap.ofList entries, KeyMap.sorted_ofList entries⟩

/-- The keys, in order. -/
def keys (s : MemoryStore) : List String :=
  KeyMap.keys s.entries

/-- The number of entities. -/
def size (s : MemoryStore) : Nat :=
  s.entries.length

/-- There are no entities. -/
def isEmpty (s : MemoryStore) : Bool :=
  s.entries.isEmpty

/-- The entity under a key. -/
def get {ε : Type} (s : MemoryStore) (key : String) : Except (StoreError ε) Entity :=
  match KeyMap.get? key s.entries with
  | some e => .ok e
  | none => .error (.notFound key)

/-- The store with an entity put under a key. -/
def put (s : MemoryStore) (key : String) (e : Entity) : MemoryStore :=
  ⟨KeyMap.insert key e s.entries, KeyMap.sorted_insert s.sorted⟩

/-- The store without the entity under a key, which must be there. -/
def delete {ε : Type} (s : MemoryStore) (key : String) : Except (StoreError ε) MemoryStore :=
  match KeyMap.get? key s.entries with
  | some _ => .ok ⟨KeyMap.erase key s.entries, KeyMap.sorted_erase s.sorted⟩
  | none => .error (.notFound key)

/-- The entities that satisfy all filters, in key order. -/
def read (s : MemoryStore) (filters : List Filter) : List Entity :=
  (s.entries.map Prod.snd).filter fun e => filters.all (Filter.holds e)

end MemoryStore

end RecordStore
