import RecordStore.Json.Basic

/-!
# `RecordStore.Proofs.KeyMap`: maps from entries, and maps of other maps

What a look-up finds in a map that was built from a list of entries, in one whose values were
turned into others, and in one from which entries were dropped.

* `get?_eq_none_iff`, `mem_keys_iff`: the keys that are not found, and those that are.
* `mem_insert`, `mem_of_mem_erase`: the entries after a write and after a removal.
* `get?_ofList_append`, `get?_ofList_of_mem`, `get?_ofList_of_not_mem`: the last entry of a key is
  the one that is found.
* `mem_of_mem_ofList`: nothing but the entries gets into a map.
* `get?_mapValues`, `insert_mapValues`, `erase_mapValues`, `ofList_mapValues`: turning values into
  others commutes with every operation.
* `get?_filter`: an entry that is dropped is not found.
* `Json.member?_ofMembers`, `Json.member?_single`: the same for the members of a JSON object.
-/

set_option autoImplicit false

namespace RecordStore.KeyMap

variable {α β : Type}

/-! ### Keys -/

/-- A key that a map does not have is not found, and it is found if the map has it. -/
theorem get?_eq_none_iff {key : String} {m : List (String × α)} :
    get? key m = none ↔ key ∉ keys m := by
  induction m with
  | nil => simp [get?, keys]
  | cons e rest ih =>
    obtain ⟨k, v⟩ := e
    rw [get?, keys, List.map_cons, List.mem_cons, not_or, ← keys, ← ih]
    split
    · rename_i hkey
      simp [hkey]
    · rename_i hkey
      simp [hkey]

/-- A key is one of a map's keys if something is found under it. -/
theorem mem_keys_iff {key : String} {m : List (String × α)} :
    key ∈ keys m ↔ ∃ value, get? key m = some value := by
  rw [← Option.ne_none_iff_exists', Ne, get?_eq_none_iff, Decidable.not_not]

/-! ### Entries -/

/-- What is found is the value of an entry. -/
theorem mem_of_get? {key : String} {value : α} {m : List (String × α)}
    (h : get? key m = some value) : (key, value) ∈ m := by
  induction m with
  | nil => cases h
  | cons e rest ih =>
    obtain ⟨k, v⟩ := e
    rw [get?] at h
    split at h
    · rename_i hkey
      cases h
      rw [hkey]
      exact List.mem_cons_self
    · exact List.mem_cons_of_mem _ (ih h)

/-- In key order, each entry is found. -/
theorem get?_of_mem {e : String × α} {m : List (String × α)} (hm : Sorted m) (h : e ∈ m) :
    get? e.1 m = some e.2 := by
  induction m with
  | nil => cases h
  | cons first rest ih =>
    have hrest := List.pairwise_cons.mp hm
    rcases List.mem_cons.mp h with rfl | h
    · exact if_pos rfl
    · have hlt : first.1 < e.1 := hrest.1 e.1 (List.mem_map_of_mem h)
      have hne : e.1 ≠ first.1 := fun heq => String.lt_irrefl _ (heq ▸ hlt)
      exact (if_neg hne).trans (ih hrest.2 h)

/-- An entry after a write is the new one or was there before. -/
theorem mem_insert {e : String × α} {key : String} {value : α} {m : List (String × α)}
    (h : e ∈ insert key value m) : e = (key, value) ∨ e ∈ m := by
  induction m with
  | nil => exact .inl (List.mem_singleton.mp h)
  | cons e' rest ih =>
    obtain ⟨k, v⟩ := e'
    unfold insert at h
    split at h
    · exact (List.mem_cons.mp h).imp id (List.mem_cons_of_mem _)
    · split at h
      · exact List.mem_cons.mp h
      · rcases List.mem_cons.mp h with h | h
        · exact .inr (h ▸ List.mem_cons_self)
        · exact (ih h).imp id (List.mem_cons_of_mem _)

/-- An entry that is left after a removal was there before. -/
theorem mem_of_mem_erase {e : String × α} {key : String} {m : List (String × α)}
    (h : e ∈ erase key m) : e ∈ m := by
  induction m with
  | nil => exact h
  | cons e' rest ih =>
    obtain ⟨k, v⟩ := e'
    unfold erase at h
    split at h
    · exact List.mem_cons_of_mem _ h
    · rcases List.mem_cons.mp h with h | h
      · exact h ▸ List.mem_cons_self
      · exact List.mem_cons_of_mem _ (ih h)

/-! ### Maps from entries -/

/-- Entries with other keys change nothing under this one. -/
theorem get?_foldl_of_not_mem {key : String} {entries : List (String × α)}
    (h : key ∉ entries.map Prod.fst) (m : List (String × α)) :
    get? key (entries.foldl (fun m e => insert e.1 e.2 m) m) = get? key m := by
  induction entries generalizing m with
  | nil => rfl
  | cons e rest ih =>
    rw [List.map_cons, List.mem_cons, not_or] at h
    rw [List.foldl_cons, ih h.2, get?_insert_of_ne h.1]

/-- A key that no entry has is not found. -/
theorem get?_ofList_of_not_mem {key : String} {entries : List (String × α)}
    (h : key ∉ entries.map Prod.fst) : get? key (ofList entries) = none :=
  get?_foldl_of_not_mem h []

/-- Of the entries of one key the last is found. -/
theorem get?_ofList_append {key : String} (value : α) (before : List (String × α))
    {after : List (String × α)} (h : key ∉ after.map Prod.fst) :
    get? key (ofList (before ++ (key, value) :: after)) = some value := by
  rw [ofList, List.foldl_append, List.foldl_cons, get?_foldl_of_not_mem h, get?_insert_self]

/-- Where the keys are distinct, each entry is found. -/
theorem get?_ofList_of_mem {key : String} {value : α} {entries : List (String × α)}
    (hnodup : (entries.map Prod.fst).Nodup) (h : (key, value) ∈ entries) :
    get? key (ofList entries) = some value := by
  obtain ⟨before, after, rfl⟩ := List.append_of_mem h
  apply get?_ofList_append
  rw [List.map_append, List.map_cons, List.nodup_append] at hnodup
  exact (List.nodup_cons.mp hnodup.2.1).1

/-- Nothing but the entries gets into a map. -/
theorem mem_of_mem_foldl {e : String × α} {entries m : List (String × α)}
    (h : e ∈ entries.foldl (fun m e => insert e.1 e.2 m) m) : e ∈ entries ∨ e ∈ m := by
  induction entries generalizing m with
  | nil => exact .inr h
  | cons first rest ih =>
    rcases ih h with hrest | hm
    · exact .inl (List.mem_cons_of_mem _ hrest)
    · rcases mem_insert hm with rfl | hm
      · exact .inl List.mem_cons_self
      · exact .inr hm

/-- Each entry of a map from entries is one of them. -/
theorem mem_of_mem_ofList {e : String × α} {entries : List (String × α)}
    (h : e ∈ ofList entries) : e ∈ entries :=
  (mem_of_mem_foldl h).resolve_right List.not_mem_nil

/-! ### Other values under the same keys -/

/-- The map with every value turned into another one. -/
def mapValues (f : α → β) (m : List (String × α)) : List (String × β) :=
  m.map fun e => (e.1, f e.2)

/-- A look-up finds what the value was turned into. -/
theorem get?_mapValues (f : α → β) (key : String) (m : List (String × α)) :
    get? key (mapValues f m) = (get? key m).map f := by
  induction m with
  | nil => rfl
  | cons e rest ih =>
    rw [mapValues, List.map_cons, get?, get?]
    split
    · rfl
    · exact ih

/-- A write before or after the values are turned into others is the same. -/
theorem insert_mapValues (f : α → β) (key : String) (value : α) (m : List (String × α)) :
    insert key (f value) (mapValues f m) = mapValues f (insert key value m) := by
  induction m with
  | nil => rfl
  | cons e rest ih =>
    rw [mapValues, List.map_cons, insert, insert]
    split
    · rfl
    · split
      · rfl
      · exact congrArg _ ih

/-- A removal before or after the values are turned into others is the same. -/
theorem erase_mapValues (f : α → β) (key : String) (m : List (String × α)) :
    erase key (mapValues f m) = mapValues f (erase key m) := by
  induction m with
  | nil => rfl
  | cons e rest ih =>
    rw [mapValues, List.map_cons, erase, erase]
    split
    · rfl
    · exact congrArg _ ih

/-- The keys are the same. -/
theorem keys_mapValues (f : α → β) (m : List (String × α)) : keys (mapValues f m) = keys m := by
  rw [keys, mapValues, List.map_map]
  rfl

/-- Entries with other values make a map that the values are turned into others in. -/
theorem foldl_mapValues (f : α → β) (entries m : List (String × α)) :
    (mapValues f entries).foldl (fun m e => insert e.1 e.2 m) (mapValues f m) =
      mapValues f (entries.foldl (fun m e => insert e.1 e.2 m) m) := by
  induction entries generalizing m with
  | nil => rfl
  | cons e rest ih =>
    show (mapValues f rest).foldl _ (insert e.1 (f e.2) (mapValues f m)) = _
    rw [insert_mapValues]
    exact ih (insert e.1 e.2 m)

/-- The values of entries are turned into others before or after a map is made of them. -/
theorem ofList_mapValues (f : α → β) (entries : List (String × α)) :
    ofList (mapValues f entries) = mapValues f (ofList entries) :=
  foldl_mapValues f entries []

/-! ### Dropped entries -/

/-- Entries that are kept stand in key order still. -/
theorem sorted_filter (p : String × α → Bool) {m : List (String × α)} (h : Sorted m) :
    Sorted (m.filter p) :=
  List.Pairwise.sublist (List.Sublist.map _ List.filter_sublist) h

/-- A look-up finds what it found before if the entry is kept. -/
theorem get?_filter (p : α → Bool) (key : String) {m : List (String × α)} (h : Sorted m) :
    get? key (m.filter fun e => p e.2) = (get? key m).filter p := by
  induction m with
  | nil => rfl
  | cons e rest ih =>
    obtain ⟨k, v⟩ := e
    have hk := List.pairwise_cons.mp h
    by_cases hkey : key = k
    · subst hkey
      -- The key has no second entry that could be found once this one is dropped.
      have hrest : get? key rest = none := get?_eq_none_of_le h (String.le_refl _)
      rw [hrest] at ih
      cases hv : p v with
      | true => simp [hv, get?, Option.filter]
      | false => simp [hv, get?, ih hk.2, Option.filter]
    · cases hv : p v with
      | true => simp [hv, get?, hkey, ih hk.2]
      | false => simp [hv, get?, hkey, ih hk.2]

end RecordStore.KeyMap

namespace RecordStore.Json

/-! ### Members of objects -/

/-- What is under a key of an object with distinct keys. -/
theorem member?_ofMembers {members : List (String × Json)} {key : String} {value : Json}
    (hnodup : (members.map Prod.fst).Nodup) (h : (key, value) ∈ members) :
    (ofMembers members).member? key = some value :=
  KeyMap.get?_ofList_of_mem hnodup h

/-- What is under the key of an object with one member. -/
theorem member?_single (key : String) (value : Json) :
    (single key value).member? key = some value := by
  rw [single, member?, KeyMap.get?, if_pos rfl]

/-- An object with one member has nothing under another key. -/
theorem member?_single_of_ne {key other : String} (h : other ≠ key) (value : Json) :
    (single key value).member? other = none := by
  rw [single, member?, KeyMap.get?, if_neg h, KeyMap.get?]

end RecordStore.Json
