/-!
# `RecordStore.KeyMap`: maps with text keys, kept in key order

A map is the list of its entries in strictly increasing key order, so two maps with the same
content are the same list, and whoever lists the keys lists them in order. The order of keys is
the order of their code points, which is also the order of their UTF-8 bytes.

* `get?_insert_self`, `get?_insert_of_ne`: what a write does to a look-up.
* `get?_erase_self`, `get?_erase_of_ne`: what a removal does to a look-up.
* `sorted_insert`, `sorted_erase`, `sorted_ofList`: every operation keeps the key order.
* `eq_of_get?`: maps with the same look-ups are the same list.
-/

set_option autoImplicit false

namespace RecordStore.KeyMap

variable {α : Type}

/-- The value held under `key`. -/
def get? (key : String) : List (String × α) → Option α
  | [] => none
  | (k, v) :: rest => if key = k then some v else get? key rest

/-- Put `value` under `key`, in place of what stood there. -/
def insert (key : String) (value : α) : List (String × α) → List (String × α)
  | [] => [(key, value)]
  | (k, v) :: rest =>
    if key = k then (key, value) :: rest
    else if key < k then (key, value) :: (k, v) :: rest
    else (k, v) :: insert key value rest

/-- Remove what stands under `key`. -/
def erase (key : String) : List (String × α) → List (String × α)
  | [] => []
  | (k, v) :: rest => if key = k then rest else (k, v) :: erase key rest

/-- The map that holds the last value given for each key. -/
def ofList (entries : List (String × α)) : List (String × α) :=
  entries.foldl (fun m e => insert e.1 e.2 m) []

/-- The keys, in order. -/
def keys (m : List (String × α)) : List String :=
  m.map Prod.fst

/-- The entries stand in strictly increasing key order. -/
def Sorted (m : List (String × α)) : Prop :=
  (keys m).Pairwise (· < ·)

/-! ### Look-ups -/

/-- A written value is found. -/
theorem get?_insert_self (key : String) (value : α) (m : List (String × α)) :
    get? key (insert key value m) = some value := by
  induction m with
  | nil => simp [insert, get?]
  | cons e rest ih =>
    obtain ⟨k, v⟩ := e
    unfold insert
    split
    · simp [get?]
    · split
      · simp [get?]
      · -- The write goes further down, past an entry with another key.
        rename_i hne _
        simp [get?, hne, ih]

/-- A write leaves every other key as it was. -/
theorem get?_insert_of_ne {key other : String} (h : other ≠ key) (value : α)
    (m : List (String × α)) : get? other (insert key value m) = get? other m := by
  induction m with
  | nil => simp [insert, get?, h]
  | cons e rest ih =>
    obtain ⟨k, v⟩ := e
    unfold insert
    split
    · rename_i hk
      subst hk
      simp [get?, h]
    · split
      · simp [get?, h]
      · simp [get?, ih]

/-! ### Order -/

/-- Every key of a map after a write is the new one or was there before. -/
theorem mem_keys_insert {key k : String} {value : α} {m : List (String × α)}
    (h : k ∈ keys (insert key value m)) : k = key ∨ k ∈ keys m := by
  induction m with
  | nil => simpa [insert, keys] using h
  | cons e rest ih =>
    obtain ⟨k', v⟩ := e
    unfold insert at h
    split at h
    · rename_i hk
      subst hk
      simpa [keys] using h
    · split at h
      · simpa [keys] using h
      · simp only [keys, List.map_cons, List.mem_cons] at h ih ⊢
        rcases h with h | h
        · exact Or.inr (Or.inl h)
        · rcases ih h with h | h
          · exact Or.inl h
          · exact Or.inr (Or.inr h)

/-- Every key that is left after a removal was there before. -/
theorem mem_keys_of_mem_erase {key k : String} {m : List (String × α)}
    (h : k ∈ keys (erase key m)) : k ∈ keys m := by
  induction m with
  | nil => simpa [erase] using h
  | cons e rest ih =>
    obtain ⟨k', v⟩ := e
    unfold erase at h
    split at h
    · exact List.mem_cons_of_mem _ h
    · simp only [keys, List.map_cons, List.mem_cons] at h ih ⊢
      exact h.imp id ih

/-- The map without entries is in key order. -/
theorem sorted_nil : Sorted ([] : List (String × α)) :=
  List.Pairwise.nil

/-- A write keeps the key order. -/
theorem sorted_insert {key : String} {value : α} {m : List (String × α)} (h : Sorted m) :
    Sorted (insert key value m) := by
  induction m with
  | nil => simp [insert, Sorted, keys]
  | cons e rest ih =>
    obtain ⟨k, v⟩ := e
    have hk := List.pairwise_cons.mp h
    unfold insert
    split
    · rename_i heq
      subst heq
      exact h
    · split
      · rename_i hlt
        refine List.pairwise_cons.mpr ⟨fun k' hk' => ?_, h⟩
        rcases List.mem_cons.mp hk' with rfl | hk'
        · exact hlt
        · exact String.lt_trans hlt (hk.1 k' hk')
      · -- Neither equal nor smaller, the new key comes after this one.
        rename_i hne hnlt
        refine List.pairwise_cons.mpr ⟨fun k' hk' => ?_, ih hk.2⟩
        rcases mem_keys_insert hk' with rfl | hk'
        · exact Decidable.byContradiction fun hn =>
            hne (String.le_antisymm (String.not_lt.mp hn) (String.not_lt.mp hnlt))
        · exact hk.1 k' hk'

/-- A removal keeps the key order. -/
theorem sorted_erase {key : String} {m : List (String × α)} (h : Sorted m) :
    Sorted (erase key m) := by
  induction m with
  | nil => exact h
  | cons e rest ih =>
    obtain ⟨k, v⟩ := e
    have hk := List.pairwise_cons.mp h
    unfold erase
    split
    · exact hk.2
    · exact List.pairwise_cons.mpr ⟨fun k' hk' => hk.1 k' (mem_keys_of_mem_erase hk'), ih hk.2⟩

/-- A map built from any list of entries is in key order. -/
theorem sorted_ofList (entries : List (String × α)) : Sorted (ofList entries) := by
  suffices h : ∀ m : List (String × α), Sorted m →
      Sorted (entries.foldl (fun m e => insert e.1 e.2 m) m) from
    h [] sorted_nil
  induction entries with
  | nil => exact fun m h => h
  | cons e rest ih => exact fun m h => ih _ (sorted_insert h)

/-! ### Removal -/

/-- A key smaller than all keys of a map is not in it. -/
theorem get?_eq_none_of_lt {key : String} {m : List (String × α)}
    (h : ∀ k ∈ keys m, key < k) : get? key m = none := by
  induction m with
  | nil => rfl
  | cons e rest ih =>
    obtain ⟨k, v⟩ := e
    have hlt : key < k := h k (by simp [keys])
    have hne : key ≠ k := fun heq => String.lt_irrefl k (heq ▸ hlt)
    simp only [get?, if_neg hne]
    exact ih fun k' hk' => h k' (List.mem_cons_of_mem _ hk')

/-- A removed key is gone. -/
theorem get?_erase_self {key : String} {m : List (String × α)} (h : Sorted m) :
    get? key (erase key m) = none := by
  induction m with
  | nil => rfl
  | cons e rest ih =>
    obtain ⟨k, v⟩ := e
    have hk := List.pairwise_cons.mp h
    unfold erase
    split
    · -- What is left has larger keys only.
      rename_i heq
      subst heq
      exact get?_eq_none_of_lt hk.1
    · rename_i hne
      simp only [get?, if_neg hne]
      exact ih hk.2

/-- A removal leaves every other key as it was. -/
theorem get?_erase_of_ne {key other : String} (h : other ≠ key) (m : List (String × α)) :
    get? other (erase key m) = get? other m := by
  induction m with
  | nil => rfl
  | cons e rest ih =>
    obtain ⟨k, v⟩ := e
    unfold erase
    split
    · rename_i hk
      subst hk
      simp [get?, h]
    · simp [get?, ih]

/-! ### Content -/

/-- Behind its first entry a map has no key that is the first one or smaller. -/
theorem get?_eq_none_of_le {key k : String} {v : α} {rest : List (String × α)}
    (h : Sorted ((k, v) :: rest)) (hle : key ≤ k) : get? key rest = none := by
  refine get?_eq_none_of_lt fun k' hk' => ?_
  have hlt : k < k' := (List.pairwise_cons.mp h).1 k' hk'
  exact String.not_le.mp fun hge => String.not_le.mpr hlt (String.le_trans hge hle)

/-- Maps with the same look-ups are the same list. -/
theorem eq_of_get? {m n : List (String × α)} (hm : Sorted m) (hn : Sorted n)
    (h : ∀ key, get? key m = get? key n) : m = n := by
  induction m generalizing n with
  | nil =>
    cases n with
    | nil => rfl
    | cons e rest =>
      have := h e.1
      simp [get?] at this
  | cons e rest ih =>
    obtain ⟨k, v⟩ := e
    cases n with
    | nil =>
      have := h k
      simp [get?] at this
    | cons e' rest' =>
      obtain ⟨l, w⟩ := e'
      -- The smaller of two first keys would be missing on the other side.
      have hkl : k = l := by
        refine Decidable.byContradiction fun hne => ?_
        have hk := h k
        have hl := h l
        simp only [get?, if_neg hne, if_neg (Ne.symm hne), if_true] at hk hl
        rcases Decidable.em (k < l) with hlt | hnlt
        · rw [get?_eq_none_of_le hn (String.not_lt.mp (String.lt_asymm hlt))] at hk
          cases hk
        · rw [get?_eq_none_of_le hm (String.not_lt.mp hnlt)] at hl
          cases hl
      subst hkl
      have hv := h k
      simp only [get?, if_true, Option.some.injEq] at hv
      subst hv
      refine congrArg _ (ih (List.pairwise_cons.mp hm).2 (List.pairwise_cons.mp hn).2 fun key => ?_)
      by_cases hkey : key = k
      · subst hkey
        rw [get?_eq_none_of_le hm (String.le_refl _), get?_eq_none_of_le hn (String.le_refl _)]
      · have := h key
        simpa only [get?, if_neg hkey] using this

end RecordStore.KeyMap
