import RecordStore.Proofs.Outcome
import RecordStore.Proofs.Value.Typed

/-!
# `RecordStore.Proofs.Value.Extraction`: which values are read as a type

A shape asks for a number of lists around each scalar and for the type of the scalars. Whether a
value is as asked can be told from what stands in it and under how many lists, so it is said here
without the recursion of the reader: `HoldsAt` walks down one branch, and `IsShaped` is about all
branches. An empty list ends its branch, and only its own depth counts.

* `isShaped_list_iff`: a list is of a list's shape if its items are of the shape of its items.
* `isShaped_or_misfits`: a value that is not as asked has a first place where it is not.
* `extract_inverts_ofTyped`: extraction is the inverse of `ofTyped`, and it fails on all other
  values, with what stands at the first misfit.
-/

set_option autoImplicit false

namespace RecordStore

/-! ### What a shape asks for -/

/-- How many lists stand around each scalar. -/
def Shape.depth : Shape → Nat
  | .scalar _ => 0
  | .list items => items.depth + 1

/-- The type of the scalars. -/
def Shape.element : Shape → ScalarType
  | .scalar t => t
  | .list items => items.element

namespace Value

/-- The third value stands in the first one, under that many lists. -/
inductive HoldsAt : Value → Nat → Value → Prop where
  | self (v : Value) : HoldsAt v 0 v
  | item {items : List Value} {item part : Value} {n : Nat} (hitem : item ∈ items)
      (hpart : HoldsAt item n part) : HoldsAt (.list items) (n + 1) part

/-- The value has the depth of the shape on every branch and the shape's scalars at the ends:

- `lists`: a list stands where the shape has one;
- `scalars`: a scalar stands under all lists of the shape and is of its type. -/
structure IsShaped (s : Shape) (v : Value) : Prop where
  lists : ∀ n items, v.HoldsAt n (.list items) → n < s.depth
  scalars : ∀ n part t, v.HoldsAt n part → part.scalarType? = some t →
    n = s.depth ∧ t = s.element

/-- The value is not of the shape, and the mismatch names what stands at the first place that is
to blame. -/
inductive Misfits : Shape → Value → Mismatch → Prop where
  | scalar {t : ScalarType} {v : Value} (h : v.scalarType? ≠ some t) :
      Misfits (.scalar t) v (.wrongKind t.name v)
  | noList {s : Shape} {v : Value} (h : v.items? = none) :
      Misfits (.list s) v (.wrongKind "list" v)
  | item {s : Shape} {before after : List Value} {v : Value} {cause : Mismatch}
      (hbefore : ∀ other ∈ before, IsShaped s other) (hv : Misfits s v cause) :
      Misfits (.list s) (.list (before ++ v :: after)) cause

/-! ### The shape of a value by the recursion over shapes -/

/-- Under no list stands only the value itself. -/
theorem holdsAt_zero_iff {v part : Value} : v.HoldsAt 0 part ↔ part = v := by
  constructor
  · intro h
    cases h
    rfl
  · rintro rfl
    exact .self _

/-- What stands under a list stands in one of its items. -/
theorem list_holdsAt_succ_iff {items : List Value} {part : Value} {n : Nat} :
    (list items).HoldsAt (n + 1) part ↔ ∃ item ∈ items, item.HoldsAt n part := by
  constructor
  · rintro (_ | ⟨hitem, hpart⟩)
    exact ⟨_, hitem, hpart⟩
  · rintro ⟨item, hitem, hpart⟩
    exact .item hitem hpart

/-- In a scalar stands nothing else. -/
theorem eq_of_holdsAt_of_scalarType? {v part : Value} {n : Nat} {t : ScalarType}
    (ht : v.scalarType? = some t) (h : v.HoldsAt n part) : n = 0 ∧ part = v := by
  cases h with
  | self => exact ⟨rfl, rfl⟩
  | item => cases ht

/-- A value is of a scalar's shape if it is a scalar of that type. -/
theorem isShaped_scalar_iff {t : ScalarType} {v : Value} :
    IsShaped (.scalar t) v ↔ v.scalarType? = some t := by
  constructor
  · intro h
    cases ht : v.scalarType? with
    | none =>
      -- A list stands under no list, which is not fewer than the shape has.
      obtain ⟨items, rfl⟩ : ∃ items, v = .list items := by
        cases v with
        | list items => exact ⟨items, rfl⟩
        | string | integer | float | boolean | dateTime => cases ht
      exact absurd (h.lists 0 items (.self _)) (Nat.not_lt_zero 0)
    | some t' => exact congrArg some (h.scalars 0 v t' (.self v) ht).2
  · intro ht
    constructor
    · intro n items hlist
      obtain ⟨-, rfl⟩ := eq_of_holdsAt_of_scalarType? ht hlist
      cases ht
    · intro n part t' hpart ht'
      obtain ⟨rfl, rfl⟩ := eq_of_holdsAt_of_scalarType? ht hpart
      rw [ht] at ht'
      exact ⟨rfl, (Option.some.inj ht').symm⟩

/-- A list is of a list's shape if its items are of the shape of its items. -/
theorem isShaped_list_iff {s : Shape} {items : List Value} :
    IsShaped (.list s) (.list items) ↔ ∀ item ∈ items, IsShaped s item := by
  constructor
  · -- What stands in an item stands in the list under one more list.
    intro h item hitem
    constructor
    · intro n parts hlist
      exact Nat.lt_of_succ_lt_succ (h.lists (n + 1) parts (.item hitem hlist))
    · intro n part t hpart ht
      obtain ⟨hdepth, helement⟩ := h.scalars (n + 1) part t (.item hitem hpart) ht
      exact ⟨Nat.succ.inj hdepth, helement⟩
  · intro h
    constructor
    · intro n parts hlist
      cases n with
      | zero => exact Nat.succ_pos s.depth
      | succ n =>
        obtain ⟨item, hitem, hlist⟩ := list_holdsAt_succ_iff.mp hlist
        exact Nat.succ_lt_succ ((h item hitem).lists n parts hlist)
    · intro n part t hpart ht
      cases n with
      | zero =>
        obtain rfl := holdsAt_zero_iff.mp hpart
        cases ht
      | succ n =>
        obtain ⟨item, hitem, hpart⟩ := list_holdsAt_succ_iff.mp hpart
        obtain ⟨hdepth, helement⟩ := (h item hitem).scalars n part t hpart ht
        exact ⟨congrArg Nat.succ hdepth, helement⟩

/-- Only a list is of a list's shape. -/
theorem exists_items_of_isShaped_list {s : Shape} {v : Value} (h : IsShaped (.list s) v) :
    ∃ items, v = .list items := by
  cases v with
  | list items => exact ⟨items, rfl⟩
  | string | integer | float | boolean | dateTime =>
    -- A scalar that is the whole value stands under no list.
    exact absurd (h.scalars 0 _ _ (.self _) rfl).1 (Nat.succ_ne_zero s.depth).symm

/-- A value is of the shape, or there is a first place that is to blame. -/
theorem isShaped_or_misfits (s : Shape) (v : Value) :
    IsShaped s v ∨ ∃ cause, Misfits s v cause := by
  induction s generalizing v with
  | scalar t =>
    by_cases ht : v.scalarType? = some t
    · exact .inl (isShaped_scalar_iff.mpr ht)
    · exact .inr ⟨_, .scalar ht⟩
  | list s ih =>
    cases v with
    | list items =>
      rcases all_or_first fun item (_ : item ∈ items) => ih item with
        hall | ⟨before, item, after, cause, rfl, hbefore, hitem⟩
      · exact .inl (isShaped_list_iff.mpr hall)
      · exact .inr ⟨cause, .item hbefore hitem⟩
    | string | integer | float | boolean | dateTime => exact .inr ⟨_, .noList rfl⟩

/-! ### Extraction -/

/-- Items that can each be read are read. -/
theorem exists_extractItems {α : Type} {read : Value → Except Mismatch α} {vs : List Value}
    (h : ∀ v ∈ vs, ∃ x, read v = .ok x) : ∃ xs, extractItems read vs = .ok xs := by
  induction vs with
  | nil => exact ⟨[], rfl⟩
  | cons v vs ih =>
    obtain ⟨⟨x, hx⟩, hrest⟩ := List.forall_mem_cons.mp h
    obtain ⟨xs, hxs⟩ := ih hrest
    exact ⟨x :: xs, by rw [extractItems, hx, hxs]⟩

/-- The first item that cannot be read decides the error. -/
theorem extractItems_eq_error {α : Type} {read : Value → Except Mismatch α}
    {before after : List Value} {v : Value} {cause : Mismatch}
    (hbefore : ∀ other ∈ before, ∃ x, read other = .ok x) (hv : read v = .error cause) :
    extractItems read (before ++ v :: after) = .error cause := by
  induction before with
  | nil => rw [List.nil_append, extractItems, hv]
  | cons first before ih =>
    obtain ⟨⟨x, hx⟩, hrest⟩ := List.forall_mem_cons.mp hbefore
    rw [List.cons_append, extractItems, hx, ih hrest]

/-- A value of the shape is read. -/
theorem exists_extract_of_isShaped {s : Shape} {v : Value} (h : IsShaped s v) :
    ∃ x, extract s v = .ok x := by
  -- The induction is on the shape, for any value: the items are others than the list.
  induction s generalizing v with
  | scalar t =>
    have ht := isShaped_scalar_iff.mp h
    cases v <;> cases ht <;> exact ⟨_, rfl⟩
  | list s ih =>
    obtain ⟨items, rfl⟩ := exists_items_of_isShaped_list h
    have hitems := isShaped_list_iff.mp h
    exact exists_extractItems fun item hitem => ih (hitems item hitem)

/-- A value that is not of the shape is refused at its first misfit. -/
theorem extract_of_misfits {s : Shape} {v : Value} {cause : Mismatch} (h : Misfits s v cause) :
    extract s v = .error cause := by
  -- The induction goes down to the item that is to blame; all before it are read on the way.
  induction h with
  | @scalar t v h => cases t <;> cases v <;> first | rfl | exact absurd rfl h
  | @noList s v h =>
    cases v with
    | list => cases h
    | string | integer | float | boolean | dateTime => rfl
  | item hbefore _ ih =>
    exact extractItems_eq_error (fun other h => exists_extract_of_isShaped (hbefore other h)) ih

/-- A mismatch of shapes names a value of another kind than the one that is read there. -/
theorem eq_wrongKind_of_misfits {s : Shape} {v : Value} {cause : Mismatch}
    (h : Misfits s v cause) : ∃ expected found, cause = .wrongKind expected found := by
  induction h with
  | scalar => exact ⟨_, _, rfl⟩
  | noList => exact ⟨_, _, rfl⟩
  | item _ _ ih => exact ih

/-- Extraction is the inverse of `ofTyped` in both directions. It succeeds on the values that have
the depth of the shape on every branch and the shape's scalars at the ends, and on all others it
fails with a mismatch that names what stands at the first misfit. -/
theorem extract_inverts_ofTyped (s : Shape) (v : Value) :
    (∀ x, extract s (ofTyped s x) = .ok x) ∧
    (∀ x, extract s v = .ok x ↔ ofTyped s x = v) ∧
    ((∃ x, extract s v = .ok x) ↔ IsShaped s v) ∧
    ((∃ expected found, extract s v = .error (.wrongKind expected found)) ↔ ¬IsShaped s v) ∧
    (∀ cause, extract s v = .error cause ↔ Misfits s v cause) := by
  obtain ⟨hok, herror⟩ := exists_outcome_iff (isShaped_or_misfits s v)
    exists_extract_of_isShaped fun _ => extract_of_misfits
  refine ⟨extract_ofTyped s, ?_, hok, ?_, herror⟩
  · intro x
    constructor
    · exact ofTyped_of_extract
    · rintro rfl
      exact extract_ofTyped s x
  · rw [← hok]
    constructor
    · rintro ⟨expected, found, hrefused⟩ ⟨x, hread⟩
      rw [hrefused] at hread
      cases hread
    · intro hnone
      rcases isShaped_or_misfits s v with hshaped | ⟨cause, hcause⟩
      · exact absurd (exists_extract_of_isShaped hshaped) hnone
      · obtain ⟨expected, found, rfl⟩ := eq_wrongKind_of_misfits hcause
        exact ⟨expected, found, extract_of_misfits hcause⟩

end Value

end RecordStore
