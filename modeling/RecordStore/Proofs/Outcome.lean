import Mathlib.Data.List.Forall2

/-!
# `RecordStore.Proofs.Outcome`: when an outcome is a success and when an error

* `map_eq_ok_iff`, `bind_eq_ok_iff`: the success of a computation that goes on from another.
* `outcome_iff`, `exists_outcome_iff`: conditions for success and for each error that leave no
  other case decide the outcome.
* `exists_forall₂_iff`, `exists_mem_of_forall₂`: outcomes of several items, one by one.
* `all_or_first`: several items pass, or one of them is the first that does not.
-/

set_option autoImplicit false

namespace RecordStore

/-! ### One outcome -/

/-- What was turned into something else is there if it was there before. -/
theorem map_eq_ok_iff {ε α β : Type} {x : Except ε α} {f : α → β} {b : β} :
    x.map f = .ok b ↔ ∃ a, x = .ok a ∧ f a = b := by
  cases x with
  | error e => simp [Except.map]
  | ok a => simp [Except.map]

/-- A computation in two steps succeeds if both steps do. -/
theorem bind_eq_ok_iff {ε α β : Type} {x : Except ε α} {f : α → Except ε β} {b : β} :
    (x >>= f) = .ok b ↔ ∃ a, x = .ok a ∧ f a = .ok b := by
  cases x with
  | error e => simp [bind, Except.bind]
  | ok a => simp [bind, Except.bind]

/-- If conditions make an outcome a certain success or a certain error each, and one of them is
always met, then the outcome is what it is exactly under its condition. -/
theorem outcome_iff {ε α : Type} {x : Except ε α} {accepted : α → Prop} {refused : ε → Prop}
    (hcases : (∃ a, accepted a) ∨ ∃ e, refused e) (hok : ∀ a, accepted a → x = .ok a)
    (herror : ∀ e, refused e → x = .error e) :
    (∀ a, x = .ok a ↔ accepted a) ∧ ∀ e, x = .error e ↔ refused e := by
  rcases hcases with ⟨a, ha⟩ | ⟨e, he⟩
  · have hx := hok a ha
    refine ⟨fun b => ⟨fun hb => ?_, hok b⟩, fun e => ⟨fun he => ?_, herror e⟩⟩
    · rw [hx] at hb
      cases hb
      exact ha
    · rw [hx] at he
      cases he
  · have hx := herror e he
    refine ⟨fun b => ⟨fun hb => ?_, hok b⟩, fun e' => ⟨fun he' => ?_, herror e'⟩⟩
    · rw [hx] at hb
      cases hb
    · rw [hx] at he'
      cases he'
      exact he

/-- The same where the condition for a success does not say which. -/
theorem exists_outcome_iff {ε α : Type} {x : Except ε α} {accepted : Prop} {refused : ε → Prop}
    (hcases : accepted ∨ ∃ e, refused e) (hok : accepted → ∃ a, x = .ok a)
    (herror : ∀ e, refused e → x = .error e) :
    ((∃ a, x = .ok a) ↔ accepted) ∧ ∀ e, x = .error e ↔ refused e := by
  let succeeds : α → Prop := fun a => accepted ∧ x = .ok a
  have hsucceeds : (∃ a, succeeds a) ∨ ∃ e, refused e := by
    refine hcases.imp (fun h => ?_) id
    obtain ⟨a, ha⟩ := hok h
    exact ⟨a, h, ha⟩
  obtain ⟨hx, hx'⟩ := outcome_iff hsucceeds (fun a h => h.2) herror
  refine ⟨⟨?_, hok⟩, hx'⟩
  rintro ⟨a, ha⟩
  exact ((hx a).mp ha).1

/-! ### Several outcomes -/

/-- Items are related to others one by one if each one is related to some other. -/
theorem exists_forall₂_iff {α β : Type} {R : α → β → Prop} {xs : List α} :
    (∃ ys, List.Forall₂ R xs ys) ↔ ∀ x ∈ xs, ∃ y, R x y := by
  induction xs with
  | nil => exact iff_of_true ⟨[], .nil⟩ nofun
  | cons x rest ih =>
    rw [List.forall_mem_cons, ← ih]
    constructor
    · rintro ⟨ys, h⟩
      obtain ⟨y, ys, hx, hrest, -⟩ := List.forall₂_cons_left_iff.mp h
      exact ⟨⟨y, hx⟩, ys, hrest⟩
    · rintro ⟨⟨y, hx⟩, ys, hrest⟩
      exact ⟨y :: ys, .cons hx hrest⟩

/-- Of two lists that are related one by one, each item of the second is related to one of the
first. -/
theorem exists_mem_of_forall₂ {α β : Type} {R : α → β → Prop} {xs : List α} {ys : List β}
    (h : List.Forall₂ R xs ys) {y : β} (hy : y ∈ ys) : ∃ x ∈ xs, R x y := by
  induction h with
  | nil => cases hy
  | cons hhead _ ih =>
    rcases List.mem_cons.mp hy with rfl | hy
    · exact ⟨_, List.mem_cons_self, hhead⟩
    · obtain ⟨x, hx, hxy⟩ := ih hy
      exact ⟨x, List.mem_cons_of_mem _ hx, hxy⟩

/-- If each item is accepted or refused, all are accepted or one of them is the first that is
refused. -/
theorem all_or_first {α ε : Type} {accepted : α → Prop} {refused : α → ε → Prop} {xs : List α}
    (h : ∀ x ∈ xs, accepted x ∨ ∃ e, refused x e) :
    (∀ x ∈ xs, accepted x) ∨ ∃ before x after e, xs = before ++ x :: after ∧
      (∀ other ∈ before, accepted other) ∧ refused x e := by
  induction xs with
  | nil => exact .inl nofun
  | cons first rest ih =>
    obtain ⟨hfirst, hrest⟩ := List.forall_mem_cons.mp h
    rcases hfirst with hfirst | ⟨e, he⟩
    · rcases ih hrest with hall | ⟨before, x, after, e, rfl, hbefore, hx⟩
      · exact .inl (List.forall_mem_cons.mpr ⟨hfirst, hall⟩)
      · exact .inr ⟨first :: before, x, after, e, rfl,
          List.forall_mem_cons.mpr ⟨hfirst, hbefore⟩, hx⟩
    · exact .inr ⟨[], first, rest, e, rfl, nofun, he⟩

end RecordStore
