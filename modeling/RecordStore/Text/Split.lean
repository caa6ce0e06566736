/-!
# `RecordStore.Text.Split`: texts cut at separators

`splitOn` cuts a text at every separator; between two neighbouring separators stands an empty
piece, so there is always one piece more than there are separators.

* `splitOn_ne_nil`: there is at least one piece.
* `splitOn_of_none`: a text without separators is one piece.
* `splitOn_append`: the pieces before a separator and those behind it.
* `length_splitOn`: how many pieces there are.
* `getLast?_splitOn_concat`: a text that does not end in a separator has a last piece.
-/

set_option autoImplicit false

namespace RecordStore.Text

/-- The pieces of a text between the characters that satisfy `p`. -/
def splitOn (p : Char → Bool) : List Char → List (List Char)
  | [] => [[]]
  | c :: rest =>
    if p c then [] :: splitOn p rest
    else
      match splitOn p rest with
      | [] => [[c]]
      | piece :: pieces => (c :: piece) :: pieces

/-- There is at least one piece. -/
theorem splitOn_ne_nil (p : Char → Bool) (s : List Char) : splitOn p s ≠ [] := by
  cases s with
  | nil => simp [splitOn]
  | cons c rest =>
    unfold splitOn
    split
    · simp
    · split <;> simp

/-- A text without separators is one piece. -/
theorem splitOn_of_none {p : Char → Bool} {s : List Char} (h : ∀ c ∈ s, p c = false) :
    splitOn p s = [s] := by
  induction s with
  | nil => rfl
  | cons c rest ih =>
    have hrest := ih fun d hd => h d (List.mem_cons_of_mem _ hd)
    simp [splitOn, h c List.mem_cons_self, hrest]

/-- The pieces of a text are those before a separator in it and those behind it. -/
theorem splitOn_append {p : Char → Bool} {c : Char} (h : p c = true) (s t : List Char) :
    splitOn p (s ++ c :: t) = splitOn p s ++ splitOn p t := by
  induction s with
  | nil => simp [splitOn, h]
  | cons d rest ih =>
    rw [List.cons_append, splitOn, splitOn, ih]
    cases hrest : splitOn p rest with
    | nil => exact absurd hrest (splitOn_ne_nil p rest)
    | cons piece pieces => split <;> rfl

/-- There is one piece more than there are separators. -/
theorem length_splitOn (p : Char → Bool) (s : List Char) :
    (splitOn p s).length = s.countP p + 1 := by
  induction s with
  | nil => rfl
  | cons c rest ih =>
    rw [splitOn, List.countP_cons]
    split
    · rw [List.length_cons, ih]
    · cases hrest : splitOn p rest with
      | nil => exact absurd hrest (splitOn_ne_nil p rest)
      | cons piece pieces =>
        rw [hrest] at ih
        simpa using ih

/-- The last piece of a text that does not end in a separator is not empty. -/
theorem getLast?_splitOn_concat {p : Char → Bool} {c : Char} (h : p c = false) (s : List Char) :
    (splitOn p (s ++ [c])).getLast? ≠ some [] := by
  induction s with
  | nil => simp [splitOn, h]
  | cons d rest ih =>
    rw [List.cons_append, splitOn]
    cases hrest : splitOn p (rest ++ [c]) with
    | nil => exact absurd hrest (splitOn_ne_nil p _)
    | cons piece pieces =>
      rw [hrest] at ih
      split
      · rwa [List.getLast?_cons_cons]
      · cases pieces with
        | nil => simp
        | cons next pieces => rwa [List.getLast?_cons_cons] at ih ⊢

end RecordStore.Text
