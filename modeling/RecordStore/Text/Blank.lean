/-!
# `RecordStore.Text.Blank`: white space

`isBlank` holds of the characters with the Unicode property White_Space, and `trim` removes them
at both ends of a text. The format characters U+200B and U+FEFF, which have no width either, are
not among them.

* `trim_of_not_blank`: a text whose ends are no blanks is its own trimmed form.
* `trim_append`: blanks around such a text are removed.
-/

set_option autoImplicit false

namespace RecordStore.Text

/-- The character has the property White_Space. -/
def isBlank (c : Char) : Bool :=
  let n := c.toNat
  (9 ≤ n && n ≤ 13) || n == 0x20 || n == 0x85 || n == 0xA0 || n == 0x1680 ||
    (0x2000 ≤ n && n ≤ 0x200A) || n == 0x2028 || n == 0x2029 || n == 0x202F ||
    n == 0x205F || n == 0x3000

/-- The text without the blanks at its start. -/
def skipBlanks (s : List Char) : List Char :=
  s.dropWhile isBlank

/-- The text without the blanks at its two ends. -/
def trim (s : List Char) : List Char :=
  (skipBlanks (skipBlanks s).reverse).reverse

/-- Blanks are skipped only where there are some. -/
theorem skipBlanks_of_head {s : List Char} (h : ∀ c, s.head? = some c → isBlank c = false) :
    skipBlanks s = s := by
  cases s with
  | nil => rfl
  | cons c r => simp [skipBlanks, h c rfl]

/-- A text whose ends are no blanks is its own trimmed form. -/
theorem trim_of_not_blank {s : List Char} (hhead : ∀ c, s.head? = some c → isBlank c = false)
    (hlast : ∀ c, s.getLast? = some c → isBlank c = false) : trim s = s := by
  rw [trim, skipBlanks_of_head hhead, skipBlanks_of_head, List.reverse_reverse]
  intro c hc
  exact hlast c (by simpa using hc)

/-- Blanks in front are skipped. -/
theorem skipBlanks_append {before : List Char} (h : ∀ c ∈ before, isBlank c = true)
    (s : List Char) : skipBlanks (before ++ s) = skipBlanks s :=
  List.dropWhile_append_of_pos h

/-- Blanks around a text whose ends are no blanks are removed. -/
theorem trim_append {before s after : List Char} (hbefore : ∀ c ∈ before, isBlank c = true)
    (hafter : ∀ c ∈ after, isBlank c = true) (hne : s ≠ [])
    (hhead : ∀ c, s.head? = some c → isBlank c = false)
    (hlast : ∀ c, s.getLast? = some c → isBlank c = false) :
    trim (before ++ (s ++ after)) = s := by
  have hfront : skipBlanks (before ++ (s ++ after)) = s ++ after := by
    rw [skipBlanks_append hbefore, skipBlanks_of_head]
    intro c hc
    obtain ⟨d, r, rfl⟩ := List.exists_cons_of_ne_nil hne
    exact hhead c hc
  have hback : skipBlanks (s ++ after).reverse = s.reverse := by
    rw [List.reverse_append, skipBlanks_append (by simpa using hafter), skipBlanks_of_head]
    intro c hc
    exact hlast c (by simpa using hc)
  rw [trim, hfront, hback, List.reverse_reverse]

end RecordStore.Text
