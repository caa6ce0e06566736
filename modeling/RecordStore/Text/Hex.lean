/-!
# `RecordStore.Text.Hex`: hexadecimal digits

Digits beyond nine are letters. Both cases are read; what is written is upper case here.

* `hexValue?_upperHexDigit`: a written digit reads back.
-/

set_option autoImplicit false

namespace RecordStore.Text

/-- The value of a hexadecimal digit. -/
def hexValue? (c : Char) : Option Nat :=
  if c.isDigit then some (c.toNat - '0'.toNat)
  else if 'a' ≤ c && c ≤ 'f' then some (c.toNat - 'a'.toNat + 10)
  else if 'A' ≤ c && c ≤ 'F' then some (c.toNat - 'A'.toNat + 10)
  else none

/-- An upper-case hexadecimal digit. -/
def upperHexDigit (n : Nat) : Char :=
  (n.digitChar).toUpper

/-- A written digit reads back. -/
theorem hexValue?_upperHexDigit : ∀ n < 16, hexValue? (upperHexDigit n) = some n := by
  decide

end RecordStore.Text
