import RecordStore.Text.Invisible

/-!
# `RecordStore.Text.Quoted`: texts in double quotes for a reader

A quoted text stands between double quotes. The quote, the backslash and the common controls are
written with a backslash and a letter, every other invisible character as its code point in
braces, and all else as it is. The single quote is left alone.
-/

set_option autoImplicit false

namespace RecordStore.Text

/-- The code point of `c` in lower-case hexadecimal digits, with no leading zero. -/
def codePoint (c : Char) : List Char :=
  Nat.toDigits 16 c.toNat

/-- One character of a quoted text. -/
def quoteChar (c : Char) : List Char :=
  if c = '\x00' then ['\\', '0']
  else if c = '\t' then ['\\', 't']
  else if c = '\r' then ['\\', 'r']
  else if c = '\n' then ['\\', 'n']
  else if c = '\x22' then ['\\', '\x22']
  else if c = '\\' then ['\\', '\\']
  else if isInvisible c then ['\\', 'u', '\x7b'] ++ codePoint c ++ ['\x7d']
  else [c]

/-- The characters between the quotes. -/
def quoteList (s : List Char) : List Char :=
  s.flatMap quoteChar

/-- `s` in double quotes. -/
def quoted (s : String) : String :=
  "\"" ++ String.ofList (quoteList s.toList) ++ "\""

end RecordStore.Text
