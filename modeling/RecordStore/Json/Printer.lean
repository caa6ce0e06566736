import RecordStore.Json.Basic
import RecordStore.Binary64.Layout

/-!
# `RecordStore.Json.Printer`: the compact text of a JSON value

No spaces, members in key order, and in strings only the quote, the backslash and the controls of
the basic block are escaped. Doubles have the fewest digits that read back; the exponents of the
leading digit from -5 to 15 are written positionally, and there a whole double ends in `.0`, so
the text shows which of the two kinds of number it came from.
-/

set_option autoImplicit false

namespace RecordStore.Json

/-- How doubles are written in JSON. -/
def floatLayout : Binary64.Layout where
  tie := .toEven
  positional e := decide (-5 ≤ e) && decide (e ≤ 15)
  pointZero := true

/-- One character of a JSON string. -/
def escapeChar (c : Char) : List Char :=
  if c = '\x22' then ['\\', '\x22']
  else if c = '\\' then ['\\', '\\']
  else if c = '\x08' then ['\\', 'b']
  else if c = '\t' then ['\\', 't']
  else if c = '\n' then ['\\', 'n']
  else if c = '\x0c' then ['\\', 'f']
  else if c = '\r' then ['\\', 'r']
  else if c.toNat < 32 then
    ['\\', 'u', '0', '0', (c.toNat / 16).digitChar, (c.toNat % 16).digitChar]
  else [c]

/-- A JSON string. -/
def stringText (s : String) : List Char :=
  '\x22' :: (s.toList.flatMap escapeChar ++ ['\x22'])

/-- The text of a double. -/
def floatText (x : Binary64) : List Char :=
  floatLayout.text x

mutual

/-- The text of a value. -/
def chars : Json → List Char
  | .null => ['n', 'u', 'l', 'l']
  | .bool true => ['t', 'r', 'u', 'e']
  | .bool false => ['f', 'a', 'l', 's', 'e']
  | .int n => Decimal.intDigits n
  | .float x => floatText x
  | .string s => stringText s
  | .array items => '[' :: (itemChars items ++ [']'])
  | .object members => '\x7b' :: (memberChars members ++ ['\x7d'])

/-- The texts of values, with commas between them. -/
def itemChars : List Json → List Char
  | [] => []
  | [j] => chars j
  | j :: k :: rest => chars j ++ ',' :: itemChars (k :: rest)

/-- The texts of members, with commas between them. -/
def memberChars : List (String × Json) → List Char
  | [] => []
  | [(key, j)] => stringText key ++ ':' :: chars j
  | (key, j) :: m :: rest => stringText key ++ ':' :: (chars j ++ ',' :: memberChars (m :: rest))

end

/-- The compact text of a value. -/
def text (j : Json) : String :=
  String.ofList j.chars

end RecordStore.Json
