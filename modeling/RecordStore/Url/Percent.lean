import RecordStore.Text.Hex

/-!
# `RecordStore.Url.Percent`: percent-encoding

A character that may not stand in some part of a URL is written as the bytes of its UTF-8 form,
each as a percent sign and two upper-case hexadecimal digits. Which characters those are depends
on the part: every part has its set, and all sets hold the controls and what lies beyond the
basic block. Decoding gives back bytes.
-/

set_option autoImplicit false

namespace RecordStore.Url

open RecordStore.Text (hexValue? upperHexDigit)

/-! ### Sets -/

/-- A control, or a character beyond the basic block. -/
def inControlSet (c : Char) : Bool :=
  c.toNat < 0x20 || 0x7E < c.toNat

/-- Not allowed in a fragment. -/
def inFragmentSet (c : Char) : Bool :=
  inControlSet c || c == ' ' || c == '\x22' || c == '<' || c == '>' || c == '\x60'

/-- Not allowed in a query. -/
def inQuerySet (c : Char) : Bool :=
  inControlSet c || c == ' ' || c == '\x22' || c == '#' || c == '<' || c == '>'

/-- Not allowed in the query of a special scheme. -/
def inSpecialQuerySet (c : Char) : Bool :=
  inQuerySet c || c == '\x27'

/-- Not allowed in a path. -/
def inPathSet (c : Char) : Bool :=
  inFragmentSet c || c == '#' || c == '?' || c == '\x7b' || c == '\x7d'

/-- Not allowed in a single segment of a path: neither are separators and the percent sign. -/
def inSegmentSet (c : Char) : Bool :=
  inPathSet c || c == '/' || c == '%'

/-- Not allowed in a single segment of the path of a special scheme. -/
def inSpecialSegmentSet (c : Char) : Bool :=
  inSegmentSet c || c == '\\'

/-- Not allowed in the user information. -/
def inUserInfoSet (c : Char) : Bool :=
  inPathSet c || c == '/' || c == ':' || c == ';' || c == '=' || c == '@' || c == '[' ||
    c == '\\' || c == ']' || c == '^' || c == '|'

/-! ### Encoding -/

/-- A byte as a percent sign and two digits. -/
def percentByte (b : UInt8) : List Char :=
  ['%', upperHexDigit (b.toNat / 16), upperHexDigit (b.toNat % 16)]

/-- A character, encoded if it is in the set. -/
def encodeChar (set : Char → Bool) (c : Char) : List Char :=
  if set c then (String.utf8EncodeChar c).flatMap percentByte else [c]

/-- A text with the characters of the set encoded. -/
def percentEncode (set : Char → Bool) (s : List Char) : List Char :=
  s.flatMap (encodeChar set)

/-! ### Decoding -/

/-- The bytes that a text stands for. A percent sign without two digits behind it stands for
itself. -/
def percentDecode : List Char → List UInt8
  | [] => []
  | '%' :: a :: b :: rest =>
    match hexValue? a, hexValue? b with
    | some high, some low => UInt8.ofNat (high * 16 + low) :: percentDecode rest
    | _, _ => '%'.toUInt8 :: percentDecode (a :: b :: rest)
  | c :: rest => String.utf8EncodeChar c ++ percentDecode rest

end RecordStore.Url
