import RecordStore.Text.Invisible
import RecordStore.Text.Split
import RecordStore.Url.Percent
import RecordStore.Url.Punycode

/-!
# `RecordStore.Url.Domain`: domains

A domain is read in lower case and without the characters that only guide how a text is laid out.
Its labels stand between points. A label beyond the basic block may not start with a mark, nor hold
a character that is not shown or that stands for a text with a forbidden character. A label in the
basic form of a foreign one must be that form of a label that is read as it is.
-/

set_option autoImplicit false

namespace RecordStore.Url

open RecordStore.Text

/-! ### Characters -/

/-- A character of the basic block that may not stand in a domain. -/
def isForbiddenInDomain (c : Char) : Bool :=
  c.toNat ≤ 0x20 || c.toNat == 0x7F ||
    ['%', '#', '/', ':', '<', '>', '?', '@', '[', '\\', ']', '^', '|'].contains c

/-- Characters that a domain is read without. -/
def ignored : List (Nat × Nat) :=
  [ (0xAD, 0xAD), (0x34F, 0x34F), (0x180B, 0x180D), (0x180F, 0x180F), (0x200B, 0x200B),
    (0x2060, 0x2060), (0x2064, 0x2064), (0xFE00, 0xFE0F), (0xFEFF, 0xFEFF),
    (0x1BCA0, 0x1BCA3), (0xE0100, 0xE01EF) ]

/-- Characters that stand for a text with a forbidden character in it: a space with a mark on it, a
fraction of letters with a slash, a wide form of a forbidden sign. -/
def spoiled : List (Nat × Nat) :=
  [ (0xA0, 0xA0), (0xA8, 0xA8), (0xAF, 0xAF), (0xB4, 0xB4), (0xB8, 0xB8), (0x2D8, 0x2DD),
    (0x37A, 0x37A), (0x384, 0x385), (0x1FBD, 0x1FBD), (0x1FBF, 0x1FC1), (0x1FCD, 0x1FCF),
    (0x1FDD, 0x1FDF), (0x1FED, 0x1FEE), (0x1FFD, 0x1FFE), (0x2000, 0x200A),
    (0x2017, 0x2017), (0x202F, 0x202F), (0x203E, 0x203E), (0x2047, 0x2049),
    (0x205F, 0x205F), (0x2100, 0x2101), (0x2105, 0x2106), (0x2A74, 0x2A74),
    (0x3000, 0x3000), (0x309B, 0x309C), (0xFC5E, 0xFC63), (0xFDFA, 0xFDFB),
    (0xFE13, 0xFE13), (0xFE16, 0xFE16), (0xFE47, 0xFE4C), (0xFE55, 0xFE56),
    (0xFE5F, 0xFE5F), (0xFE64, 0xFE65), (0xFE68, 0xFE68), (0xFE6A, 0xFE6B),
    (0xFE70, 0xFE70), (0xFE72, 0xFE72), (0xFE74, 0xFE74), (0xFE76, 0xFE76),
    (0xFE78, 0xFE78), (0xFE7A, 0xFE7A), (0xFE7C, 0xFE7C), (0xFE7E, 0xFE7E),
    (0xFF03, 0xFF03), (0xFF05, 0xFF05), (0xFF0F, 0xFF0F), (0xFF1A, 0xFF1A),
    (0xFF1C, 0xFF1C), (0xFF1E, 0xFF20), (0xFF3B, 0xFF3E), (0xFF5C, 0xFF5C),
    (0xFFE3, 0xFFE3) ]

/-- Characters that describe other characters or stand in for them. -/
def standIns : List (Nat × Nat) :=
  [ (0x2FF0, 0x2FFF), (0xFFFC, 0xFFFD) ]

/-- A character that a domain is read without. -/
def isIgnoredInDomain (c : Char) : Bool :=
  inRanges c.toNat ignored

/-- What a character of a domain is read as: wide forms are basic characters, and an ideographic
full stop is a point. -/
def domainChar (c : Char) : Char :=
  let n := c.toNat
  if 0xFF01 ≤ n && n ≤ 0xFF5E then (Char.ofNat (n - 0xFEE0)).toLower
  else if n == 0x3002 || n == 0xFF61 then '.'
  else c.toLower

/-- A character that a domain is read with as it is. -/
def isSettled (c : Char) : Bool :=
  !isIgnoredInDomain c && domainChar c == c

/-! ### Labels -/

/-- A character that may stand in a label beyond the basic block. -/
def isForeignChar (c : Char) : Bool :=
  let n := c.toNat
  !inRanges n unprinted && !inRanges n spoiled && !inRanges n standIns

/-- A label beyond the basic block that may stand in a domain. -/
def isForeignLabel (s : List Char) : Bool :=
  s.all isForeignChar && !(s.head?.map fun c => inRanges c.toNat combining).getD false

/-- A label that may stand in a domain. -/
def isLabel (s : List Char) : Bool :=
  match s with
  | 'x' :: 'n' :: '-' :: '-' :: rest =>
    s.all (fun c => c.toNat < 128) &&
      match Punycode.decode? rest with
      | some decoded =>
        decoded.any (fun c => 128 ≤ c.toNat) && decoded.all isSettled && isForeignLabel decoded
      | none => false
  | s => s.all (fun c => c.toNat < 128) || isForeignLabel s

/-- The domain that a text is: percent-encoded bytes are decoded first. -/
def domain? (s : List Char) : Option (List Char) := do
  let decoded ← String.fromUTF8? ⟨(percentDecode s).toArray⟩
  let read := (decoded.toList.filter fun c => !isIgnoredInDomain c).map domainChar
  if read.any isForbiddenInDomain || !(splitOn (· == '.') read).all isLabel then none
  else some read

end RecordStore.Url
