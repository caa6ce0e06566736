/-!
# `RecordStore.Text.Mark`: the mark in front of a text

A text may start with the mark U+FEFF, which says how it is encoded and is no part of it. Only one
mark is taken away.
-/

set_option autoImplicit false

namespace RecordStore.Text

/-- The text without the mark that may stand in front of it. -/
def withoutMark : List Char → List Char
  | [] => []
  | c :: rest => if c = '\uFEFF' then rest else c :: rest

end RecordStore.Text
