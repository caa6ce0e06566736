import RecordStore.Json.Basic
import RecordStore.Decimal.Numeral
import RecordStore.Text.Hex

/-!
# `RecordStore.Json.Token`: the lexemes of JSON

A JSON text is read in two steps: `Token.ofText?` cuts it into brackets, separators, strings and
the values that are one word, and `Json.ofTokens?` builds a value from them. Both walk their
input once, from left to right, with what they have read so far in a state.
-/

set_option autoImplicit false

namespace RecordStore.Json

/-- A lexeme of JSON:

- `arrayStart`: the sign `[`;
- `arrayEnd`: the sign `]`;
- `objectStart`: the opening brace;
- `objectEnd`: the closing brace;
- `colon`: the sign between key and value;
- `comma`: the sign between items and between members;
- `text`: a string, which may be a key;
- `scalar`: a number, a truth value or `null`. -/
inductive Token where
  | arrayStart
  | arrayEnd
  | objectStart
  | objectEnd
  | colon
  | comma
  | text (s : String)
  | scalar (j : Json)

/-! ### Strings -/

/-- The value of four hexadecimal digits. -/
def unit? (a b c d : Char) : Option Nat := do
  let a ← Text.hexValue? a
  let b ← Text.hexValue? b
  let c ← Text.hexValue? c
  let d ← Text.hexValue? d
  pure (((a * 16 + b) * 16 + c) * 16 + d)

/-- The character that one unit names, which is no half of a pair. -/
def charOfUnit? (n : Nat) : Option Char :=
  if 0xD800 ≤ n && n < 0xE000 then none else some (Char.ofNat n)

/-- The character that a pair of units names. -/
def charOfPair? (high low : Nat) : Option Char :=
  if 0xD800 ≤ high && high < 0xDC00 && 0xDC00 ≤ low && low < 0xE000 then
    some (Char.ofNat (0x10000 + (high - 0xD800) * 0x400 + (low - 0xDC00)))
  else none

/-- The character that a backslash and a letter stand for. -/
def charOfEscape? : Char → Option Char
  | '\x22' => some '\x22'
  | '\\' => some '\\'
  | '/' => some '/'
  | 'b' => some '\x08'
  | 'f' => some '\x0c'
  | 'n' => some '\n'
  | 'r' => some '\r'
  | 't' => some '\t'
  | _ => none

/-- The text between the quotes of a string, with the escapes replaced. A code point beyond the
basic plane is escaped as a pair of units, and no half of a pair may stand alone. -/
def unescape? : List Char → Option (List Char)
  | [] => some []
  | '\\' :: 'u' :: a :: b :: c :: d :: '\\' :: 'u' :: e :: f :: g :: h :: rest =>
    match unit? a b c d, unit? e f g h with
    | some high, some low =>
      match charOfPair? high low with
      | some x => (unescape? rest).map (x :: ·)
      | none =>
        -- Not a pair: the first unit is a character by itself, and the second is read anew.
        match charOfUnit? high with
        | some x => (unescape? ('\\' :: 'u' :: e :: f :: g :: h :: rest)).map (x :: ·)
        | none => none
    | _, _ => none
  | '\\' :: 'u' :: a :: b :: c :: d :: rest =>
    match (unit? a b c d).bind charOfUnit? with
    | some x => (unescape? rest).map (x :: ·)
    | none => none
  | '\\' :: c :: rest =>
    match charOfEscape? c with
    | some x => (unescape? rest).map (x :: ·)
    | none => none
  | c :: rest =>
    if c = '\\' || c.toNat < 32 then none else (unescape? rest).map (c :: ·)

/-! ### Words -/

/-- The number that a text stands for. It has no plus sign, no superfluous zero in front, and
digits on both sides of a point. A whole number beyond 64 bits becomes a double, as does zero with
a minus sign; a number beyond the doubles is refused.

A double is the one nearest to what is written, however many digits that has. A reader that takes
the leading digits as a 64-bit number and scales it by a power of ten in double arithmetic rounds
more than once: it may end at a neighbour of this double, and it refuses some numbers next to the
greatest double, such as `1.7976931348623158e308`, that are read here. -/
def number? (s : List Char) : Option Json :=
  let negative := s.head? == some '-'
  match Decimal.Numeral.ofText? (if negative then s.drop 1 else s) with
  | none => none
  | some n =>
    if n.whole.isEmpty || (n.whole.head? == some '0' && 1 < n.whole.length) ||
        n.fraction == some [] then none
    else
      let magnitude := Decimal.value n.whole
      let x := n.toBinary64 negative
      if n.fraction.isNone && n.exponent.isNone && negative && 0 < magnitude &&
          magnitude ≤ 0x8000000000000000 then some (.int (-(magnitude : Int)))
      else if n.fraction.isNone && n.exponent.isNone && !negative &&
          magnitude < 0x10000000000000000 then some (.int magnitude)
      else if x.isFinite then some (.float x)
      else none

/-- The value that one word stands for. -/
def word? (s : List Char) : Option Json :=
  if s = ['n', 'u', 'l', 'l'] then some .null
  else if s = ['t', 'r', 'u', 'e'] then some (.bool true)
  else if s = ['f', 'a', 'l', 's', 'e'] then some (.bool false)
  else number? s

/-- A character of a word. -/
def isWordChar (c : Char) : Bool :=
  c.isAlphanum || c == '+' || c == '-' || c == '.'

/-! ### Lexing -/

/-- White space between lexemes. -/
def isSpace (c : Char) : Bool :=
  c == ' ' || c == '\t' || c == '\n' || c == '\r'

/-- Where the lexer stands; what it has of an unfinished lexeme is held in reverse:

- `between`: between two lexemes;
- `word`: in a word;
- `text`: in a string;
- `escape`: in a string, behind a backslash. -/
inductive LexState where
  | between
  | word (read : List Char)
  | text (read : List Char)
  | escape (read : List Char)

/-- The lexeme that `c` is, if it is one by itself, and the state behind it. -/
def start? (c : Char) : Option (List Token × LexState) :=
  if isSpace c then some ([], .between)
  else if isWordChar c then some ([], .word [c])
  else
    match c with
    | '[' => some ([.arrayStart], .between)
    | ']' => some ([.arrayEnd], .between)
    | '\x7b' => some ([.objectStart], .between)
    | '\x7d' => some ([.objectEnd], .between)
    | ':' => some ([.colon], .between)
    | ',' => some ([.comma], .between)
    | '\x22' => some ([], .text [])
    | _ => none

/-- The lexemes that end with the next character, and the state behind it. -/
def LexState.step? (state : LexState) (c : Char) : Option (List Token × LexState) :=
  match state with
  | .between => start? c
  | .word read =>
    if isWordChar c then some ([], .word (c :: read))
    else
      match word? read.reverse, start? c with
      | some j, some (tokens, next) => some (.scalar j :: tokens, next)
      | _, _ => none
  | .text read =>
    if c = '\x22' then
      (unescape? read.reverse).map fun s => ([.text (String.ofList s)], .between)
    else if c = '\\' then some ([], .escape (c :: read))
    else some ([], .text (c :: read))
  | .escape read => some ([], .text (c :: read))

/-- The lexemes from a state to the end of the text. -/
def lex : LexState → List Char → Option (List Token)
  | .between, [] => some []
  | .word read, [] => (word? read.reverse).map fun j => [.scalar j]
  | .text _, [] => none
  | .escape _, [] => none
  | state, c :: rest =>
    match state.step? c with
    | some (tokens, next) => (lex next rest).map (tokens ++ ·)
    | none => none

/-- The lexemes of a text, if it consists of lexemes and white space. -/
def Token.ofText? (s : List Char) : Option (List Token) :=
  lex .between s

end RecordStore.Json
