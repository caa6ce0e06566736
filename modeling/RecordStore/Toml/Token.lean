import RecordStore.Toml.Basic
import RecordStore.Json.Token
import RecordStore.Text.Mark

/-!
# `RecordStore.Toml.Token`: the lexemes of TOML

A text is cut into signs, words, strings, blanks and line ends; comments are passed over. A word is
a run of characters that may stand in a bare key, a number or a time, the point included: what it
means depends on where it stands. Blanks are kept, since they end words.

A line ends in a line feed, with or without a carriage return in front of it. In a string over
several lines the line ends stay as they are written; a carriage return stands nowhere else.
-/

set_option autoImplicit false

namespace RecordStore.Toml

/-- A lexeme of TOML:

- `lineEnd`: the end of a line;
- `blanks`: a run of blanks;
- `sign`: a sign: a bracket, a brace, a comma or an equals sign;
- `word`: a run of letters, digits and `_`, `-`, `+`, `.`, `:`;
- `text`: a string; one in triple quotes cannot be a key. -/
inductive Token where
  | lineEnd
  | blanks (s : List Char)
  | sign (c : Char)
  | word (s : List Char)
  | text (s : String) (triple : Bool)

/-! ### Characters -/

/-- A character of a word. -/
def isWordChar (c : Char) : Bool :=
  c.isAlphanum || c == '_' || c == '-' || c == '+' || c == '.' || c == ':'

/-- A sign by itself. -/
def isSign (c : Char) : Bool :=
  c == '[' || c == ']' || c == '\x7b' || c == '\x7d' || c == ',' || c == '='

/-- A character of a line end. -/
def isLineEnd (c : Char) : Bool :=
  c == '\n' || c == '\r'

/-- A blank. -/
def isSpace (c : Char) : Bool :=
  c == ' ' || c == '\t'

/-- A character that may stand nowhere in a string or a comment on one line. -/
def isForbidden (c : Char) : Bool :=
  (c.toNat < 32 && c != '\t') || c.toNat == 127

/-- A character that may stand nowhere in a string over several lines. -/
def isForbiddenInLines (c : Char) : Bool :=
  isForbidden c && !isLineEnd c

/-! ### Strings -/

/-- The character that a letter behind a backslash stands for. -/
def charOfEscape? : Char → Option Char
  | 'b' => some '\x08'
  | 'e' => some '\x1b'
  | 't' => some '\t'
  | 'n' => some '\n'
  | 'f' => some '\x0c'
  | 'r' => some '\r'
  | '\x22' => some '\x22'
  | '\\' => some '\\'
  | _ => none

/-- The character with the given code point. -/
def charOfCode? (n : Nat) : Option Char :=
  if n < 0xD800 || (0xDFFF < n && n < 0x110000) then some (Char.ofNat n) else none

/-- What follows is blanks and a line end. -/
def endsLine (s : List Char) : Bool :=
  ((s.dropWhile isSpace).head?.map isLineEnd).getD false

/-- The text of a string with its escapes replaced. In a string over several lines a backslash at
the end of a line takes away everything up to the next visible character; `skipping` is the state
in which that happens. -/
def unescape? (lines : Bool) : Bool → List Char → Option (List Char)
  | _, [] => some []
  | _, '\\' :: 'U' :: a :: b :: c :: d :: e :: f :: g :: h :: rest => do
    let high ← Json.unit? a b c d
    let low ← Json.unit? e f g h
    let x ← charOfCode? (high * 0x10000 + low)
    (unescape? lines false rest).map (x :: ·)
  | _, '\\' :: 'u' :: a :: b :: c :: d :: rest => do
    let x ← (Json.unit? a b c d).bind charOfCode?
    (unescape? lines false rest).map (x :: ·)
  | _, '\\' :: 'x' :: a :: b :: rest => do
    let x ← (Json.unit? '0' '0' a b).bind charOfCode?
    (unescape? lines false rest).map (x :: ·)
  | _, '\\' :: c :: rest =>
    if lines && endsLine (c :: rest) then unescape? lines true rest
    else
      match charOfEscape? c with
      | some x => (unescape? lines false rest).map (x :: ·)
      | none => none
  | skipping, c :: rest =>
    if c = '\\' then none
    else if skipping && (isSpace c || isLineEnd c) then unescape? lines true rest
    else (unescape? lines false rest).map (c :: ·)

/-- The text of a string over several lines, without a line end at its start. -/
def trimFirstLine : List Char → List Char
  | '\n' :: rest => rest
  | '\r' :: '\n' :: rest => rest
  | s => s

/-! ### Lexing -/

/-- Where the lexer stands; what it has of an unfinished lexeme is held in reverse:

- `between`: between two lexemes;
- `blanks`: in a run of blanks;
- `word`: in a word;
- `comment`: in a comment;
- `basic`: in a string with escapes;
- `literal`: in a string without escapes;
- `basicLines`: in a string with escapes over several lines;
- `literalLines`: in a string without escapes over several lines. -/
inductive LexState where
  | between
  | blanks (read : List Char)
  | word (read : List Char)
  | comment
  | basic (read : List Char)
  | literal (read : List Char)
  | basicLines (read : List Char)
  | literalLines (read : List Char)

/-- The string that ends here. -/
def basicToken? (lines : Bool) (read : List Char) : Option Token :=
  let s := if lines then trimFirstLine read.reverse else read.reverse
  (unescape? lines false s).map fun s => .text (String.ofList s) lines

/-- The string without escapes that ends here. -/
def literalToken (lines : Bool) (read : List Char) : Token :=
  .text (String.ofList (if lines then trimFirstLine read.reverse else read.reverse)) lines

/-- The lexeme that ends before a character outside it. -/
def LexState.finish : LexState → List Token
  | .blanks read => [.blanks read.reverse]
  | .word read => [.word read.reverse]
  | _ => []

/-- The state behind `c`, where `c` starts a lexeme or is one. The line feed is the lexeme of a
line end, and a carriage return in front of it is passed over. -/
def start? (c : Char) : Option (List Token × LexState) :=
  if c = '\n' then some ([.lineEnd], .between)
  else if c = '\r' then some ([], .between)
  else if isSpace c then some ([], .blanks [c])
  else if isWordChar c then some ([], .word [c])
  else if isSign c then some ([.sign c], .between)
  else if c = '#' then some ([], .comment)
  else if c = '\x22' then some ([], .basic [])
  else if c = '\x27' then some ([], .literal [])
  else none

/-- The lexemes that end with `c` and the state behind it, outside of strings. -/
def LexState.step? (state : LexState) (c : Char) : Option (List Token × LexState) :=
  match state with
  | .comment =>
    if c = '\n' then some ([.lineEnd], .between)
    else if isForbiddenInLines c then none
    else some ([], .comment)
  | .blanks read =>
    if isSpace c then some ([], .blanks (c :: read))
    else (start? c).map fun (tokens, next) => (state.finish ++ tokens, next)
  | .word read =>
    if isWordChar c then some ([], .word (c :: read))
    else (start? c).map fun (tokens, next) => (state.finish ++ tokens, next)
  | _ => start? c

/-- The lexemes from a state to the end of the text. Up to two quotes in front of the three that
end a string belong to it. -/
def lex : LexState → List Char → Option (List Token)
  | .basic read, '\x22' :: rest => do
    let token ← basicToken? false read
    (lex .between rest).map (token :: ·)
  | .basic read, '\\' :: c :: rest =>
    if isForbidden c then none else lex (.basic (c :: '\\' :: read)) rest
  | .basic read, c :: rest => if isForbidden c then none else lex (.basic (c :: read)) rest
  | .literal read, '\x27' :: rest => (lex .between rest).map (literalToken false read :: ·)
  | .literal read, c :: rest => if isForbidden c then none else lex (.literal (c :: read)) rest
  | .basicLines read, '\x22' :: '\x22' :: '\x22' :: '\x22' :: '\x22' :: rest => do
    let token ← basicToken? true ('\x22' :: '\x22' :: read)
    (lex .between rest).map (token :: ·)
  | .basicLines read, '\x22' :: '\x22' :: '\x22' :: '\x22' :: rest => do
    let token ← basicToken? true ('\x22' :: read)
    (lex .between rest).map (token :: ·)
  | .basicLines read, '\x22' :: '\x22' :: '\x22' :: rest => do
    let token ← basicToken? true read
    (lex .between rest).map (token :: ·)
  | .basicLines read, '\\' :: c :: rest =>
    if isForbiddenInLines c then none else lex (.basicLines (c :: '\\' :: read)) rest
  | .basicLines read, c :: rest =>
    if isForbiddenInLines c then none else lex (.basicLines (c :: read)) rest
  | .literalLines read, '\x27' :: '\x27' :: '\x27' :: '\x27' :: '\x27' :: rest =>
    (lex .between rest).map (literalToken true ('\x27' :: '\x27' :: read) :: ·)
  | .literalLines read, '\x27' :: '\x27' :: '\x27' :: '\x27' :: rest =>
    (lex .between rest).map (literalToken true ('\x27' :: read) :: ·)
  | .literalLines read, '\x27' :: '\x27' :: '\x27' :: rest =>
    (lex .between rest).map (literalToken true read :: ·)
  | .literalLines read, c :: rest =>
    if isForbiddenInLines c then none else lex (.literalLines (c :: read)) rest
  | .between, '\x22' :: '\x22' :: '\x22' :: rest => lex (.basicLines []) rest
  | .between, '\x27' :: '\x27' :: '\x27' :: rest => lex (.literalLines []) rest
  | .blanks read, '\x22' :: '\x22' :: '\x22' :: rest =>
    (lex (.basicLines []) rest).map (.blanks read.reverse :: ·)
  | .blanks read, '\x27' :: '\x27' :: '\x27' :: rest =>
    (lex (.literalLines []) rest).map (.blanks read.reverse :: ·)
  | state, c :: rest =>
    match state.step? c with
    | some (tokens, next) => (lex next rest).map (tokens ++ ·)
    | none => none
  | .between, [] => some []
  | .comment, [] => some []
  | .blanks read, [] => some [.blanks read.reverse]
  | .word read, [] => some [.word read.reverse]
  | _, [] => none

/-- Every carriage return stands in front of a line feed. -/
def hasWholeLineEnds : List Char → Bool
  | [] => true
  | c :: rest => (c != '\r' || rest.head? == some '\n') && hasWholeLineEnds rest

/-- The lexemes of a text. -/
def Token.ofText? (s : List Char) : Option (List Token) :=
  let s := Text.withoutMark s
  if hasWholeLineEnds s then lex .between s else none

end RecordStore.Toml
