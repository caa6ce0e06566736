import RecordStore.Toml.Scalar
import RecordStore.Toml.Token

/-!
# `RecordStore.Toml.Reader`: TOML documents from their text

The lexemes of a document take one state of the reader to the next; each finished line is a
statement. Arrays and inline tables that are still open are a stack. Lines may end between the
items of an array and around the keys and values of an inline table, and a comma may stand behind
the last item or pair. A line may not end within a dotted key.
-/

set_option autoImplicit false

namespace RecordStore.Toml

/-- How deep arrays and inline tables may stand inside each other, and how many parts a dotted key
may have. -/
def depthLimit : Nat := 80

/-! ### States -/

/-- A container that is still open:

- `items`: an array; the items read so far, latest first;
- `entries`: an inline table; the value of `key` comes next. -/
inductive Frame where
  | items (read : List Toml)
  | entries (read : List (String × Toml)) (key : List String)

/-- What a dotted key is read for:

- `pair`: a pair on a line;
- `header`: a header;
- `listHeader`: a header of a list;
- `entry`: a pair in an inline table. -/
inductive KeyUse where
  | pair
  | header
  | listHeader
  | entry (read : List (String × Toml)) (stack : List Frame)

/-- Where the reader stands:

- `lineStart`: nothing has been read of the line;
- `lineDone`: nothing more may come on the line;
- `bracket`: behind the bracket that starts a header;
- `closing`: behind the first of the two brackets that end a header of a list;
- `keyPart`: a part of a dotted key must come; the parts so far are in reverse;
- `keyNext`: a part of a dotted key has been read;
- `keyDone`: a dotted key of an inline table and a line end have been read;
- `value`: a value must come for the key of a line, or for the topmost container;
- `item`: an item or the end of an array must come;
- `afterItem`: an item of an array has been read;
- `entry`: a pair or the end of an inline table must come;
- `afterEntry`: a pair of an inline table has been read;
- `day`: a day has been read, which a time may follow after one space;
- `dayBlank`: a day and one space have been read. -/
inductive ReadState where
  | lineStart
  | lineDone
  | bracket
  | closing (path : List String) (name : String)
  | keyPart (use : KeyUse) (read : List String)
  | keyNext (use : KeyUse) (read : List String)
  | keyDone (use : KeyUse) (read : List String)
  | value (key : List String) (stack : List Frame)
  | item (key : List String) (read : List Toml) (stack : List Frame)
  | afterItem (key : List String) (read : List Toml) (stack : List Frame)
  | entry (key : List String) (read : List (String × Toml)) (stack : List Frame)
  | afterEntry (key : List String) (read : List (String × Toml)) (stack : List Frame)
  | day (s : List Char) (key : List String) (stack : List Frame)
  | dayBlank (s : List Char) (key : List String) (stack : List Frame)

/-- The statements so far, latest first, and where the reader stands; inside an inline table the
key of the line is kept aside:

- `statements`: the statements of the finished lines, and of this one if it says no more;
- `state`: where the reader stands;
- `lineKey`: the key of the line, while keys of inline tables are read. -/
structure Progress where
  statements : List Statement
  state : ReadState
  lineKey : List String

/-! ### Keys -/

/-- Part of a dotted key, or the point between two parts. -/
inductive KeyEvent where
  | part (s : String)
  | point

/-- A part of a dotted key without quotes. -/
def isBareKey (s : List Char) : Bool :=
  s.all fun c => c.isAlphanum || c == '_' || c == '-'

/-- The parts and points that a word is in a dotted key. -/
def keyEvents? (s : List Char) : Option (List KeyEvent) :=
  let pieces := Text.splitOn (· == '.') s
  if pieces.all isBareKey then
    some ((pieces.flatMap fun piece =>
      .point :: (if piece.isEmpty then [] else [.part (String.ofList piece)])).drop 1)
  else none

/-- The state behind a part or a point of a dotted key. -/
def keyStep? (use : KeyUse) (state : ReadState) (event : KeyEvent) : Option ReadState :=
  match state, event with
  | .keyPart _ read, .part s => some (.keyNext use (s :: read))
  | .keyNext _ read, .point => some (.keyPart use read)
  | _, _ => none

/-! ### Steps -/

/-- The progress in another state. -/
def Progress.to (p : Progress) (state : ReadState) : Progress :=
  { p with state := state }

/-- The progress with one more statement, and nothing more on the line. -/
def Progress.say (p : Progress) (statement : Statement) : Progress :=
  { p with statements := statement :: p.statements, state := .lineDone }

/-- The progress behind a value. -/
def Progress.behind? (p : Progress) (v : Toml) (key : List String) :
    List Frame → Option Progress
  | [] => some (p.say (.pair key v))
  | .items read :: stack => some (p.to (.afterItem key (v :: read) stack))
  | .entries read name :: stack =>
    (putDotted? v name read).map fun read => p.to (.afterEntry key read stack)

/-- The progress behind the bracket or brace that opens a container, inside those on the stack. -/
def Progress.open? (p : Progress) (stack : List Frame) (state : ReadState) : Option Progress :=
  if stack.length < depthLimit then some (p.to state) else none

/-- The progress behind the first lexeme of a value. -/
def Progress.begin? (p : Progress) (key : List String) (stack : List Frame) :
    Token → Option Progress
  | .word s =>
    if isDay s then some (p.to (.day s key stack))
    else (scalar? s).bind fun v => p.behind? v key stack
  | .text s _ => p.behind? (.string s) key stack
  | .sign c =>
    if c = '[' then p.open? stack (.item key [] stack)
    else if c = '\x7b' then p.open? stack (.entry key [] stack)
    else none
  | _ => none

/-- The progress behind a dotted key and the sign that ends it. -/
def Progress.endKey? (p : Progress) (use : KeyUse) (read : List String) (c : Char) :
    Option Progress :=
  if depthLimit < read.length then none
  else match use, read with
  | .pair, _ => if c = '=' then some (p.to (.value read.reverse [])) else none
  | .entry entries stack, _ =>
    if c = '=' then some (p.to (.value p.lineKey (.entries entries read.reverse :: stack)))
    else none
  | .header, name :: path =>
    if c = ']' then some (p.say (.header path.reverse name)) else none
  | .listHeader, name :: path =>
    if c = ']' then some (p.to (.closing path.reverse name)) else none
  | _, [] => none

/-- The progress behind one more lexeme, where no day has just been read. -/
def Progress.plainStep? (p : Progress) (t : Token) : Option Progress :=
  match p.state, t with
  | .lineStart, .lineEnd => some p
  | .lineStart, .blanks _ => some p
  | .lineStart, .sign '[' => some (p.to .bracket)
  | .lineStart, .word s => do
    let state ← (← keyEvents? s).foldlM (keyStep? .pair) (.keyPart .pair [])
    some (p.to state)
  | .lineStart, .text s false => some (p.to (.keyNext .pair [s]))
  | .lineDone, .lineEnd => some (p.to .lineStart)
  | .lineDone, .blanks _ => some p
  | .bracket, .sign '[' => some (p.to (.keyPart .listHeader []))
  | .bracket, .blanks _ => some (p.to (.keyPart .header []))
  | .bracket, .word s => do
    let state ← (← keyEvents? s).foldlM (keyStep? .header) (.keyPart .header [])
    some (p.to state)
  | .bracket, .text s false => some (p.to (.keyNext .header [s]))
  | .closing path name, .sign ']' => some (p.say (.listHeader path name))
  | .keyPart _ _, .blanks _ => some p
  | .keyPart use read, .word s => do
    let state ← (← keyEvents? s).foldlM (keyStep? use) (.keyPart use read)
    some (p.to state)
  | .keyPart use read, .text s false => some (p.to (.keyNext use (s :: read)))
  | .keyNext _ _, .blanks _ => some p
  | .keyNext use read, .word s => do
    let state ← (← keyEvents? s).foldlM (keyStep? use) (.keyNext use read)
    some (p.to state)
  | .keyNext use read, .sign c => p.endKey? use read c
  | .keyNext (.entry entries stack) read, .lineEnd =>
    some (p.to (.keyDone (.entry entries stack) read))
  | .keyDone _ _, .blanks _ => some p
  | .keyDone _ _, .lineEnd => some p
  | .keyDone use read, .sign c => p.endKey? use read c
  | .value _ _, .blanks _ => some p
  | .value _ (_ :: _), .lineEnd => some p
  | .value key stack, t => p.begin? key stack t
  | .item _ _ _, .blanks _ => some p
  | .item _ _ _, .lineEnd => some p
  | .item key read stack, .sign ']' => p.behind? (.array read.reverse) key stack
  | .item key read stack, t => p.begin? key (.items read :: stack) t
  | .afterItem _ _ _, .blanks _ => some p
  | .afterItem _ _ _, .lineEnd => some p
  | .afterItem key read stack, .sign ',' => some (p.to (.item key read stack))
  | .afterItem key read stack, .sign ']' => p.behind? (.array read.reverse) key stack
  | .entry _ _ _, .blanks _ => some p
  | .entry _ _ _, .lineEnd => some p
  | .entry key read stack, .sign '\x7d' => p.behind? (.table .closed read) key stack
  | .entry key read stack, .text s false =>
    some ⟨p.statements, .keyNext (.entry read stack) [s], key⟩
  | .entry key read stack, .word s => do
    let use := KeyUse.entry read stack
    let state ← (← keyEvents? s).foldlM (keyStep? use) (.keyPart use [])
    some ⟨p.statements, state, key⟩
  | .afterEntry _ _ _, .blanks _ => some p
  | .afterEntry _ _ _, .lineEnd => some p
  | .afterEntry key read stack, .sign ',' => some (p.to (.entry key read stack))
  | .afterEntry key read stack, .sign '\x7d' => p.behind? (.table .closed read) key stack
  | _, _ => none

/-- The progress behind one more lexeme. A day is a value by itself unless a time follows. -/
def Progress.step? (p : Progress) (t : Token) : Option Progress :=
  match p.state, t with
  | .day s key stack, .blanks between =>
    if between = [' '] then some (p.to (.dayBlank s key stack))
    else p.behind? .unkept key stack
  | .day _ key stack, t => (p.behind? .unkept key stack).bind fun p => p.plainStep? t
  | .dayBlank s key stack, .word w =>
    -- Behind one space a word can only be the time of that day.
    if isTemporal (s ++ ' ' :: w) then p.behind? .unkept key stack else none
  | .dayBlank _ key stack, t => (p.behind? .unkept key stack).bind fun p => p.plainStep? t
  | _, t => p.plainStep? t

/-! ### Documents -/

/-- The statements of a document with the given lexemes. -/
def statements? (tokens : List Token) : Option (List Statement) :=
  match (tokens ++ [Token.lineEnd]).foldlM Progress.step? ⟨[], .lineStart, []⟩ with
  | some ⟨statements, .lineStart, _⟩ => some statements.reverse
  | _ => none

/-- The entries of the top table of a document. -/
def ofText? (s : String) : Option (List (String × Toml)) := do
  ofStatements? (← statements? (← Token.ofText? s.toList))

end RecordStore.Toml
