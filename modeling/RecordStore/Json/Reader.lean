import RecordStore.Json.Token

/-!
# `RecordStore.Json.Reader`: JSON values from their text

`Json.ofText?` reads a text that is one JSON value. The value under construction is a stack of
open arrays and objects, and each lexeme takes one state of it to the next. Containers may be
nested `maxDepth` deep.
-/

set_option autoImplicit false

namespace RecordStore.Json

/-- How deep containers may be nested. -/
def maxDepth : Nat := 127

/-- A container that is still open; what it holds is in reverse:

- `items`: an array;
- `members`: an object, of which the value of `name` comes next. -/
inductive Frame where
  | items (read : List Json)
  | members (read : List (String × Json)) (name : String)

/-- Where the reader stands:

- `value`: a value must come;
- `firstItem`: an array has just been opened;
- `afterItem`: an item of an array has been read;
- `key`: an object has been opened, or a comma has been read in it;
- `colon`: a key has been read;
- `afterMember`: a member of an object has been read;
- `complete`: the value is complete. -/
inductive ReadState where
  | value (stack : List Frame)
  | firstItem (stack : List Frame)
  | afterItem (read : List Json) (stack : List Frame)
  | key (first : Bool) (read : List (String × Json)) (stack : List Frame)
  | colon (name : String) (read : List (String × Json)) (stack : List Frame)
  | afterMember (read : List (String × Json)) (stack : List Frame)
  | complete (j : Json)

/-- The state behind a value. -/
def ReadState.behind (j : Json) : List Frame → ReadState
  | [] => .complete j
  | .items read :: stack => .afterItem (j :: read) stack
  | .members read name :: stack => .afterMember ((name, j) :: read) stack

/-- The state behind the first lexeme of a value. -/
def ReadState.begin? (stack : List Frame) : Token → Option ReadState
  | .scalar j => some (.behind j stack)
  | .text s => some (.behind (.string s) stack)
  | .arrayStart => if stack.length < maxDepth then some (.firstItem stack) else none
  | .objectStart => if stack.length < maxDepth then some (.key true [] stack) else none
  | _ => none

/-- The state behind one more lexeme. -/
def ReadState.step? : ReadState → Token → Option ReadState
  | .value stack, t => begin? stack t
  | .firstItem stack, .arrayEnd => some (.behind (.array []) stack)
  | .firstItem stack, t => begin? (.items [] :: stack) t
  | .afterItem read stack, .comma => some (.value (.items read :: stack))
  | .afterItem read stack, .arrayEnd => some (.behind (.array read.reverse) stack)
  | .key _ read stack, .text s => some (.colon s read stack)
  | .key true read stack, .objectEnd => some (.behind (.ofMembers read.reverse) stack)
  | .colon name read stack, .colon => some (.value (.members read name :: stack))
  | .afterMember read stack, .comma => some (.key false read stack)
  | .afterMember read stack, .objectEnd => some (.behind (.ofMembers read.reverse) stack)
  | _, _ => none

/-- The value that a list of lexemes stands for. -/
def ofTokens? (tokens : List Token) : Option Json :=
  match tokens.foldlM ReadState.step? (.value []) with
  | some (.complete j) => some j
  | _ => none

/-- The value that a text stands for. -/
def ofText? (s : String) : Option Json :=
  (Token.ofText? s.toList).bind ofTokens?

end RecordStore.Json
