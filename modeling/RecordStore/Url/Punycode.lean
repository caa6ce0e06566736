/-!
# `RecordStore.Url.Punycode`: labels of domains in the basic alphabet

A label beyond the basic alphabet has a form in basic letters: its basic characters, a hyphen, and
a list of numbers in base 36 that say which other characters are inserted, and where. `decode?`
reads that form. The numbers are written with digits of varying weight, least first; after each
number the thresholds between digits adapt to its size.
-/

set_option autoImplicit false

namespace RecordStore.Url.Punycode

/-- The value of a digit in base 36. -/
def digit? (c : Char) : Option Nat :=
  if c.isLower then some (c.toNat - 'a'.toNat)
  else if c.isUpper then some (c.toNat - 'A'.toNat)
  else if c.isDigit then some (c.toNat - '0'.toNat + 26)
  else none

/-- The digit at position `k` that ends a number is below this threshold. -/
def threshold (k bias : Nat) : Nat :=
  if k ≤ bias + 1 then 1 else if bias + 26 ≤ k then 26 else k - bias

/-- Where the thresholds come to lie after a number of size `delta`, counted from `k`: 35 is taken
out of it until it is at most 455. -/
def adaptFrom (k delta : Nat) : Nat :=
  if 455 < delta then adaptFrom (k + 36) (delta / 35) else k + 36 * delta / (delta + 38)
termination_by delta
decreasing_by omega

/-- The bias after a number, when there are `count` characters; the first number is damped. -/
def adapt (delta count : Nat) (first : Bool) : Nat :=
  let delta := if first then delta / 700 else delta / 2
  adaptFrom 0 (delta + delta / count)

/-- What is known while the numbers are read:

- `output`: the characters so far;
- `code`: the code point of the last inserted character;
- `place`: the place behind the last inserted character;
- `bias`: the bias of the thresholds;
- `sum`: the number that is being read, added to the place;
- `weight`: the weight of the next digit;
- `position`: the position of the next digit. -/
structure State where
  output : List Char
  code : Nat
  place : Nat
  bias : Nat
  sum : Nat
  weight : Nat
  position : Nat

/-- The state before the first number. -/
def State.start (basic : List Char) : State :=
  ⟨basic, 128, 0, 72, 0, 1, 36⟩

/-- The state behind one more digit. The sum may not leave 32 bits, and what is inserted must be a
character. -/
def State.step? (s : State) (c : Char) : Option State := do
  let d ← digit? c
  let sum := s.sum + d * s.weight
  let t := threshold s.position s.bias
  if 0x100000000 ≤ sum then none
  else if d < t then
    -- The last digit of a number: the sum gives the next character and its place.
    let count := s.output.length + 1
    let code := s.code + sum / count
    let place := sum % count
    if code < 0xD800 || (0xDFFF < code && code < 0x110000) then
      some ⟨s.output.take place ++ Char.ofNat code :: s.output.drop place, code, place + 1,
        adapt (sum - s.place) count (s.place == 0), place + 1, 1, 36⟩
    else none
  else some { s with sum := sum, weight := s.weight * (36 - t), position := s.position + 36 }

/-- The label that a form in basic letters stands for. -/
def decode? (s : List Char) : Option (List Char) :=
  -- The last hyphen divides the basic characters from the numbers.
  let basic := ((s.reverse.dropWhile (· != '-')).drop 1).reverse
  let rest := (s.reverse.takeWhile (· != '-')).reverse
  match rest.foldlM State.step? (State.start basic) with
  | some state => if state.position = 36 then some state.output else none
  | none => none

end RecordStore.Url.Punycode
