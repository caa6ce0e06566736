import RecordStore.Decimal.Digits
import RecordStore.Binary64.Rounding

/-!
# `RecordStore.Decimal.Numeral`: numbers with a point and an exponent

A numeral is a run of digits, a point with a run of digits, and an exponent; the formats that use
it differ in which parts they require. It has no sign of its own. Its value is rounded to the
nearest double.
-/

set_option autoImplicit false

namespace RecordStore.Decimal

/-- The parts of an unsigned number in decimal notation:

- `whole`: the digits before the point;
- `fraction`: the digits after the point, if there is one;
- `exponent`: the exponent, if there is one. -/
structure Numeral where
  whole : List Char
  fraction : Option (List Char)
  exponent : Option Int

/-- Nothing, or an exponent: the letter, an optional sign and digits. -/
def exponent? : List Char → Option (Option Int)
  | [] => some none
  | 'e' :: s => (intValue? s).map some
  | 'E' :: s => (intValue? s).map some
  | _ => none

/-- The parts of `s`, if all of it is a numeral; either run of digits may be empty. -/
def Numeral.ofText? (s : List Char) : Option Numeral :=
  let whole := s.takeWhile Char.isDigit
  match s.dropWhile Char.isDigit with
  | '.' :: rest =>
    (exponent? (rest.dropWhile Char.isDigit)).map fun e =>
      ⟨whole, some (rest.takeWhile Char.isDigit), e⟩
  | rest => (exponent? rest).map fun e => ⟨whole, none, e⟩

/-- The double nearest to a numeral, with the given sign. -/
def Numeral.toBinary64 (n : Numeral) (negative : Bool) : Binary64 :=
  let fraction := n.fraction.getD []
  Binary64.ofDecimal negative (value (n.whole ++ fraction))
    (n.exponent.getD 0 - (fraction.length : Int))

/-- The letters of `s` in lower case, in the basic alphabet. -/
def lowerCase (s : List Char) : List Char :=
  s.map Char.toLower

/-- The double that an unsigned text names: infinity or no number in any case of letters, or a
numeral with at least one digit. -/
def unsignedDouble? (negative : Bool) (s : List Char) : Option Binary64 :=
  let word := lowerCase s
  if word = ['i', 'n', 'f'] || word = ['i', 'n', 'f', 'i', 'n', 'i', 't', 'y'] then
    some (.infinity negative)
  else if word = ['n', 'a', 'n'] then some (.quietNaN negative)
  else
    match Numeral.ofText? s with
    | some n =>
      if n.whole.isEmpty && (n.fraction.getD []).isEmpty then none
      else some (n.toBinary64 negative)
    | none => none

/-- The double that a text with an optional sign names. -/
def double? : List Char → Option Binary64
  | '-' :: s => unsignedDouble? true s
  | '+' :: s => unsignedDouble? false s
  | s => unsignedDouble? false s

end RecordStore.Decimal
