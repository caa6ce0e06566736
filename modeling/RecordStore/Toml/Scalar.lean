import RecordStore.Calendar.Reader
import RecordStore.Decimal.Numeral
import RecordStore.Text.Hex
import RecordStore.Text.Split
import RecordStore.Toml.Basic

/-!
# `RecordStore.Toml.Scalar`: the values of TOML that are one word

Truth values, whole numbers in four bases, floating-point numbers, and days, times and both with an
offset. An underscore may stand between two digits of a number.
-/

set_option autoImplicit false

namespace RecordStore.Toml

/-- The digits of a run, without the underscores that stand between two digits each. -/
def joined? (s : List Char) : Option (List Char) :=
  let pieces := Text.splitOn (· == '_') s
  if pieces.any List.isEmpty then none else some pieces.flatten

/-- Decimal digits without a superfluous zero in front. -/
def isPlainNumber (s : List Char) : Bool :=
  Decimal.isDigits s && (s.length == 1 || s.head? != some '0')

/-- The digits of a number in the given base. -/
def basedNumber? (base : Nat) (s : List Char) : Option Int := do
  let ds ← joined? s
  let values ← ds.mapM Text.hexValue?
  if values.all (· < base) then some (values.foldl (fun n d => n * base + d) 0 : Nat) else none

/-- A whole number without a sign, in base ten. -/
def plainNumber? (s : List Char) : Option Int := do
  let ds ← joined? s
  if isPlainNumber ds then some (Decimal.value ds) else none

/-- A whole number. Only those in base ten may have a sign. -/
def integer? : List Char → Option Int
  | '0' :: 'x' :: s => basedNumber? 16 s
  | '0' :: 'o' :: s => basedNumber? 8 s
  | '0' :: 'b' :: s => basedNumber? 2 s
  | '-' :: s => (plainNumber? s).map fun n => -n
  | '+' :: s => plainNumber? s
  | s => plainNumber? s

/-- The text without a sign in front of it. -/
def withoutSign : List Char → List Char
  | '-' :: s => s
  | '+' :: s => s
  | s => s

/-- Digits, of which two neighbours may have an underscore between them. -/
def isJoinedDigits (s : List Char) : Bool :=
  ((joined? s).map Decimal.isDigits).getD false

/-- The text is infinity or no number, by name. -/
def isNamedFloat (s : List Char) : Bool :=
  withoutSign s == ['i', 'n', 'f'] || withoutSign s == ['n', 'a', 'n']

/-- The text is a floating-point number in digits: digits, a point with digits, an exponent, and at
least one of the last two. -/
def isWrittenFloat (s : List Char) : Bool :=
  let s := withoutSign s
  let isExponent (c : Char) : Bool := c == 'e' || c == 'E'
  let mantissa := s.takeWhile fun c => !isExponent c
  let exponent := s.drop mantissa.length
  let whole := mantissa.takeWhile (· != '.')
  let fraction := mantissa.drop whole.length
  (plainNumber? whole).isSome && (fraction.isEmpty || isJoinedDigits fraction.tail) &&
    (exponent.isEmpty || isJoinedDigits (withoutSign exponent.tail)) &&
    !(fraction.isEmpty && exponent.isEmpty)

/-- A floating-point number in digits rounds to a double. -/
def hasDouble (s : List Char) : Bool :=
  ((Decimal.double? (s.filter (· != '_'))).map Binary64.isFinite).getD false

/-- The text is a day. -/
def isDay (s : List Char) : Bool :=
  match Calendar.fixedDay s with
  | some (_, rest) => rest.isEmpty
  | none => false

/-- The time of day with seconds, which may be left out together with their fraction. -/
def withSeconds (s : List Char) : List Char :=
  let rest := s.drop 5
  if rest.head? = some ':' ∨ rest.head? = some '.' then s else s.take 5 ++ [':', '0', '0'] ++ rest

/-- The text is a time of day, with an offset if `zoned`. -/
def isTime (zoned : Bool) (s : List Char) : Bool :=
  match (Calendar.Date.ofParts? 2000 1 1).bind fun day => Calendar.fixedTime day (withSeconds s) with
  | some (_, rest) => rest.isEmpty || (zoned && (Calendar.offset? rest).isSome)
  | none => false

/-- The text is a day, a time of day, or both with or without an offset. -/
def isTemporal (s : List Char) : Bool :=
  isDay s || isTime false s ||
    match Calendar.fixedDay s with
    | some (_, c :: rest) => Calendar.isDaySeparator c && isTime true rest
    | _ => false

/-- The value that a word is. -/
def scalar? (s : List Char) : Option Toml :=
  if s = ['t', 'r', 'u', 'e'] then some (.bool true)
  else if s = ['f', 'a', 'l', 's', 'e'] then some (.bool false)
  else
    match integer? s with
    | some n => some (.integer n)
    | none =>
      if isWrittenFloat s then some (if hasDouble s then .unkept else .tooLarge)
      else if isNamedFloat s || isTemporal s then some .unkept
      else none

end RecordStore.Toml
