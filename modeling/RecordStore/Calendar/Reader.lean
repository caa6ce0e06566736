import RecordStore.Calendar.DateTime
import RecordStore.Decimal.Digits
import RecordStore.Text.Blank

/-!
# `RecordStore.Calendar.Reader`: the four layouts of date-times

A date-time may be written in four layouts, tried in this order on the text without the blanks
around it:

1. `zoned?`: fixed widths throughout and an offset from universal time at the end, which is
   taken off;
2. `separated?`: a day and a time with `T` between them;
3. `spaced?`: a day and a time with blanks, or nothing, between them;
4. `dayOnly?`: a day, which means its midnight.

The last three are lenient: blanks may stand before every number, a year has up to four digits,
or a sign and any number of digits, and the other numbers have one or two. In all layouts a
fraction of a second may follow the second, of which nine digits count.
-/

set_option autoImplicit false

namespace RecordStore.Calendar

open RecordStore.Decimal RecordStore.Text

/-! ### Parts -/

/-- The character `c`, and what follows it. -/
def expect (c : Char) : List Char → Option (List Char)
  | d :: rest => if d = c then some rest else none
  | [] => none

/-- Exactly `width` digits, and what follows them. -/
def fixedNumber (width : Nat) (s : List Char) : Option (Nat × List Char) :=
  if (s.take width).length = width ∧ (s.take width).all Char.isDigit then
    some (value (s.take width), s.drop width)
  else none

/-- As many digits as there are, but at most `width` of them and at least one, and what follows
them. -/
def numberUpTo (width : Nat) (s : List Char) : Option (Nat × List Char) :=
  let run := (s.takeWhile Char.isDigit).take width
  if run.isEmpty then none else some (value run, s.drop run.length)

/-- All digits that there are, at least one, and what follows them. -/
def wholeNumber (s : List Char) : Option (Nat × List Char) :=
  let run := s.takeWhile Char.isDigit
  if run.isEmpty then none else some (value run, s.dropWhile Char.isDigit)

/-- Blanks and a number of one or two digits, and what follows. -/
def shortNumber (s : List Char) : Option (Nat × List Char) :=
  numberUpTo 2 (skipBlanks s)

/-- Blanks and a year, and what follows. -/
def lenientYear (s : List Char) : Option (Int × List Char) :=
  match skipBlanks s with
  | '-' :: rest => (wholeNumber rest).map fun (n, rest) => (-(n : Int), rest)
  | '+' :: rest => (wholeNumber rest).map fun (n, rest) => ((n : Int), rest)
  | rest => (numberUpTo 4 rest).map fun (n, rest) => ((n : Int), rest)

/-- A fraction of a second in nanoseconds, zero if there is none, and what follows. -/
def fraction (s : List Char) : Option (Nat × List Char) :=
  match s with
  | '.' :: rest =>
    let run := rest.takeWhile Char.isDigit
    -- Filled up to nine digits, and cut to nine.
    if run.isEmpty then none
    else some (value ((run ++ List.replicate 9 '0').take 9), rest.dropWhile Char.isDigit)
  | rest => some (0, rest)

/-- The sign of an offset: the second minus is the typographic one. -/
def offsetSign? (c : Char) : Option Int :=
  if c = '+' then some 1
  else if c = '-' || c = '\u2212' then some (-1)
  else none

/-- The offset from universal time in minutes, if `s` is one; it is shorter than a day. -/
def offset? : List Char → Option Int
  | [] => none
  | c :: rest =>
    if (c = 'Z' || c = 'z') && rest.isEmpty then some 0
    else do
      let sign ← offsetSign? c
      let (hours, rest) ← fixedNumber 2 rest
      let rest ← expect ':' rest
      let (minutes, rest) ← fixedNumber 2 rest
      if hours < 24 && minutes < 60 && rest.isEmpty then
        some (sign * ((hours : Int) * 60 + minutes))
      else none

/-! ### Days and times -/

/-- A day with fixed widths, and what follows. -/
def fixedDay (s : List Char) : Option (Date × List Char) := do
  let (year, s) ← fixedNumber 4 s
  let s ← expect '-' s
  let (month, s) ← fixedNumber 2 s
  let s ← expect '-' s
  let (day, s) ← fixedNumber 2 s
  let date ← Date.ofParts? year month day
  pure (date, s)

/-- A time of the day `date` with fixed widths, and what follows. -/
def fixedTime (date : Date) (s : List Char) : Option (DateTime × List Char) := do
  let (hour, s) ← fixedNumber 2 s
  let s ← expect ':' s
  let (minute, s) ← fixedNumber 2 s
  let s ← expect ':' s
  let (second, s) ← fixedNumber 2 s
  let (nanos, s) ← fraction s
  let t ← DateTime.ofClock? date hour minute second nanos
  pure (t, s)

/-- A day in the lenient form, and what follows. -/
def lenientDay (s : List Char) : Option (Date × List Char) := do
  let (year, s) ← lenientYear s
  let s ← expect '-' s
  let (month, s) ← shortNumber s
  let s ← expect '-' s
  let (day, s) ← shortNumber s
  let date ← Date.ofParts? year month day
  pure (date, s)

/-- A time of the day `date` in the lenient form, with nothing behind it. -/
def lenientTime (date : Date) (s : List Char) : Option DateTime := do
  let (hour, s) ← shortNumber s
  let s ← expect ':' s
  let (minute, s) ← shortNumber s
  let s ← expect ':' s
  let (second, s) ← shortNumber s
  let (nanos, s) ← fraction s
  if s.isEmpty then DateTime.ofClock? date hour minute second nanos else none

/-! ### Layouts -/

/-- The sign between day and time in the layout with an offset. -/
def isDaySeparator (c : Char) : Bool :=
  c == 'T' || c == 't' || c == ' '

/-- A day, a time and an offset, with fixed widths. -/
def zoned? (s : List Char) : Option DateTime := do
  let (date, s) ← fixedDay s
  let c ← s.head?
  if isDaySeparator c then
    let (t, s) ← fixedTime date s.tail
    let minutes ← offset? s
    t.earlier? minutes
  else none

/-- A day, `T` and a time. -/
def separated? (s : List Char) : Option DateTime := do
  let (date, s) ← lenientDay s
  let s ← expect 'T' s
  lenientTime date s

/-- A day and a time; blanks may stand between them, as before any number. -/
def spaced? (s : List Char) : Option DateTime := do
  let (date, s) ← lenientDay s
  lenientTime date s

/-- A day, at midnight. -/
def dayOnly? (s : List Char) : Option DateTime := do
  let (date, s) ← lenientDay s
  if s.isEmpty then DateTime.ofClock? date 0 0 0 0 else none

/-- The date-time that a text without blanks around it stands for. -/
def DateTime.ofTrimmed? (s : List Char) : Option DateTime :=
  (zoned? s).or ((separated? s).or ((spaced? s).or (dayOnly? s)))

end RecordStore.Calendar
