import RecordStore.Calendar.DateTime
import RecordStore.Decimal.Digits

/-!
# `RecordStore.Calendar.Printer`: the written form of a date-time

`2024-05-06T07:08:09.123`: a year has at least four digits, and a sign where it is outside 0 to
9999; a fraction of a second has three, six or nine digits, whichever is enough, and is left out
where it is zero; a leap second is second 60.
-/

set_option autoImplicit false

namespace RecordStore.Calendar

open RecordStore.Decimal

/-- A year. -/
def yearText (year : Int) : List Char :=
  if 0 ≤ year ∧ year ≤ 9999 then padded 4 year.toNat
  else (if year < 0 then '-' else '+') :: padded 4 year.natAbs

/-- A day. -/
def Date.chars (d : Date) : List Char :=
  yearText d.year ++ '-' :: (padded 2 d.month ++ '-' :: padded 2 d.day)

/-- A fraction of a second, with its point. -/
def fractionText (nanos : Nat) : List Char :=
  if nanos = 0 then []
  else if nanos % 1000000 = 0 then '.' :: padded 3 (nanos / 1000000)
  else if nanos % 1000 = 0 then '.' :: padded 6 (nanos / 1000)
  else '.' :: padded 9 nanos

namespace DateTime

/-- The hour of the day. -/
def hour (t : DateTime) : Nat :=
  t.second / 3600

/-- The minute of the hour. -/
def minute (t : DateTime) : Nat :=
  t.second / 60 % 60

/-- The second that a clock shows, 60 in a leap second. -/
def clockSecond (t : DateTime) : Nat :=
  t.second % 60 + t.nanos / nanosPerSecond

/-- The time of day. -/
def timeChars (t : DateTime) : List Char :=
  padded 2 t.hour ++ ':' :: (padded 2 t.minute ++ ':' :: (padded 2 t.clockSecond ++
    fractionText (t.nanos % nanosPerSecond)))

/-- The written form, as characters. -/
def chars (t : DateTime) : List Char :=
  t.date.chars ++ 'T' :: t.timeChars

/-- The written form. -/
def text (t : DateTime) : String :=
  String.ofList t.chars

end DateTime

end RecordStore.Calendar
