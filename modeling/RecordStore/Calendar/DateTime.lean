import RecordStore.Calendar.Date

/-!
# `RecordStore.Calendar.DateTime`: points in time

A date-time is a day and a time of that day in nanoseconds, with no zone: the library keeps
universal time. A leap second is part of the second 59 that it follows, with a nanosecond count
from one to two billion.

Two date-times compare by one number, `instant`, which counts the day's place in a calendar of
equal months, then seconds, then nanoseconds, with room for the leap second; so a leap second
comes after second 59 and before the next minute.

* `instant_injective`: the number determines the date-time.
-/

set_option autoImplicit false

namespace RecordStore.Calendar

/-- Nanoseconds in a second. -/
def nanosPerSecond : Nat := 1000000000

/-- Seconds in a day. -/
def secondsPerDay : Nat := 86400

/-- The time of day exists: only the last second of a minute may be a leap second. -/
abbrev IsTime (second nanos : Nat) : Prop :=
  second < secondsPerDay ∧ nanos < 2 * nanosPerSecond ∧
    (nanosPerSecond ≤ nanos → second % 60 = 59)

/-- A day, the second of that day from zero, and the nanoseconds since that second began. -/
structure DateTime where
  date : Date
  second : Nat
  nanos : Nat
  isTime : IsTime second nanos
deriving DecidableEq

namespace DateTime

/-- The date-time with the given parts, if it exists. -/
def ofParts? (date : Date) (second nanos : Nat) : Option DateTime :=
  if h : IsTime second nanos then some ⟨date, second, nanos, h⟩ else none

/-- The date-time at which a clock shows the given time; second 60 is a leap second. -/
def ofClock? (date : Date) (hour minute second nanos : Nat) : Option DateTime :=
  if hour < 24 ∧ minute < 60 ∧ second < 60 then
    ofParts? date (hour * 3600 + minute * 60 + second) nanos
  else if hour < 24 ∧ minute < 60 ∧ second = 60 then
    ofParts? date (hour * 3600 + minute * 60 + 59) (nanosPerSecond + nanos)
  else none

/-- The date-time `minutes` earlier on the clock. The way is shorter than a day, so at most one
day changes; a leap second stays one. -/
def earlier? (t : DateTime) (minutes : Int) : Option DateTime :=
  let second := (t.second : Int) - 60 * minutes
  -- Before midnight it is the day before, past the last second the day after.
  if second < 0 then
    t.date.previous?.bind fun d => ofParts? d (second + secondsPerDay).toNat t.nanos
  else if second < secondsPerDay then ofParts? t.date second.toNat t.nanos
  else t.date.next?.bind fun d => ofParts? d (second - secondsPerDay).toNat t.nanos

/-- The place of a date-time among all others. -/
def instant (t : DateTime) : Int :=
  (((t.date.year * 12 + t.date.month) * 31 + t.date.day) * secondsPerDay + t.second) *
    (2 * nanosPerSecond) + t.nanos

/-- The parts of a date-time give it back. -/
theorem ofParts?_self (t : DateTime) : ofParts? t.date t.second t.nanos = some t :=
  dif_pos t.isTime

/-- A month has at most 31 days. -/
theorem daysInMonth_le (year : Int) (month : Nat) : daysInMonth year month ≤ 31 := by
  unfold daysInMonth
  split <;> (try split) <;> omega

/-- The number determines the date-time. -/
theorem instant_injective {a b : DateTime} (h : a.instant = b.instant) : a = b := by
  obtain ⟨⟨ay, am, ad, ay1, ⟨am1, am2⟩, ad1, ad2⟩, as, an, as2, an2, as3⟩ := a
  obtain ⟨⟨bY, bm, bd, by1, ⟨bm1, bm2⟩, bd1, bd2⟩, bs, bn, bs2, bn2, bs3⟩ := b
  have ha := daysInMonth_le ay am
  have hb := daysInMonth_le bY bm
  simp only [instant, secondsPerDay, nanosPerSecond] at h as2 an2 bs2 bn2
  -- Each part is smaller than the weight of the next larger one, so the sums have equal parts.
  have hd : ay = bY ∧ am = bm ∧ ad = bd ∧ as = bs ∧ an = bn := by omega
  obtain ⟨rfl, rfl, rfl, rfl, rfl⟩ := hd
  rfl

end DateTime

end RecordStore.Calendar
