import Mathlib.Data.List.Basic
import RecordStore.Proofs.Calendar.DayNumber
import RecordStore.Proofs.Calendar.TextOrder
import RecordStore.Value.Json

/-!
# `RecordStore.Proofs.Calendar.Zoned`: texts with an offset

A moment has a text for every offset from universal time: what a clock shows that is set by the
offset, and the offset. A clock shows another day, month or year than universal time near their
ends. There are more texts: three signs between day and time, two for an offset to the west,
fractions with more digits than are needed, and blanks around all. Each of them is read as the
moment.

* `value_fill`: nine digits of a fraction are its nanoseconds.
* `offset?_of_isOffset`, `exists_isOffset_iff`: the offsets.
* `exists_isShown_iff`: what a clock shows, and when that is in a year of four digits.
* `zoned?_zonedChars`: the layout with an offset takes the offset off.
* `readDateTime_of_isZonedText`: every text of a moment is read as the moment.
-/

set_option autoImplicit false

namespace RecordStore.Calendar

open RecordStore.Decimal RecordStore.Text

/-! ### Fractions of a second -/

/-- The digits of a fraction count nanoseconds, as many as there are whole ones. -/
inductive IsFraction : Nat → List Char → Prop where
  /-- A count of zero needs no fraction. -/
  | none : IsFraction 0 []
  /-- A point and one digit or more. -/
  | digits {ds : List Char} (ne : ds ≠ []) (all : ∀ c ∈ ds, c.isDigit = true) :
      IsFraction (value ds * nanosPerSecond / tenTo ds.length) ('.' :: ds)

/-- Nine digits of a fraction, filled up with zeros, are its nanoseconds. -/
theorem value_fill {ds : List Char} (h : ∀ c ∈ ds, c.isDigit = true) :
    value ((ds ++ List.replicate 9 '0').take 9)
      = value ds * nanosPerSecond / tenTo ds.length := by
  have hnine : nanosPerSecond = tenTo 9 := rfl
  rw [hnine]
  rcases Nat.lt_or_ge 9 ds.length with hlong | hshort
  · -- The digits past the ninth are less than one nanosecond.
    obtain ⟨k, hk⟩ : ∃ k, ds.length = 9 + k := ⟨ds.length - 9, by omega⟩
    have hrest : value (ds.drop 9) < tenTo k := by
      have hlt : value (ds.drop 9) < tenTo (ds.drop 9).length :=
        value_lt fun c hc => h c (List.mem_of_mem_drop hc)
      rwa [List.length_drop, hk, Nat.add_sub_cancel_left] at hlt
    have hsplit : value ds = tenTo k * value (ds.take 9) + value (ds.drop 9) := by
      rw [← List.take_append_drop 9 ds, value_append, List.length_drop, hk,
        Nat.add_sub_cancel_left, List.take_append_drop]
    rw [List.take_append_of_le_length (by omega), hk, tenTo_add, Nat.mul_comm (value ds),
      Nat.mul_div_mul_left _ _ (tenTo_pos 9), hsplit, Nat.mul_add_div (tenTo_pos k),
      Nat.div_eq_of_lt hrest, Nat.add_zero]
  · obtain ⟨k, hk⟩ : ∃ k, 9 = ds.length + k := ⟨9 - ds.length, by omega⟩
    have hfill : (ds ++ List.replicate 9 '0').take 9 = ds ++ List.replicate k '0' := by
      rw [List.take_append, List.take_of_length_le hshort, List.take_replicate]
      congr 2
      omega
    rw [hfill, value_append_zeros, hk, tenTo_add, Nat.mul_left_comm,
      Nat.mul_div_cancel_left _ (tenTo_pos _)]

/-- What follows a time is neither a digit nor a point. -/
def EndsTime (s : List Char) : Prop :=
  ∀ c, s.head? = some c → c.isDigit = false ∧ c ≠ '.'

/-- A fraction is read to its end. -/
theorem fraction_of_isFraction {nanos : Nat} {s rest : List Char} (h : IsFraction nanos s)
    (hrest : EndsTime rest) : fraction (s ++ rest) = some (nanos, rest) := by
  cases h with
  | none =>
    rw [List.nil_append]
    unfold fraction
    split
    · exact absurd rfl (hrest '.' rfl).2
    · rfl
  | @digits ds ne all =>
    obtain ⟨htake, hdrop⟩ := takeWhile_isDigit_append all fun c hc => (hrest c hc).1
    simp only [List.cons_append, fraction, htake, hdrop, List.isEmpty_iff, ne, if_false,
      value_fill all]

/-! ### Offsets -/

/-- The texts of offsets from universal time, by their minutes. -/
inductive IsOffset : Int → List Char → Prop where
  /-- Universal time itself. -/
  | universal {c : Char} (letter : c = 'Z' ∨ c = 'z') : IsOffset 0 [c]
  /-- Clocks that are ahead. -/
  | ahead {hours minutes : Nat} (hours_lt : hours < 24) (minutes_lt : minutes < 60) :
      IsOffset (hours * 60 + minutes) ('+' :: (padded 2 hours ++ ':' :: padded 2 minutes))
  /-- Clocks that are behind, with one of the two signs for minus. -/
  | behind {c : Char} {hours minutes : Nat} (sign : c = '-' ∨ c = '\u2212')
      (hours_lt : hours < 24) (minutes_lt : minutes < 60) :
      IsOffset (-(hours * 60 + minutes)) (c :: (padded 2 hours ++ ':' :: padded 2 minutes))

/-- An offset is shorter than a day. -/
theorem bounds_of_isOffset {minutes : Int} {s : List Char} (h : IsOffset minutes s) :
    -1440 < minutes ∧ minutes < 1440 := by
  cases h <;> omega

/-- Every number of minutes shorter than a day is an offset. -/
theorem exists_isOffset_iff {minutes : Int} :
    (∃ s, IsOffset minutes s) ↔ -1440 < minutes ∧ minutes < 1440 := by
  constructor
  · rintro ⟨s, h⟩
    exact bounds_of_isOffset h
  · intro h
    -- Hours and minutes are those of the number without its sign.
    obtain ⟨hours, rest, hhours, hrest, hsum⟩ :
        ∃ hours rest : Nat, hours < 24 ∧ rest < 60 ∧ minutes.natAbs = hours * 60 + rest :=
      ⟨minutes.natAbs / 60, minutes.natAbs % 60, by omega, by omega, by omega⟩
    rcases Int.natAbs_eq minutes with hpos | hneg
    · have hminutes : minutes = hours * 60 + rest := by omega
      rw [hminutes]
      exact ⟨_, .ahead hhours hrest⟩
    · have hminutes : minutes = -(hours * 60 + rest) := by omega
      rw [hminutes]
      exact ⟨_, .behind (.inl rfl) hhours hrest⟩

/-- Hours and minutes behind a sign are read. -/
theorem offset?_signed {c : Char} {sign : Int} (hsign : offsetSign? c = some sign)
    {hours minutes : Nat} (hhours : hours < 24) (hminutes : minutes < 60) :
    offset? (c :: (padded 2 hours ++ ':' :: padded 2 minutes))
      = some (sign * ((hours : Int) * 60 + minutes)) := by
  -- With digits behind it, the sign is not taken for the letter of universal time.
  have hne : (padded 2 hours ++ ':' :: padded 2 minutes).isEmpty = false := by simp
  have hreadh := fixedNumber_padded (by decide) (show hours < tenTo 2 from by
    show hours < 100
    omega) (':' :: padded 2 minutes)
  have hreadm := fixedNumber_padded (by decide) (show minutes < tenTo 2 from by
    show minutes < 100
    omega) []
  rw [List.append_nil] at hreadm
  simp only [offset?, hne, Bool.and_false, Bool.false_eq_true, if_false, hsign,
    Option.bind_eq_bind, Option.bind_some, hreadh, expect_cons, hreadm, hhours, hminutes,
    decide_true, List.isEmpty_nil, Bool.and_self, if_true]

/-- A written offset is read. -/
theorem offset?_of_isOffset {minutes : Int} {s : List Char} (h : IsOffset minutes s) :
    offset? s = some minutes := by
  cases h with
  | universal letter => rcases letter with rfl | rfl <;> rfl
  | ahead hhours hminutes =>
    rw [@offset?_signed '+' 1 rfl _ _ hhours hminutes, Int.one_mul]
  | behind sign hhours hminutes =>
    have hsign : ∀ c : Char, c = '-' ∨ c = '\u2212' → offsetSign? c = some (-1) := by
      rintro c (rfl | rfl) <;> rfl
    rw [offset?_signed (hsign _ sign) hhours hminutes, Int.neg_one_mul]

/-- Behind an offset's time comes a letter or a sign. -/
theorem endsTime_of_isOffset {minutes : Int} {s : List Char} (h : IsOffset minutes s) :
    EndsTime s := by
  intro c hc
  cases h with
  | universal letter =>
    cases hc
    rcases letter with rfl | rfl <;> decide
  | ahead =>
    cases hc
    decide
  | behind sign =>
    cases hc
    rcases sign with rfl | rfl <;> decide

/-- An offset ends in a letter or a digit. -/
theorem not_isBlank_of_getLast?_offset {minutes : Int} {s : List Char} (h : IsOffset minutes s)
    {c : Char} (hc : s.getLast? = some c) : isBlank c = false := by
  have hsigned : ∀ {sign : Char} {hours minute : Nat},
      (sign :: (padded 2 hours ++ ':' :: padded 2 minute)).getLast? = some c →
        isBlank c = false := by
    intro sign hours minute hlast
    have hsplit : sign :: (padded 2 hours ++ ':' :: padded 2 minute)
        = (sign :: (padded 2 hours ++ [':'])) ++ padded 2 minute := by simp
    rw [hsplit, List.getLast?_append_of_ne_nil _ (padded_ne_nil 2 minute)] at hlast
    exact isBlank_of_isDigit (isDigit_of_mem_padded (List.mem_of_mem_getLast? hlast))
  cases h with
  | universal letter =>
    cases hc
    rcases letter with rfl | rfl <;> rfl
  | ahead => exact hsigned hc
  | behind => exact hsigned hc

namespace DateTime

/-! ### Local time -/

/-- A clock that is set ahead of universal time shows `l` at the moment `t`. Leap seconds are the
same on all clocks. -/
structure IsShown (l : DateTime) (minutes : Int) (t : DateTime) : Prop where
  seconds : l.seconds = t.seconds + 60 * minutes
  nanos : l.nanos = t.nanos

/-- A year has four digits from the first second of year 0 to the last one of year 9999. -/
theorem hasPlainYear_iff_seconds {l : DateTime} :
    l.HasPlainYear ↔ firstSecond 0 ≤ l.seconds ∧ l.seconds < firstSecond 10000 := by
  have hlast : l.date.year ≤ 9999 ↔ ¬10000 ≤ l.date.year := by omega
  rw [HasPlainYear, hlast, le_year_iff_seconds, le_year_iff_seconds, Int.not_le]

/-- A clock shows a year of four digits if the time that it is set to is in one, and then there is a
date-time for it. -/
theorem exists_isShown_iff {t : DateTime} {minutes : Int} :
    (∃ l : DateTime, l.HasPlainYear ∧ l.IsShown minutes t) ↔
      firstSecond 0 ≤ t.seconds + 60 * minutes ∧ t.seconds + 60 * minutes < firstSecond 10000 := by
  constructor
  · rintro ⟨l, hyear, hseconds, -⟩
    rw [← hseconds]
    exact hasPlainYear_iff_seconds.mp hyear
  · rintro ⟨hfrom, hto⟩
    obtain ⟨-, hnanos, hleap⟩ := t.isTime
    -- The calendar begins before year 0 and ends after year 9999.
    have hmin : firstSecond minYear ≤ firstSecond 0 := by decide
    have hmax : firstSecond 10000 ≤ firstSecond (maxYear + 1) := by decide
    -- Whole minutes do not move the end of a minute.
    have hminute : nanosPerSecond ≤ t.nanos → (t.seconds + 60 * minutes) % 60 = 59 := by
      intro h
      have hsecond := hleap h
      have hts : t.seconds = t.date.number * 86400 + t.second := rfl
      omega
    obtain ⟨l, hseconds, hshown⟩ := exists_seconds_eq (Int.le_trans hmin hfrom)
      (Int.lt_of_lt_of_le hto hmax) hnanos hminute
    refine ⟨l, hasPlainYear_iff_seconds.mpr ?_, hseconds, hshown⟩
    rw [hseconds]
    exact ⟨hfrom, hto⟩

/-- What a clock shows is what the moment is an offset earlier than. -/
theorem earlier?_of_isShown {l t : DateTime} {minutes : Int} (h : l.IsShown minutes t)
    (hbounds : -1440 < minutes ∧ minutes < 1440) : l.earlier? minutes = some t :=
  (earlier?_eq_some_iff hbounds).mpr ⟨h.seconds, h.nanos⟩

/-! ### Texts -/

/-- The text of what a clock shows, with a sign between day and time, and an offset. -/
def zonedChars (l : DateTime) (separator : Char) (fraction offset : List Char) : List Char :=
  l.date.chars ++ separator :: (padded 2 l.hour ++ ':' :: (padded 2 l.minute ++
    ':' :: (padded 2 l.clockSecond ++ (fraction ++ offset))))

/-- The text names the moment `t` with an offset: it is what a clock with this offset shows then, in
a year of four digits, with the offset and with any blanks around it. -/
inductive IsZonedText (t : DateTime) : List Char → Prop where
  | mk {l : DateTime} {minutes : Int} {separator : Char} {fraction offset before after : List Char}
      (shown : l.IsShown minutes t) (year : l.HasPlainYear)
      (divides : separator = 'T' ∨ separator = 't' ∨ separator = ' ')
      (counts : IsFraction (t.nanos % nanosPerSecond) fraction) (ends : IsOffset minutes offset)
      (before_blank : ∀ c ∈ before, isBlank c = true)
      (after_blank : ∀ c ∈ after, isBlank c = true) :
      IsZonedText t (before ++ (l.zonedChars separator fraction offset ++ after))

/-- The layout with an offset reads what a clock shows and takes the offset off. -/
theorem zoned?_zonedChars {l : DateTime} (hyear : l.HasPlainYear) {separator : Char}
    (hseparator : separator = 'T' ∨ separator = 't' ∨ separator = ' ') {fraction : List Char}
    (hfraction : IsFraction (l.nanos % nanosPerSecond) fraction) {minutes : Int}
    {offset : List Char} (hoffset : IsOffset minutes offset) :
    zoned? (l.zonedChars separator fraction offset) = l.earlier? minutes := by
  have hdivides : isDaySeparator separator = true := by
    rcases hseparator with rfl | rfl | rfl <;> rfl
  have hread := fraction_of_isFraction hfraction (endsTime_of_isOffset hoffset)
  rw [zonedChars, zoned?, fixedDay_chars hyear]
  simp only [Option.bind_eq_bind, Option.bind_some, List.head?_cons, List.tail_cons, hdivides,
    if_true, fixedTime_clock l hread, offset?_of_isOffset hoffset]

/-- The text of what a clock shows begins with a digit. -/
theorem exists_cons_zonedChars {l : DateTime} (hyear : l.HasPlainYear) (separator : Char)
    (fraction offset : List Char) :
    ∃ c s, l.zonedChars separator fraction offset = c :: s ∧ c.isDigit = true := by
  obtain ⟨c, s, hcons⟩ := List.exists_cons_of_ne_nil (padded_ne_nil 4 l.date.year.toNat)
  have hplain : yearText l.date.year = padded 4 l.date.year.toNat := if_pos hyear
  rw [zonedChars, Date.chars, hplain, hcons]
  exact ⟨c, _, rfl, isDigit_of_mem_padded (hcons ▸ List.mem_cons_self)⟩

/-- The text of what a clock shows ends in the offset. -/
theorem getLast?_zonedChars (l : DateTime) (separator : Char) (fraction : List Char)
    {minutes : Int} {offset : List Char} (h : IsOffset minutes offset) :
    (l.zonedChars separator fraction offset).getLast? = offset.getLast? := by
  have hsplit : l.zonedChars separator fraction offset = (l.date.chars ++ separator ::
      (padded 2 l.hour ++ ':' :: (padded 2 l.minute ++ ':' :: (padded 2 l.clockSecond ++
        fraction)))) ++ offset := by simp [zonedChars]
  have hne : offset ≠ [] := by cases h <;> exact List.cons_ne_nil _ _
  rw [hsplit, List.getLast?_append_of_ne_nil _ hne]

/-- Every text of a moment is read as the moment. -/
theorem readDateTime_of_isZonedText {t : DateTime} {text : String}
    (h : t.IsZonedText text.toList) : Value.readDateTime text = .ok t := by
  generalize hs : text.toList = s at h
  cases h with
  | @mk l minutes separator fraction offset before after shown year divides counts ends
      hbefore hafter =>
    -- The text begins with a digit and ends with the offset, so only the blanks are trimmed.
    obtain ⟨c, r, hcons, hdigit⟩ := exists_cons_zonedChars year separator fraction offset
    have htrim : trim text.toList = l.zonedChars separator fraction offset := by
      rw [hs]
      refine trim_append hbefore hafter (by simp [hcons]) (fun d hd => ?_) fun d hd => ?_
      · rw [hcons] at hd
        cases hd
        exact isBlank_of_isDigit hdigit
      · rw [getLast?_zonedChars l separator fraction ends] at hd
        exact not_isBlank_of_getLast?_offset ends hd
    rw [← shown.nanos] at counts
    rw [Value.readDateTime, htrim, ofTrimmed?, zoned?_zonedChars year divides counts ends,
      earlier?_of_isShown shown (bounds_of_isOffset ends)]
    rfl

end DateTime

end RecordStore.Calendar
