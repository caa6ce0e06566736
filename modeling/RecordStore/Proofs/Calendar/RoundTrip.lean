import RecordStore.Calendar.Printer
import RecordStore.Calendar.Reader
import RecordStore.Proofs.Decimal.Padded

/-!
# `RecordStore.Proofs.Calendar.RoundTrip`: a written date-time reads back

The written form of a date-time is read by the second of the four layouts, the one with `T` and
without an offset. The first layout, which is tried before it, does read the day and the time of a
four-digit year, but then it finds no offset; a year with a sign it does not read at all. Part by
part, each reader is shown to take from the text what the printer has put there, whatever follows.

* `zoned?_chars`: the layout with an offset refuses the written form.
* `ofTrimmed?_chars`: the written form reads back, leap seconds and years with a sign included.
* `trim_chars`: the written form has no blanks around it.
* `text_inj`: the written form determines the date-time.
-/

set_option autoImplicit false

namespace RecordStore.Calendar

open RecordStore.Decimal RecordStore.Text

/-! ### Numbers -/

/-- No blanks are skipped in front of a written number. -/
theorem skipBlanks_padded (width n : Nat) (rest : List Char) :
    skipBlanks (padded width n ++ rest) = padded width n ++ rest := by
  apply skipBlanks_of_head
  intro c hc
  obtain ⟨d, s, hcons⟩ := List.exists_cons_of_ne_nil (padded_ne_nil width n)
  rw [hcons, List.cons_append, List.head?_cons, Option.some.injEq] at hc
  subst hc
  exact isBlank_of_isDigit (isDigit_of_mem_padded (by rw [hcons]; exact List.mem_cons_self))

/-- All digits of a written number are taken, and more if there are any behind it. -/
theorem takeWhile_padded (width n : Nat) (rest : List Char) :
    (padded width n ++ rest).takeWhile Char.isDigit
      = padded width n ++ rest.takeWhile Char.isDigit :=
  List.takeWhile_append_of_pos fun _ => isDigit_of_mem_padded

/-- A number of a fixed width is read back. -/
theorem fixedNumber_padded {width n : Nat} (hw : 0 < width) (h : n < tenTo width)
    (rest : List Char) : fixedNumber width (padded width n ++ rest) = some (n, rest) := by
  have hlen := length_padded hw h
  have hdigits : (padded width n).all Char.isDigit = true :=
    List.all_eq_true.mpr fun _ => isDigit_of_mem_padded
  rw [fixedNumber, List.take_left' hlen, List.drop_left' hlen, if_pos ⟨hlen, hdigits⟩,
    value_padded]

/-- A number as long as the reader takes at most is read back, whatever follows. -/
theorem numberUpTo_padded {width n : Nat} (hw : 0 < width) (h : n < tenTo width)
    (rest : List Char) : numberUpTo width (padded width n ++ rest) = some (n, rest) := by
  have hlen := length_padded hw h
  have hne := padded_ne_nil width n
  simp only [numberUpTo, takeWhile_padded, List.take_left' hlen, List.isEmpty_iff, hne, if_false,
    value_padded, List.drop_left]

/-- A number is read back to its end if a character that is no digit follows. -/
theorem wholeNumber_padded (width n : Nat) {c : Char} (hc : c.isDigit = false)
    (rest : List Char) :
    wholeNumber (padded width n ++ c :: rest) = some (n, c :: rest) := by
  have hne := padded_ne_nil width n
  have htake : (padded width n ++ c :: rest).takeWhile Char.isDigit = padded width n := by
    rw [takeWhile_padded, List.takeWhile_cons_of_neg (by simp [hc]), List.append_nil]
  have hdrop : (padded width n ++ c :: rest).dropWhile Char.isDigit = c :: rest := by
    rw [List.dropWhile_append_of_pos fun _ => isDigit_of_mem_padded,
      List.dropWhile_cons_of_neg (by simp [hc])]
  simp only [wholeNumber, htake, hdrop, List.isEmpty_iff, hne, if_false, value_padded]

/-- A number of two digits is read back. -/
theorem shortNumber_padded {n : Nat} (h : n < 100) (rest : List Char) :
    shortNumber (padded 2 n ++ rest) = some (n, rest) := by
  rw [shortNumber, skipBlanks_padded]
  exact numberUpTo_padded (by decide) h rest

/-- A character that is expected is taken. -/
theorem expect_cons (c : Char) (rest : List Char) : expect c (c :: rest) = some rest := by
  rw [expect, if_pos rfl]

/-! ### Fractions of a second -/

/-- A fraction of at most nine digits counts nanoseconds. -/
theorem fraction_padded {width n : Nat} (hw : 0 < width) (hle : width ≤ 9)
    (h : n < tenTo width) :
    fraction ('.' :: padded width n) = some (n * tenTo (9 - width), []) := by
  have hlen := length_padded hw h
  have hne := padded_ne_nil width n
  have htake : (padded width n).takeWhile Char.isDigit = padded width n := by
    simpa using takeWhile_padded width n []
  have hdrop : (padded width n).dropWhile Char.isDigit = [] := by
    rw [← List.append_nil (padded width n),
      List.dropWhile_append_of_pos fun _ => isDigit_of_mem_padded]
    rfl
  -- Filled up to nine digits, the fraction is the number with zeros behind it.
  have hfill : (padded width n ++ List.replicate 9 '0').take 9
      = padded width n ++ List.replicate (9 - width) '0' := by
    rw [List.take_append, List.take_of_length_le (by omega), hlen, List.take_replicate,
      Nat.min_eq_left (by omega)]
  have hvalue : value (padded width n ++ List.replicate (9 - width) '0')
      = n * tenTo (9 - width) := by
    have hpadded := value_padded width n
    rw [value] at hpadded ⊢
    rw [Nat.ofDigitChars_append, hpadded, Nat.ofDigitChars_replicate_zero, Nat.mul_comm]
    rfl
  simp only [fraction, htake, hdrop, List.isEmpty_iff, hne, if_false, hfill, hvalue]

/-- A written fraction is empty, or it has as many digits as its last ones that are not zero
need. -/
theorem fractionText_cases {nanos : Nat} (h : nanos < nanosPerSecond) :
    (nanos = 0 ∧ fractionText nanos = []) ∨
    ∃ width n, 0 < width ∧ width ≤ 9 ∧ n < tenTo width ∧ n * tenTo (9 - width) = nanos ∧
      fractionText nanos = '.' :: padded width n := by
  unfold nanosPerSecond at h
  unfold fractionText
  split
  · exact Or.inl ⟨‹_›, rfl⟩
  · refine Or.inr ?_
    split
    · refine ⟨3, nanos / 1000000, by decide, by decide, ?_, ?_, rfl⟩
      · show nanos / 1000000 < 1000
        omega
      · show nanos / 1000000 * 1000000 = nanos
        omega
    · split
      · refine ⟨6, nanos / 1000, by decide, by decide, ?_, ?_, rfl⟩
        · show nanos / 1000 < 1000000
          omega
        · show nanos / 1000 * 1000 = nanos
          omega
      · exact ⟨9, nanos, by decide, by decide, h, Nat.mul_one nanos, rfl⟩

/-- A written fraction is read back. -/
theorem fraction_fractionText {nanos : Nat} (h : nanos < nanosPerSecond) :
    fraction (fractionText nanos) = some (nanos, []) := by
  rcases fractionText_cases h with ⟨hzero, htext⟩ | ⟨width, n, hw, hle, hn, hvalue, htext⟩
  · rw [htext, hzero]
    rfl
  · rw [htext, fraction_padded hw hle hn, hvalue]

/-! ### Days -/

/-- The month and the day of a date have two digits. -/
theorem Date.lt_hundred (d : Date) : d.month < 100 ∧ d.day < 100 := by
  have hle := DateTime.daysInMonth_le d.year d.month
  have hd := d.isDate
  unfold IsDate at hd
  omega

/-- A written year is read back. -/
theorem lenientYear_yearText (year : Int) (rest : List Char) :
    lenientYear (yearText year ++ '-' :: rest) = some (year, '-' :: rest) := by
  unfold yearText
  split
  · -- Four digits and no sign.
    rename_i h
    have hfits : year.toNat < 10000 := by omega
    have hread := numberUpTo_padded (by decide) (show year.toNat < tenTo 4 from hfits)
      ('-' :: rest)
    obtain ⟨c, s, hcons⟩ := List.exists_cons_of_ne_nil (padded_ne_nil 4 year.toNat)
    have hc : c.isDigit = true :=
      isDigit_of_mem_padded (hcons.symm ▸ List.mem_cons_self)
    have hminus : c ≠ '-' := by rintro rfl; simp at hc
    have hplus : c ≠ '+' := by rintro rfl; simp at hc
    rw [lenientYear, skipBlanks_padded]
    rw [hcons] at hread ⊢
    rw [List.cons_append] at hread ⊢
    split
    · rename_i heq
      exact absurd (List.cons.inj heq).1 hminus
    · rename_i heq
      exact absurd (List.cons.inj heq).1 hplus
    · rw [hread]
      simp only [Option.map_some, Option.some.injEq, Prod.mk.injEq, and_true]
      omega
  · -- A sign and the digits of the magnitude.
    have hread := wholeNumber_padded 4 year.natAbs (c := '-') (by decide) rest
    split
    · have hskip : skipBlanks ('-' :: padded 4 year.natAbs ++ '-' :: rest)
          = '-' :: (padded 4 year.natAbs ++ '-' :: rest) := rfl
      simp only [lenientYear, hskip, hread, Option.map_some, Option.some.injEq, Prod.mk.injEq,
        and_true]
      omega
    · have hskip : skipBlanks ('+' :: padded 4 year.natAbs ++ '-' :: rest)
          = '+' :: (padded 4 year.natAbs ++ '-' :: rest) := rfl
      simp only [lenientYear, hskip, hread, Option.map_some, Option.some.injEq, Prod.mk.injEq,
        and_true]
      omega

/-- The day in front of a text is read in the lenient form. -/
theorem lenientDay_chars (d : Date) (rest : List Char) :
    lenientDay (d.chars ++ rest) = some (d, rest) := by
  have hlt := d.lt_hundred
  have hsplit : d.chars ++ rest = yearText d.year ++
      '-' :: (padded 2 d.month ++ '-' :: (padded 2 d.day ++ rest)) := by
    simp [Date.chars]
  rw [hsplit, lenientDay, lenientYear_yearText]
  simp only [Option.bind_eq_bind, Option.bind_some, expect_cons, shortNumber_padded hlt.1,
    shortNumber_padded hlt.2, Date.ofParts?_self]
  rfl

/-- The day of a four-digit year in front of a text is read with fixed widths. -/
theorem fixedDay_chars {d : Date} (h : 0 ≤ d.year ∧ d.year ≤ 9999) (rest : List Char) :
    fixedDay (d.chars ++ rest) = some (d, rest) := by
  have hlt := d.lt_hundred
  have hsplit : d.chars ++ rest = padded 4 d.year.toNat ++
      '-' :: (padded 2 d.month ++ '-' :: (padded 2 d.day ++ rest)) := by
    simp [Date.chars, yearText, h]
  have hyear : ((d.year.toNat : Nat) : Int) = d.year := by omega
  have hfits : d.year.toNat < 10000 := by omega
  rw [hsplit, fixedDay, fixedNumber_padded (by decide) (show d.year.toNat < tenTo 4 from hfits)]
  simp only [Option.bind_eq_bind, Option.bind_some, expect_cons,
    fixedNumber_padded (by decide) (show d.month < tenTo 2 from hlt.1),
    fixedNumber_padded (by decide) (show d.day < tenTo 2 from hlt.2), hyear,
    Date.ofParts?_self]
  rfl

/-- A day of a year with a sign is not read with fixed widths. -/
theorem fixedDay_signed {d : Date} (h : ¬(0 ≤ d.year ∧ d.year ≤ 9999)) (rest : List Char) :
    fixedDay (d.chars ++ rest) = none := by
  have hfirst : ∃ c s, d.chars ++ rest = c :: s ∧ c.isDigit = false := by
    simp only [Date.chars, yearText, if_neg h]
    split <;> exact ⟨_, _, rfl, by decide⟩
  obtain ⟨c, s, hcons, hc⟩ := hfirst
  have hread : fixedNumber 4 (c :: s) = none := by
    simp [fixedNumber, hc]
  rw [hcons, fixedDay, hread]
  rfl

namespace DateTime

/-! ### Times -/

/-- The parts of the time of day that a clock shows have two digits. -/
theorem clock_lt_hundred (t : DateTime) :
    t.hour < 100 ∧ t.minute < 100 ∧ t.clockSecond < 100 := by
  have ht := t.isTime
  unfold IsTime secondsPerDay nanosPerSecond at ht
  unfold hour minute clockSecond nanosPerSecond
  omega

/-- What a clock shows is the time of day. -/
theorem ofClock?_self (t : DateTime) :
    ofClock? t.date t.hour t.minute t.clockSecond (t.nanos % nanosPerSecond) = some t := by
  have ht := t.isTime
  have hself := ofParts?_self t
  have hmod := Nat.div_add_mod t.second 60
  unfold IsTime secondsPerDay at ht
  have hhour : t.hour < 24 := by unfold hour; omega
  have hminute : t.minute < 60 := by unfold minute; omega
  have hwhole : t.hour * 3600 + t.minute * 60 + t.second % 60 = t.second := by
    unfold hour minute
    omega
  by_cases hleap : t.nanos < nanosPerSecond
  · have hsecond : t.clockSecond = t.second % 60 := by
      rw [clockSecond, Nat.div_eq_of_lt hleap, Nat.add_zero]
    rw [ofClock?, if_pos ⟨hhour, hminute, by omega⟩, hsecond, hwhole, Nat.mod_eq_of_lt hleap,
      hself]
  · -- In a leap second the clock shows 60, and the count goes on from one billion.
    have hlast : t.second % 60 = 59 := ht.2.2 (by omega)
    have hdiv : t.nanos / nanosPerSecond = 1 := by
      unfold nanosPerSecond at ht hleap ⊢
      omega
    have hnanos : nanosPerSecond + t.nanos % nanosPerSecond = t.nanos := by
      have := Nat.div_add_mod t.nanos nanosPerSecond
      rw [hdiv] at this
      omega
    have hsecond : t.clockSecond = 60 := by
      rw [clockSecond, hdiv, hlast]
    rw [hlast] at hwhole
    rw [ofClock?, hsecond, if_neg (by omega), if_pos ⟨hhour, hminute, rfl⟩, hwhole, hnanos, hself]

/-- The count of nanoseconds that is written is less than a second. -/
theorem nanos_mod_lt (t : DateTime) : t.nanos % nanosPerSecond < nanosPerSecond :=
  Nat.mod_lt _ (by decide)

/-- The time of day is read in the lenient form. -/
theorem lenientTime_timeChars (t : DateTime) : lenientTime t.date t.timeChars = some t := by
  obtain ⟨hhour, hminute, hsecond⟩ := t.clock_lt_hundred
  rw [timeChars, lenientTime, shortNumber_padded hhour]
  simp only [Option.bind_eq_bind, Option.bind_some, expect_cons, shortNumber_padded hminute,
    shortNumber_padded hsecond, fraction_fractionText t.nanos_mod_lt, List.isEmpty_nil, if_true]
  exact t.ofClock?_self

/-- The time of day is read with fixed widths, up to what follows it. -/
theorem fixedTime_clock (t : DateTime) {s rest : List Char}
    (hfraction : fraction s = some (t.nanos % nanosPerSecond, rest)) :
    fixedTime t.date (padded 2 t.hour ++ ':' :: (padded 2 t.minute ++
      ':' :: (padded 2 t.clockSecond ++ s))) = some (t, rest) := by
  obtain ⟨hhour, hminute, hsecond⟩ := t.clock_lt_hundred
  rw [fixedTime, fixedNumber_padded (by decide) (show t.hour < tenTo 2 from hhour)]
  simp only [Option.bind_eq_bind, Option.bind_some, expect_cons,
    fixedNumber_padded (by decide) (show t.minute < tenTo 2 from hminute),
    fixedNumber_padded (by decide) (show t.clockSecond < tenTo 2 from hsecond),
    hfraction, t.ofClock?_self]
  rfl

/-- The time of day is read with fixed widths, and nothing is left. -/
theorem fixedTime_timeChars (t : DateTime) : fixedTime t.date t.timeChars = some (t, []) :=
  t.fixedTime_clock (fraction_fractionText t.nanos_mod_lt)

/-! ### Layouts -/

/-- The layout with an offset refuses the written form: there is no offset in it. -/
theorem zoned?_chars (t : DateTime) : zoned? t.chars = none := by
  rw [chars, zoned?]
  by_cases h : 0 ≤ t.date.year ∧ t.date.year ≤ 9999
  · rw [fixedDay_chars h]
    simp only [Option.bind_eq_bind, Option.bind_some, List.head?_cons, List.tail_cons,
      show isDaySeparator 'T' = true from rfl, if_true, fixedTime_timeChars]
    rfl
  · rw [fixedDay_signed h]
    rfl

/-- The layout with `T` and without an offset reads the written form back. -/
theorem separated?_chars (t : DateTime) : separated? t.chars = some t := by
  rw [chars, separated?, lenientDay_chars]
  simp only [Option.bind_eq_bind, Option.bind_some, expect_cons]
  exact t.lenientTime_timeChars

/-- The written form reads back. -/
theorem ofTrimmed?_chars (t : DateTime) : ofTrimmed? t.chars = some t := by
  rw [ofTrimmed?, zoned?_chars, separated?_chars]
  rfl

/-! ### The text as a whole -/

/-- The written form consists of digits, signs and separators, none of them a blank. -/
theorem not_isBlank_of_mem_chars {t : DateTime} {c : Char} (h : c ∈ t.chars) :
    isBlank c = false := by
  have hpadded : ∀ {width n : Nat}, c ∈ padded width n → isBlank c = false :=
    fun hc => isBlank_of_isDigit (isDigit_of_mem_padded hc)
  have hyear : c ∈ yearText t.date.year → isBlank c = false := by
    unfold yearText
    intro hc
    split at hc
    · exact hpadded hc
    · rcases List.mem_cons.mp hc with rfl | hc
      · split <;> rfl
      · exact hpadded hc
  have hfraction : c ∈ fractionText (t.nanos % nanosPerSecond) → isBlank c = false := by
    intro hc
    rcases fractionText_cases t.nanos_mod_lt with ⟨-, htext⟩ | ⟨width, n, -, -, -, -, htext⟩ <;>
      rw [htext] at hc
    · cases hc
    · rcases List.mem_cons.mp hc with rfl | hc
      · rfl
      · exact hpadded hc
  simp only [chars, Date.chars, timeChars, List.mem_append, List.mem_cons] at h
  rcases h with (h | rfl | h | rfl | h) | rfl | h | rfl | h | rfl | h | h <;>
    first | rfl | exact hyear h | exact hpadded h | exact hfraction h

/-- The written form has no blanks around it. -/
theorem trim_chars (t : DateTime) : trim t.chars = t.chars :=
  trim_of_not_blank (fun _ hc => not_isBlank_of_mem_chars (List.mem_of_mem_head? hc))
    fun _ hc => not_isBlank_of_mem_chars (List.mem_of_mem_getLast? hc)

/-- The written form determines the date-time. -/
theorem text_inj {a b : DateTime} : a.text = b.text ↔ a = b := by
  constructor
  · intro h
    have hchars : a.chars = b.chars := String.ofList_injective h
    have hread := ofTrimmed?_chars a
    rw [hchars, ofTrimmed?_chars] at hread
    exact (Option.some.inj hread).symm
  · intro h
    rw [h]

end DateTime

end RecordStore.Calendar
