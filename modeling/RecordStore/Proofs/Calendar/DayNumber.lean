import RecordStore.Calendar.DateTime

/-!
# `RecordStore.Proofs.Calendar.DayNumber`: days and seconds as numbers

The days of the calendar are counted from the beginning of year 0, by the rule for leap years and
the lengths of the months. The day after another one is the one with the next number, across the
ends of months and years and leap days. So the clock arithmetic of `earlier?`, which steps over at
most one day, is addition of seconds.

* `daysBeforeYear_succ`: a year has as many days as its months.
* `number_injective`: the number determines the day.
* `next?_eq_some_iff`, `previous?_eq_some_iff`: the neighbours of a day.
* `exists_number_eq`: the days are without gaps.
* `le_year_iff_seconds`, `exists_seconds_eq`: the seconds of a year, and of the calendar.
* `earlier?_eq_some_iff`: a clock that is set back by less than a day.
-/

set_option autoImplicit false

namespace RecordStore.Calendar

/-! ### Years and months -/

/-- The number of days from the first day of year 0 to the first day of a year: every fourth year
has a leap day, but of those that begin a century only every fourth. -/
def daysBeforeYear (year : Int) : Int :=
  365 * year + (year + 3) / 4 - (year + 99) / 100 + (year + 399) / 400

/-- The number of days in the first months of a year. -/
def daysInMonths (year : Int) : Nat → Nat
  | 0 => 0
  | months + 1 => daysInMonths year months + daysInMonth year (months + 1)

/-- The days up to the end of a month are those before it and its own. -/
theorem daysInMonths_eq (year : Int) {month : Nat} (h : 1 ≤ month) :
    daysInMonths year month = daysInMonths year (month - 1) + daysInMonth year month := by
  cases month with
  | zero => cases h
  | succ months => rfl

/-- A year has as many days as its twelve months. -/
theorem daysBeforeYear_succ (year : Int) :
    daysBeforeYear (year + 1) = daysBeforeYear year + daysInMonths year 12 := by
  have hmonths : daysInMonths year 12 = if isLeapYear year then 366 else 365 := by
    cases hleap : isLeapYear year <;> simp [daysInMonths, daysInMonth, hleap]
  rw [hmonths]
  simp only [isLeapYear, Bool.and_eq_true, Bool.or_eq_true, beq_iff_eq, bne_iff_ne]
  unfold daysBeforeYear
  split <;> omega

/-- Later years begin later. -/
theorem daysBeforeYear_mono {y z : Int} (h : y ≤ z) : daysBeforeYear y ≤ daysBeforeYear z := by
  unfold daysBeforeYear
  omega

/-- More months have more days. -/
theorem daysInMonths_mono (year : Int) {m n : Nat} (h : m ≤ n) :
    daysInMonths year m ≤ daysInMonths year n := by
  induction h with
  | refl => exact Nat.le_refl _
  | step _ ih => exact Nat.le_trans ih (Nat.le_add_right _ _)

/-- Every month has a first day. -/
theorem one_le_daysInMonth (year : Int) (month : Nat) : 1 ≤ daysInMonth year month := by
  unfold daysInMonth
  split <;> (try split) <;> decide

namespace Date

/-! ### Days -/

/-- The number of a day, counted from the beginning of year 0. -/
def number (d : Date) : Int :=
  daysBeforeYear d.year + daysInMonths d.year (d.month - 1) + d.day

/-- What is made of parts has these parts, and every day is made of its own. -/
theorem ofParts?_eq_some_iff {year : Int} {month day : Nat} {d : Date} :
    ofParts? year month day = some d ↔ d.year = year ∧ d.month = month ∧ d.day = day := by
  constructor
  · intro h
    rw [ofParts?] at h
    split at h
    · cases h
      exact ⟨rfl, rfl, rfl⟩
    · cases h
  · rintro ⟨rfl, rfl, rfl⟩
    exact ofParts?_self d

/-- A day comes after the months before its own, and its month has room for it. -/
theorem number_bounds_in_year (d : Date) :
    daysBeforeYear d.year + daysInMonths d.year (d.month - 1) < d.number ∧
      d.number ≤ daysBeforeYear d.year + daysInMonths d.year d.month := by
  obtain ⟨-, ⟨hfirst, -⟩, hday⟩ := d.isDate
  have hmonth := daysInMonths_eq d.year hfirst
  unfold number
  omega

/-- A day comes after the years before its own, and before the next year. -/
theorem number_bounds (d : Date) :
    daysBeforeYear d.year < d.number ∧ d.number ≤ daysBeforeYear (d.year + 1) := by
  have hbounds := d.number_bounds_in_year
  have hall := daysInMonths_mono d.year d.isDate.2.1.2
  have hyear := daysBeforeYear_succ d.year
  omega

/-- A day is in a year or a later one if it comes after the years before that year. -/
theorem le_year_iff {d : Date} {year : Int} : year ≤ d.year ↔ daysBeforeYear year < d.number := by
  obtain ⟨hfirst, hlast⟩ := d.number_bounds
  constructor
  · intro h
    have hmono := daysBeforeYear_mono h
    omega
  · intro h
    refine Decidable.byContradiction fun hearlier => ?_
    have hmono := daysBeforeYear_mono (show d.year + 1 ≤ year by omega)
    omega

/-- The number determines the day. -/
theorem number_injective {d e : Date} (h : d.number = e.number) : d = e := by
  have hyear : d.year = e.year := by
    have hde := le_year_iff.mpr (h ▸ le_year_iff.mp (Int.le_refl d.year))
    have hed := le_year_iff.mpr (h.symm ▸ le_year_iff.mp (Int.le_refl e.year))
    omega
  -- If the months differed, a whole month would lie between the two numbers.
  have hmonth : d.month = e.month := by
    have hd := d.number_bounds_in_year
    have he := e.number_bounds_in_year
    rw [hyear] at hd
    rcases Nat.lt_trichotomy d.month e.month with hlt | heq | hlt
    · have := daysInMonths_mono e.year (show d.month ≤ e.month - 1 by omega)
      omega
    · exact heq
    · have := daysInMonths_mono e.year (show e.month ≤ d.month - 1 by omega)
      omega
  have hday : d.day = e.day := by
    rw [number, number, hyear, hmonth] at h
    omega
  have hself := ofParts?_self e
  rw [← hyear, ← hmonth, ← hday, ofParts?_self] at hself
  exact Option.some.inj hself

/-! ### Neighbours -/

/-- The day after another one has the next number. -/
theorem number_of_next? {d e : Date} (h : d.next? = some e) : e.number = d.number + 1 := by
  obtain ⟨-, ⟨hfirst, htwelve⟩, -, hlast⟩ := d.isDate
  have hmonth := daysInMonths_eq d.year hfirst
  rw [next?] at h
  split at h
  · obtain ⟨hy, hm, hd⟩ := ofParts?_eq_some_iff.mp h
    rw [number, number, hy, hm, hd]
    omega
  · have hend : d.day = daysInMonth d.year d.month := by omega
    split at h
    · -- The first day of a month follows the last one of the month before.
      obtain ⟨hy, hm, hd⟩ := ofParts?_eq_some_iff.mp h
      rw [number, number, hy, hm, hd, hend, Nat.add_sub_cancel, hmonth]
      omega
    · -- The first day of a year follows the last one of the year before.
      obtain ⟨hy, hm, hd⟩ := ofParts?_eq_some_iff.mp h
      have htwelfth : d.month = 12 := by omega
      rw [htwelfth] at hmonth hend
      rw [number, number, hy, hm, hd, hend, htwelfth, daysBeforeYear_succ, hmonth, Nat.sub_self,
        daysInMonths]
      omega

/-- Only the last day of the calendar has no day after it. -/
theorem number_of_next?_eq_none {d : Date} (h : d.next? = none) :
    d.number = daysBeforeYear (maxYear + 1) := by
  obtain ⟨⟨hmin, hmax⟩, ⟨hfirst, htwelve⟩, hday, hlast⟩ := d.isDate
  have hmade : ∀ {y : Int} {m n : Nat}, ofParts? y m n = none → ¬IsDate y m n := by
    intro y m n hnone hdate
    rw [ofParts?, dif_pos hdate] at hnone
    cases hnone
  rw [next?] at h
  split at h
  · exact absurd ⟨⟨hmin, hmax⟩, ⟨hfirst, htwelve⟩, by omega, by omega⟩ (hmade h)
  · have hend : d.day = daysInMonth d.year d.month := by omega
    split at h
    · exact absurd ⟨⟨hmin, hmax⟩, ⟨by omega, by omega⟩, Nat.le_refl _, one_le_daysInMonth _ _⟩
        (hmade h)
    · have hyear : d.year = maxYear := by
        refine Decidable.byContradiction fun hne => hmade h ?_
        exact ⟨⟨by omega, by omega⟩, by decide, Nat.le_refl _, one_le_daysInMonth _ _⟩
      have htwelfth : d.month = 12 := by omega
      have hmonth := daysInMonths_eq d.year hfirst
      rw [htwelfth] at hmonth hend
      rw [← hyear, daysBeforeYear_succ, number, hend, htwelfth, hmonth]
      omega

/-- The day after another one is the one with the next number. -/
theorem next?_eq_some_iff {d e : Date} : d.next? = some e ↔ e.number = d.number + 1 := by
  refine ⟨number_of_next?, fun h => ?_⟩
  cases hnext : d.next? with
  | some next => rw [number_injective ((number_of_next? hnext).trans h.symm)]
  | none =>
    -- No day has a number beyond the last one.
    have hlast := number_of_next?_eq_none hnext
    have hbound := e.number_bounds.2
    have hmono := daysBeforeYear_mono (Int.add_le_add_right e.isDate.1.2 1)
    omega

/-- Every number from the first day of the calendar to the last is that of a day. -/
theorem exists_number_eq {n : Int} (hfirst : daysBeforeYear minYear < n)
    (hlast : n ≤ daysBeforeYear (maxYear + 1)) : ∃ d : Date, d.number = n := by
  -- The days are reached from the first one, each by the step from the day before.
  obtain ⟨k, rfl⟩ : ∃ k : Nat, n = daysBeforeYear minYear + 1 + k :=
    ⟨(n - (daysBeforeYear minYear + 1)).toNat, by omega⟩
  clear hfirst
  induction k with
  | zero => exact ⟨⟨minYear, 1, 1, by decide⟩, rfl⟩
  | succ k ih =>
    obtain ⟨d, hd⟩ := ih (by omega)
    cases hnext : d.next? with
    | some e => exact ⟨e, by rw [number_of_next? hnext, hd, Int.natCast_succ, Int.add_assoc]⟩
    | none =>
      have hend := number_of_next?_eq_none hnext
      omega

/-- A step back is a step forward, seen from where it leads. -/
theorem previous?_eq_some_iff_next? {d e : Date} : d.previous? = some e ↔ e.next? = some d := by
  obtain ⟨-, ⟨hdm, hdm'⟩, hdd, hdd'⟩ := d.isDate
  obtain ⟨-, ⟨hem, hem'⟩, hed, hed'⟩ := e.isDate
  have hdecember : ∀ year, daysInMonth year 12 = 31 := fun year => rfl
  constructor
  · intro h
    rw [previous?] at h
    split at h
    · obtain ⟨hy, hm, hd⟩ := ofParts?_eq_some_iff.mp h
      rw [next?, hy, hm, hd, if_pos (by omega), ofParts?_eq_some_iff]
      omega
    · split at h
      · obtain ⟨hy, hm, hd⟩ := ofParts?_eq_some_iff.mp h
        rw [next?, hy, hm, hd, if_neg (Nat.lt_irrefl _), if_pos (by omega), ofParts?_eq_some_iff]
        omega
      · obtain ⟨hy, hm, hd⟩ := ofParts?_eq_some_iff.mp h
        rw [next?, hy, hm, hd, hdecember, if_neg (Nat.lt_irrefl _), if_neg (Nat.lt_irrefl _),
          ofParts?_eq_some_iff]
        omega
  · intro h
    rw [next?] at h
    split at h
    · obtain ⟨hy, hm, hd⟩ := ofParts?_eq_some_iff.mp h
      rw [previous?, hy, hm, hd, if_pos (by omega), ofParts?_eq_some_iff]
      omega
    · have hend : e.day = daysInMonth e.year e.month := by omega
      split at h
      · obtain ⟨hy, hm, hd⟩ := ofParts?_eq_some_iff.mp h
        rw [previous?, hy, hm, hd, if_neg (Nat.lt_irrefl _), if_pos (by omega),
          Nat.add_sub_cancel, ofParts?_eq_some_iff]
        exact ⟨rfl, rfl, hend⟩
      · obtain ⟨hy, hm, hd⟩ := ofParts?_eq_some_iff.mp h
        have htwelfth : e.month = 12 := by omega
        rw [htwelfth, hdecember] at hend
        rw [previous?, hy, hm, hd, if_neg (Nat.lt_irrefl _), if_neg (Nat.lt_irrefl _),
          ofParts?_eq_some_iff]
        omega

/-- The day before another one is the one with the number before. -/
theorem previous?_eq_some_iff {d e : Date} : d.previous? = some e ↔ e.number = d.number - 1 := by
  rw [previous?_eq_some_iff_next?, next?_eq_some_iff]
  omega

end Date

namespace DateTime

/-! ### Clocks -/

/-- What is made of parts has these parts, and every date-time is made of its own. -/
theorem ofParts?_eq_some_iff {date : Date} {second nanos : Nat} {t : DateTime} :
    ofParts? date second nanos = some t ↔ t.date = date ∧ t.second = second ∧ t.nanos = nanos := by
  constructor
  · intro h
    rw [ofParts?] at h
    split at h
    · cases h
      exact ⟨rfl, rfl, rfl⟩
    · cases h
  · rintro ⟨rfl, rfl, rfl⟩
    exact ofParts?_self t

/-- The seconds from the beginning of year 0; a leap second counts as the one before it. -/
def seconds (t : DateTime) : Int :=
  t.date.number * secondsPerDay + t.second

/-- The first second of a year. -/
def firstSecond (year : Int) : Int :=
  (daysBeforeYear year + 1) * secondsPerDay

/-- A moment is in a year or a later one if it does not come before the first second of that
year. -/
theorem le_year_iff_seconds {t : DateTime} {year : Int} :
    year ≤ t.date.year ↔ firstSecond year ≤ t.seconds := by
  have ht := t.isTime.1
  have hday : secondsPerDay = 86400 := rfl
  rw [Date.le_year_iff, firstSecond, seconds, hday]
  omega

/-- Every second of the calendar is that of a moment, with a leap second only at the end of a
minute. -/
theorem exists_seconds_eq {n : Int} {nanos : Nat} (hfirst : firstSecond minYear ≤ n)
    (hlast : n < firstSecond (maxYear + 1)) (hnanos : nanos < 2 * nanosPerSecond)
    (hleap : nanosPerSecond ≤ nanos → n % 60 = 59) :
    ∃ t : DateTime, t.seconds = n ∧ t.nanos = nanos := by
  have hday : secondsPerDay = 86400 := rfl
  rw [firstSecond, hday] at hfirst hlast
  -- Days and the seconds since midnight.
  obtain ⟨days, second, hsecond, rfl⟩ : ∃ (days : Int) (second : Nat), second < 86400 ∧
      n = days * 86400 + second := ⟨n / 86400, (n % 86400).toNat, by omega, by omega⟩
  obtain ⟨d, rfl⟩ := Date.exists_number_eq (n := days) (by omega) (by omega)
  have htime : IsTime second nanos := by
    refine ⟨hsecond, hnanos, fun h => ?_⟩
    have := hleap h
    omega
  exact ⟨⟨d, second, nanos, htime⟩, rfl, rfl⟩

/-- A clock that is set back by less than a day shows the time with as many seconds less, and the
same nanoseconds. -/
theorem earlier?_eq_some_iff {l t : DateTime} {minutes : Int}
    (h : -1440 < minutes ∧ minutes < 1440) :
    l.earlier? minutes = some t ↔ l.seconds = t.seconds + 60 * minutes ∧ l.nanos = t.nanos := by
  have hl := l.isTime.1
  have ht := t.isTime.1
  have hsame : t.date = l.date ↔ t.date.number = l.date.number :=
    ⟨fun heq => heq ▸ rfl, Date.number_injective⟩
  have hday : secondsPerDay = 86400 := rfl
  have hls : l.seconds = l.date.number * 86400 + l.second := rfl
  have hts : t.seconds = t.date.number * 86400 + t.second := rfl
  simp only [earlier?]
  by_cases hbefore : (l.second : Int) - 60 * minutes < 0
  · -- The day before.
    rw [if_pos hbefore]
    simp only [Option.bind_eq_some_iff, ofParts?_eq_some_iff, Date.previous?_eq_some_iff]
    constructor
    · rintro ⟨d, hd, rfl, hs, hn⟩
      omega
    · intro _
      exact ⟨t.date, by omega, rfl, by omega, by omega⟩
  · rw [if_neg hbefore]
    by_cases hwithin : (l.second : Int) - 60 * minutes < secondsPerDay
    · rw [if_pos hwithin, ofParts?_eq_some_iff, hsame]
      omega
    · -- The day after.
      rw [if_neg hwithin]
      simp only [Option.bind_eq_some_iff, ofParts?_eq_some_iff, Date.next?_eq_some_iff]
      constructor
      · rintro ⟨d, hd, rfl, hs, hn⟩
        omega
      · intro _
        exact ⟨t.date, by omega, rfl, by omega, by omega⟩

end DateTime

end RecordStore.Calendar
