import RecordStore.Proofs.Calendar.RoundTrip

/-!
# `RecordStore.Proofs.Calendar.TextOrder`: the order of written date-times

A search engine compares the texts that it stores. For years of four digits that is the order of
the date-times themselves. The parts of fixed width decide one after the other, and a leap second,
written as second 60, comes behind second 59. The fraction has no fixed width: it is a sequence of
groups of three digits that ends where only zeros would follow, so a text that ends earlier is the
smaller one.

* `fractionText_lt_iff`: fractions are ordered as their numbers are.
* `text_lt_iff`: written date-times of four-digit years are ordered as the date-times are.
-/

set_option autoImplicit false

namespace RecordStore.Calendar

open RecordStore.Decimal

/-! ### Fractions of a second -/

/-- The weight of the first of `groups + 1` groups of three digits. -/
def groupWeight : Nat → Nat
  | 0 => 1
  | groups + 1 => 1000 * groupWeight groups

/-- A number in groups of three digits, up to the last group that is not zero. -/
def groupText : Nat → Nat → List Char
  | 0, _ => []
  | groups + 1, n =>
    if n = 0 then []
    else padded 3 (n / groupWeight groups) ++ groupText groups (n % groupWeight groups)

/-- A weight is positive. -/
theorem groupWeight_pos (groups : Nat) : 0 < groupWeight groups := by
  induction groups with
  | zero => decide
  | succ groups ih =>
    unfold groupWeight
    omega

/-- Zero has no groups. -/
theorem groupText_zero (groups : Nat) : groupText groups 0 = [] := by
  cases groups <;> rfl

/-- A number that is not zero has a group. -/
theorem groupText_succ {groups n : Nat} (h : n ≠ 0) :
    groupText (groups + 1) n
      = padded 3 (n / groupWeight groups) ++ groupText groups (n % groupWeight groups) := by
  rw [groupText, if_neg h]

/-- Texts of groups are ordered as their numbers are. -/
theorem groupText_lt_iff {groups m n : Nat} (hm : m < groupWeight groups)
    (hn : n < groupWeight groups) : groupText groups m < groupText groups n ↔ m < n := by
  induction groups generalizing m n with
  | zero =>
    have hm0 : m = 0 := Nat.lt_one_iff.mp hm
    have hn0 : n = 0 := Nat.lt_one_iff.mp hn
    subst hm0 hn0
    decide
  | succ groups ih =>
    have hpos := groupWeight_pos groups
    unfold groupWeight at hm hn
    by_cases hn0 : n = 0
    · simp [hn0, groupText_zero]
    · by_cases hm0 : m = 0
      · -- The text of zero is empty, and any other text has a first character.
        obtain ⟨c, s, hcons⟩ :=
          List.exists_cons_of_ne_nil (padded_ne_nil 3 (n / groupWeight groups))
        rw [hm0, groupText_zero, groupText_succ hn0, hcons, List.cons_append]
        exact iff_of_true (List.nil_lt_cons _ _) (Nat.pos_of_ne_zero hn0)
      · have hmquot : m / groupWeight groups < tenTo 3 :=
          Nat.div_lt_of_lt_mul (by rw [Nat.mul_comm]; exact hm)
        have hnquot : n / groupWeight groups < tenTo 3 :=
          Nat.div_lt_of_lt_mul (by rw [Nat.mul_comm]; exact hn)
        rw [groupText_succ hm0, groupText_succ hn0,
          padded_append_lt_iff (by decide) hmquot hnquot,
          ih (Nat.mod_lt m hpos) (Nat.mod_lt n hpos)]
        -- The quotient decides, and where it is the same the remainder does.
        have hmdiv := Nat.div_add_mod m (groupWeight groups)
        have hndiv := Nat.div_add_mod n (groupWeight groups)
        have hmmod := Nat.mod_lt m hpos
        have hnmod := Nat.mod_lt n hpos
        generalize m / groupWeight groups = p at *
        generalize n / groupWeight groups = q at *
        generalize groupWeight groups = w at *
        constructor
        · rintro (hlt | ⟨rfl, hlt⟩)
          · have : w * (p + 1) ≤ w * q := Nat.mul_le_mul_left _ hlt
            rw [Nat.mul_add] at this
            omega
          · omega
        · intro hlt
          rcases Nat.lt_trichotomy p q with h | rfl | h
          · exact Or.inl h
          · exact Or.inr ⟨rfl, by omega⟩
          · have : w * (q + 1) ≤ w * p := Nat.mul_le_mul_left _ h
            rw [Nat.mul_add] at this
            omega

/-- A written fraction is the point and the groups of its nanoseconds. -/
theorem fractionText_eq_groupText {nanos : Nat} (h : nanos < nanosPerSecond) :
    fractionText nanos = if nanos = 0 then [] else '.' :: groupText 3 nanos := by
  unfold nanosPerSecond at h
  have hsix : padded 6 (nanos / 1000)
      = padded 3 (nanos / 1000 / 1000) ++ padded 3 (nanos / 1000 % 1000) :=
    padded_add (v := 3) (w := 3) (by decide) (by decide)
      (show nanos / 1000 < 1000 * 1000 by omega)
  have hnine : padded 9 nanos
      = padded 3 (nanos / 1000000) ++ padded 6 (nanos % 1000000) :=
    padded_add (v := 3) (w := 6) (by decide) (by decide)
      (show nanos < 1000 * 1000000 by omega)
  have htail : padded 6 (nanos % 1000000)
      = padded 3 (nanos % 1000000 / 1000) ++ padded 3 (nanos % 1000000 % 1000) :=
    padded_add (v := 3) (w := 3) (by decide) (by decide)
      (show nanos % 1000000 < 1000 * 1000 by omega)
  have hquot : nanos / 1000 / 1000 = nanos / 1000000 := by omega
  have hmid : nanos / 1000 % 1000 = nanos % 1000000 / 1000 := by omega
  have hlow : nanos % 1000000 % 1000 = nanos % 1000 := by omega
  unfold fractionText
  split
  · rfl
  · rename_i hne
    rw [groupText_succ hne]
    simp only [groupWeight]
    split
    · rename_i hmillis
      rw [hmillis, groupText_zero, List.append_nil]
    · rename_i hmillis
      rw [groupText_succ hmillis]
      simp only [groupWeight]
      split
      · rename_i hmicros
        rw [hlow, hmicros, groupText_zero, List.append_nil, hsix, hquot, hmid]
      · rename_i hmicros
        rw [hlow, groupText_succ hmicros, hnine, htail, hlow]
        simp [groupText, groupWeight]

/-- Written fractions are ordered as their numbers are. -/
theorem fractionText_lt_iff {m n : Nat} (hm : m < nanosPerSecond) (hn : n < nanosPerSecond) :
    fractionText m < fractionText n ↔ m < n := by
  rw [fractionText_eq_groupText hm, fractionText_eq_groupText hn]
  by_cases hn0 : n = 0
  · simp [hn0]
  · by_cases hm0 : m = 0
    · rw [if_pos hm0, if_neg hn0, hm0]
      exact iff_of_true (List.nil_lt_cons _ _) (Nat.pos_of_ne_zero hn0)
    · rw [if_neg hm0, if_neg hn0, List.cons_lt_cons_self]
      exact groupText_lt_iff hm hn

/-! ### Date-times -/

namespace DateTime

/-- The year is written with four digits and no sign. -/
def HasPlainYear (t : DateTime) : Prop :=
  0 ≤ t.date.year ∧ t.date.year ≤ 9999

instance (t : DateTime) : Decidable t.HasPlainYear :=
  inferInstanceAs (Decidable (_ ∧ _))

/-- The written form of a date-time of a four-digit year, part by part. -/
theorem chars_of_plainYear {t : DateTime} (h : t.HasPlainYear) :
    t.chars = padded 4 t.date.year.toNat ++ '-' :: (padded 2 t.date.month ++
      '-' :: (padded 2 t.date.day ++ 'T' :: (padded 2 t.hour ++ ':' :: (padded 2 t.minute ++
        ':' :: (padded 2 t.clockSecond ++ fractionText (t.nanos % nanosPerSecond)))))) := by
  have hyear : yearText t.date.year = padded 4 t.date.year.toNat := if_pos h
  simp [chars, Date.chars, timeChars, hyear]

/-- The times of two days are ordered by what a clock shows, part by part. -/
theorem clock_lt_iff (a b : DateTime) :
    (a.hour < b.hour ∨ a.hour = b.hour ∧ (a.minute < b.minute ∨ a.minute = b.minute ∧
      (a.clockSecond < b.clockSecond ∨ a.clockSecond = b.clockSecond ∧
        a.nanos % nanosPerSecond < b.nanos % nanosPerSecond)))
    ↔ a.second < b.second ∨ a.second = b.second ∧ a.nanos < b.nanos := by
  have ha := a.isTime
  have hb := b.isTime
  unfold IsTime secondsPerDay nanosPerSecond at ha hb
  unfold hour minute clockSecond nanosPerSecond
  omega

/-- The place of a date-time among all others is decided by its parts, one after the other. -/
theorem instant_lt_iff (a b : DateTime) :
    a.instant < b.instant ↔ a.date.year < b.date.year ∨ a.date.year = b.date.year ∧
      (a.date.month < b.date.month ∨ a.date.month = b.date.month ∧
        (a.date.day < b.date.day ∨ a.date.day = b.date.day ∧
          (a.second < b.second ∨ a.second = b.second ∧ a.nanos < b.nanos))) := by
  have hda := a.date.isDate
  have hdb := b.date.isDate
  have hla := daysInMonth_le a.date.year a.date.month
  have hlb := daysInMonth_le b.date.year b.date.month
  have ha := a.isTime
  have hb := b.isTime
  unfold IsDate at hda hdb
  unfold IsTime secondsPerDay nanosPerSecond at ha hb
  unfold instant secondsPerDay nanosPerSecond
  omega

/-- Written date-times of four-digit years are ordered as the date-times are. -/
theorem text_lt_iff {a b : DateTime} (ha : a.HasPlainYear) (hb : b.HasPlainYear) :
    a.text < b.text ↔ a.instant < b.instant := by
  have hda := a.date.lt_hundred
  have hdb := b.date.lt_hundred
  have hca := a.clock_lt_hundred
  have hcb := b.clock_lt_hundred
  have hya : a.date.year.toNat < tenTo 4 := show a.date.year.toNat < 10000 by
    unfold HasPlainYear at ha
    omega
  have hyb : b.date.year.toNat < tenTo 4 := show b.date.year.toNat < 10000 by
    unfold HasPlainYear at hb
    omega
  have htwo : ∀ {m n : Nat}, m < 100 → n < 100 → ∀ r s : List Char,
      padded 2 m ++ r < padded 2 n ++ s ↔ m < n ∨ m = n ∧ r < s :=
    fun hm hn => padded_append_lt_iff (by decide) hm hn
  have hyear : a.date.year.toNat < b.date.year.toNat ↔ a.date.year < b.date.year := by
    unfold HasPlainYear at ha hb
    omega
  have hyear' : a.date.year.toNat = b.date.year.toNat ↔ a.date.year = b.date.year := by
    unfold HasPlainYear at ha hb
    omega
  rw [String.lt_iff, text, text, String.toList_ofList, String.toList_ofList,
    chars_of_plainYear ha, chars_of_plainYear hb,
    padded_append_lt_iff (by decide) hya hyb, List.cons_lt_cons_self, htwo hda.1 hdb.1,
    List.cons_lt_cons_self, htwo hda.2 hdb.2, List.cons_lt_cons_self, htwo hca.1 hcb.1,
    List.cons_lt_cons_self, htwo hca.2.1 hcb.2.1, List.cons_lt_cons_self, htwo hca.2.2 hcb.2.2,
    fractionText_lt_iff a.nanos_mod_lt b.nanos_mod_lt, clock_lt_iff, hyear, hyear',
    ← instant_lt_iff]

end DateTime

end RecordStore.Calendar
