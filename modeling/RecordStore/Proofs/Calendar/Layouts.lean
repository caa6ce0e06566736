import RecordStore.Proofs.Calendar.RoundTrip
import RecordStore.Value.Json

/-!
# `RecordStore.Proofs.Calendar.Layouts`: no text has two layouts

The four layouts of date-times are tried in turn, and three of them are lenient. Still a text is
readable in one of them at most. A text in the first layout ends in an offset, and in the others
nothing that is taken behind the day can be part of one. The other three begin with the same day,
and what follows it tells them apart: a `T`, a time without it, or nothing.

* `Leaves`: what a reader takes, said of each reader.
* `lenient_cases`: what a text in a lenient layout consists of.
* `lenient_eq_none_of_offset?`: no lenient layout reads a text that ends in an offset.
* `layouts_pairwise`: of two layouts at least one refuses.
* `layouts_exclusive`: the result is the same in every order in which the layouts are tried.
-/

set_option autoImplicit false

namespace RecordStore.Calendar

open RecordStore.Decimal RecordStore.Text

/-! ### What a reader takes -/

/-- What is left of `s` when some characters, all with the property `p`, have been taken is
`rest`. -/
def Leaves (p : Char → Prop) (s rest : List Char) : Prop :=
  ∃ taken, s = taken ++ rest ∧ ∀ c ∈ taken, p c

/-- What a character is expected in front of begins with it. -/
theorem eq_cons_of_expect {c : Char} {s rest : List Char} (h : expect c s = some rest) :
    s = c :: rest := by
  cases s with
  | nil => cases h
  | cons d s =>
    rw [expect] at h
    split at h
    · rename_i hd
      cases h
      rw [hd]
    · cases h

namespace Leaves

variable {p q : Char → Prop} {s t rest : List Char}

/-- More can be taken of what is left. -/
theorem trans (h : Leaves p s t) (h' : Leaves p t rest) : Leaves p s rest := by
  obtain ⟨first, rfl, hfirst⟩ := h
  obtain ⟨second, rfl, hsecond⟩ := h'
  refine ⟨first ++ second, (List.append_assoc ..).symm, fun c hc => ?_⟩
  exact (List.mem_append.mp hc).elim (hfirst c) (hsecond c)

/-- What has one property has every weaker one. -/
theorem imp (h : Leaves p s rest) (hpq : ∀ c, p c → q c) : Leaves q s rest := by
  obtain ⟨taken, heq, htaken⟩ := h
  exact ⟨taken, heq, fun c hc => hpq c (htaken c hc)⟩

/-- Where nothing is left all characters have the property. -/
theorem forall_mem (h : Leaves p s []) : ∀ c ∈ s, p c := by
  obtain ⟨taken, rfl, htaken⟩ := h
  rwa [List.append_nil]

/-- The characters at the front that pass a test can be taken. -/
theorem dropWhile (test : Char → Bool) (s : List Char) :
    Leaves (fun c => test c = true) s (s.dropWhile test) :=
  ⟨s.takeWhile test, List.takeWhile_append_dropWhile.symm, List.all_eq_true.mp List.all_takeWhile⟩

/-- One character can be taken. -/
theorem cons {c : Char} (hc : p c) (s : List Char) : Leaves p (c :: s) s :=
  ⟨[c], rfl, fun _ hd => List.mem_singleton.mp hd ▸ hc⟩

/-- A reader that expects a character takes it. -/
theorem expect {c : Char} (h : expect c s = some rest) (hc : p c) : Leaves p s rest := by
  rw [eq_cons_of_expect h]
  exact .cons hc rest

/-- The reader of numbers of a fixed width takes digits. -/
theorem fixedNumber {width n : Nat} (h : fixedNumber width s = some (n, rest)) :
    Leaves (fun c => c.isDigit = true) s rest := by
  rw [Calendar.fixedNumber] at h
  split at h
  · rename_i hdigits
    cases h
    exact ⟨s.take width, (List.take_append_drop width s).symm, List.all_eq_true.mp hdigits.2⟩
  · cases h

/-- The reader of numbers up to a width takes digits. -/
theorem numberUpTo {width n : Nat} (h : numberUpTo width s = some (n, rest)) :
    Leaves (fun c => c.isDigit = true) s rest := by
  simp only [Calendar.numberUpTo] at h
  split at h
  · cases h
  · cases h
    have hprefix := (List.take_prefix width (s.takeWhile Char.isDigit)).trans
      (List.takeWhile_prefix Char.isDigit)
    exact ⟨_, (List.prefix_iff_eq_append.mp hprefix).symm, fun _ hc =>
      List.all_eq_true.mp List.all_takeWhile _ (List.mem_of_mem_take hc)⟩

/-- The reader of numbers of any width takes digits. -/
theorem wholeNumber {n : Nat} (h : wholeNumber s = some (n, rest)) :
    Leaves (fun c => c.isDigit = true) s rest := by
  simp only [Calendar.wholeNumber] at h
  split at h
  · cases h
  · cases h
    exact .dropWhile Char.isDigit s

/-- The reader of short numbers takes blanks and digits. -/
theorem shortNumber {n : Nat} (h : shortNumber s = some (n, rest)) :
    Leaves (fun c => isBlank c = true ∨ c.isDigit = true) s rest :=
  ((Leaves.dropWhile isBlank s).imp fun _ => .inl).trans
    ((Leaves.numberUpTo h).imp fun _ => .inr)

/-- The reader of fractions takes digits and a point. -/
theorem fraction {n : Nat} (h : fraction s = some (n, rest)) :
    Leaves (fun c => c.isDigit = true ∨ c = '.') s rest := by
  unfold Calendar.fraction at h
  split at h
  · rename_i digits
    simp only [Option.ite_none_left_eq_some, Option.some.injEq, Prod.mk.injEq] at h
    obtain ⟨-, -, rfl⟩ := h
    exact (Leaves.cons (.inr rfl) digits).trans ((Leaves.dropWhile _ digits).imp fun _ => .inl)
  · cases h
    exact ⟨[], rfl, fun _ hc => nomatch hc⟩

end Leaves

/-! ### Lenient days and times -/

/-- The character can stand in a lenient day. -/
def IsDayChar (c : Char) : Prop :=
  isBlank c = true ∨ c.isDigit = true ∨ c = '-' ∨ c = '+'

/-- The character can stand in a lenient time. -/
def IsTimeChar (c : Char) : Prop :=
  isBlank c = true ∨ c.isDigit = true ∨ c = ':' ∨ c = '.'

/-- The reader of lenient years takes blanks, a sign and digits. -/
theorem Leaves.lenientYear {year : Int} {s rest : List Char}
    (h : lenientYear s = some (year, rest)) : Leaves IsDayChar s rest := by
  have hblanks : Leaves IsDayChar s (skipBlanks s) :=
    (Leaves.dropWhile isBlank s).imp fun _ => .inl
  have hdigit : ∀ c : Char, c.isDigit = true → IsDayChar c := fun _ hc => .inr (.inl hc)
  refine hblanks.trans ?_
  rw [Calendar.lenientYear] at h
  generalize skipBlanks s = s at *
  split at h
  · obtain ⟨⟨n, r⟩, hn, heq⟩ := Option.map_eq_some_iff.mp h
    cases heq
    exact (Leaves.cons (.inr (.inr (.inl rfl))) _).trans ((Leaves.wholeNumber hn).imp hdigit)
  · obtain ⟨⟨n, r⟩, hn, heq⟩ := Option.map_eq_some_iff.mp h
    cases heq
    exact (Leaves.cons (.inr (.inr (.inr rfl))) _).trans ((Leaves.wholeNumber hn).imp hdigit)
  · obtain ⟨⟨n, r⟩, hn, heq⟩ := Option.map_eq_some_iff.mp h
    cases heq
    exact (Leaves.numberUpTo hn).imp hdigit

/-- The reader of lenient days takes three numbers with hyphens between them. -/
theorem Leaves.lenientDay {date : Date} {s rest : List Char}
    (h : lenientDay s = some (date, rest)) : Leaves IsDayChar s rest := by
  simp only [Calendar.lenientDay, Option.bind_eq_bind, Option.bind_eq_some_iff, Prod.exists] at h
  obtain ⟨year, s₁, hyear, s₂, hfirst, month, s₃, hmonth, s₄, hsecond, day, s₅, hday, d, -, heq⟩ :=
    h
  cases heq
  have hhyphen : IsDayChar '-' := .inr (.inr (.inl rfl))
  have hshort : ∀ c : Char, isBlank c = true ∨ c.isDigit = true → IsDayChar c :=
    fun _ hc => hc.imp id .inl
  exact (Leaves.lenientYear hyear).trans <| (Leaves.expect hfirst hhyphen).trans <|
    ((Leaves.shortNumber hmonth).imp hshort).trans <| (Leaves.expect hsecond hhyphen).trans <|
    (Leaves.shortNumber hday).imp hshort

/-- The text ends in a time: behind its first colon stand another one and nothing that can stand in
no time. -/
def EndsInTime (s : List Char) : Prop :=
  ∃ front behind, s = front ++ ':' :: behind ∧ ':' ∉ front ∧ ':' ∈ behind ∧
    ∀ c ∈ behind, IsTimeChar c

/-- More text without a colon can stand in front of a time. -/
theorem EndsInTime.append {s front : List Char} (h : EndsInTime s) (hfront : ':' ∉ front) :
    EndsInTime (front ++ s) := by
  obtain ⟨hour, behind, rfl, hhour, hcolon, hbehind⟩ := h
  refine ⟨front ++ hour, behind, (List.append_assoc ..).symm, fun hmem => ?_, hcolon, hbehind⟩
  exact (List.mem_append.mp hmem).elim hfront hhour

/-- A lenient time is an hour and, behind a colon, a minute and a second with a colon between
them. -/
theorem endsInTime_of_lenientTime {date : Date} {s : List Char} {t : DateTime}
    (h : lenientTime date s = some t) : EndsInTime s := by
  simp only [lenientTime, Option.bind_eq_bind, Option.bind_eq_some_iff, Prod.exists] at h
  obtain ⟨hour, s₁, hhour, s₂, hfirst, minute, s₃, hminute, s₄, hsecond, second, s₅, hseconds,
    nanos, s₆, hfraction, hrest⟩ := h
  split at hrest
  · rename_i hempty
    rw [List.isEmpty_iff] at hempty
    subst hempty
    have hcolon : IsTimeChar ':' := .inr (.inr (.inl rfl))
    have hshort : ∀ c : Char, isBlank c = true ∨ c.isDigit = true → IsTimeChar c :=
      fun _ hc => hc.imp id .inl
    have hpoint : ∀ c : Char, c.isDigit = true ∨ c = '.' → IsTimeChar c :=
      fun _ hc => .inr (hc.imp id .inr)
    obtain ⟨front, rfl, hfront⟩ := Leaves.shortNumber hhour
    have hminutes := (Leaves.shortNumber hminute).imp hshort
    rw [eq_cons_of_expect hsecond] at hminutes
    have hbehind : Leaves IsTimeChar s₂ [] :=
      hminutes.trans <| (Leaves.cons hcolon s₄).trans <|
        ((Leaves.shortNumber hseconds).imp hshort).trans <| (Leaves.fraction hfraction).imp hpoint
    refine ⟨front, s₂, by rw [eq_cons_of_expect hfirst], fun hmem => ?_, ?_, hbehind.forall_mem⟩
    · exact absurd (hfront ':' hmem) (by decide)
    · obtain ⟨taken, rfl, -⟩ := hminutes
      exact List.mem_append_right _ List.mem_cons_self
  · cases hrest

/-! ### Offsets -/

/-- The lenient layouts: a day and `T` and a time, a day and a time, and a day. -/
def lenientLayouts : List (List Char → Option DateTime) :=
  [separated?, spaced?, dayOnly?]

/-- No colon stands in a day. -/
theorem colon_not_mem {s : List Char} (h : ∀ c ∈ s, IsDayChar c) : ':' ∉ s := by
  intro hmem
  have hday := h ':' hmem
  unfold IsDayChar at hday
  revert hday
  decide

/-- A text in a lenient layout consists of what can stand in a day, or it ends in a time. -/
theorem lenient_cases {layout : List Char → Option DateTime} (hlayout : layout ∈ lenientLayouts)
    {s : List Char} {t : DateTime} (h : layout s = some t) :
    (∀ c ∈ s, IsDayChar c) ∨ EndsInTime s := by
  simp only [lenientLayouts, List.mem_cons, List.not_mem_nil, or_false] at hlayout
  rcases hlayout with rfl | rfl | rfl
  · simp only [separated?, Option.bind_eq_bind, Option.bind_eq_some_iff, Prod.exists] at h
    obtain ⟨date, s₁, hday, s₂, hT, htime⟩ := h
    obtain ⟨day, rfl, hdaychars⟩ := Leaves.lenientDay hday
    have hfront : ':' ∉ day ++ ['T'] := by simpa using colon_not_mem hdaychars
    refine .inr ?_
    rw [eq_cons_of_expect hT, ← List.singleton_append, ← List.append_assoc]
    exact (endsInTime_of_lenientTime htime).append hfront
  · simp only [spaced?, Option.bind_eq_bind, Option.bind_eq_some_iff, Prod.exists] at h
    obtain ⟨date, s₁, hday, htime⟩ := h
    obtain ⟨day, rfl, hdaychars⟩ := Leaves.lenientDay hday
    exact .inr ((endsInTime_of_lenientTime htime).append (colon_not_mem hdaychars))
  · simp only [dayOnly?, Option.bind_eq_bind, Option.bind_eq_some_iff, Prod.exists] at h
    obtain ⟨date, rest, hday, hrest⟩ := h
    split at hrest
    · rename_i hempty
      rw [List.isEmpty_iff] at hempty
      subst hempty
      exact .inl (Leaves.lenientDay hday).forall_mem
    · cases hrest

/-- Letters and signs stand in no time. -/
theorem not_isTimeChar {c : Char} (h : c ∈ ['Z', 'z', '+', '-', '\u2212']) : ¬IsTimeChar c := by
  simp only [List.mem_cons, List.not_mem_nil, or_false] at h
  rcases h with rfl | rfl | rfl | rfl | rfl <;> unfold IsTimeChar <;> decide

/-- A digit is no colon. -/
theorem count_colon_of_digits {s : List Char} (h : ∀ c ∈ s, c.isDigit = true) :
    s.count ':' = 0 := by
  refine List.count_eq_zero.mpr fun hc => ?_
  cases h ':' hc

/-- An offset begins with a character that stands in no time, holds one that stands in no day, and
has at most one colon. -/
theorem exists_cons_of_offset? {s : List Char} {minutes : Int} (h : offset? s = some minutes) :
    ∃ c rest, s = c :: rest ∧ ¬IsTimeChar c ∧ rest.count ':' ≤ 1 ∧ ∃ d ∈ s, ¬IsDayChar d := by
  cases s with
  | nil => cases h
  | cons c rest =>
    rw [offset?] at h
    split at h
    · rename_i hutc
      simp only [Bool.and_eq_true, Bool.or_eq_true, decide_eq_true_eq, List.isEmpty_iff] at hutc
      obtain ⟨hc, rfl⟩ := hutc
      refine ⟨c, [], rfl, not_isTimeChar ?_, Nat.zero_le _, c, List.mem_cons_self, ?_⟩
      · rcases hc with rfl | rfl <;> decide
      · rcases hc with rfl | rfl <;> unfold IsDayChar <;> decide
    · simp only [Option.bind_eq_bind, Option.bind_eq_some_iff, Prod.exists] at h
      obtain ⟨sign, hsign, hours, s₁, hhours, s₂, hcolon, minute, s₃, hminute, hrest⟩ := h
      split at hrest
      · rename_i hbounds
        simp only [Bool.and_eq_true, List.isEmpty_iff] at hbounds
        obtain ⟨-, rfl⟩ := hbounds
        obtain ⟨hh, rfl, hhdigits⟩ := Leaves.fixedNumber hhours
        have hmdigits := (Leaves.fixedNumber hminute).forall_mem
        cases eq_cons_of_expect hcolon
        refine ⟨c, _, rfl, not_isTimeChar ?_, ?_, ':', ?_, ?_⟩
        · unfold offsetSign? at hsign
          split at hsign
          · rename_i hplus
            simp [hplus]
          · split at hsign
            · rename_i hminus
              simp only [Bool.or_eq_true, decide_eq_true_eq] at hminus
              rcases hminus with rfl | rfl <;> simp
            · cases hsign
        · have hhours := count_colon_of_digits hhdigits
          have hminutes := count_colon_of_digits hmdigits
          rw [List.count_append, List.count_cons_self]
          omega
        · simp
        · unfold IsDayChar
          decide
      · cases hrest

/-- No lenient layout reads a text that ends in an offset. -/
theorem lenient_eq_none_of_offset? {layout : List Char → Option DateTime}
    (hlayout : layout ∈ lenientLayouts) {body offset : List Char} {minutes : Int}
    (h : offset? offset = some minutes) : layout (body ++ offset) = none := by
  obtain ⟨c, rest, rfl, htime, hcount, d, hd, hday⟩ := exists_cons_of_offset? h
  cases hread : layout (body ++ c :: rest) with
  | none => rfl
  | some t =>
    rcases lenient_cases hlayout hread with hall | ⟨front, behind, heq, -, hcolon, hbehind⟩
    · exact absurd (hall d (List.mem_append_right _ hd)) hday
    · -- The sign cannot stand behind the first colon of the time, and before it the offset would
      -- have both colons.
      exfalso
      rcases List.append_eq_append_iff.mp heq with ⟨between, -, hoffset⟩ | ⟨between, -, htail⟩
      · rcases List.cons_eq_append_iff.mp hoffset with ⟨-, hhead⟩ | ⟨between, -, hrest⟩
        · cases hhead
          exact htime (.inr (.inr (.inl rfl)))
        · have hpos := List.count_pos_iff.mpr hcolon
          rw [hrest, List.count_append, List.count_cons_self] at hcount
          omega
      · have hmem : c ∈ ':' :: behind := htail ▸ List.mem_append_right _ List.mem_cons_self
        rcases List.mem_cons.mp hmem with rfl | hmem
        · exact htime (.inr (.inr (.inl rfl)))
        · exact htime (hbehind c hmem)

/-- No lenient layout reads a text in which, behind a colon, something stands that can stand in no
time, such as a sign or a letter. -/
theorem lenient_eq_none_of_colon {layout : List Char → Option DateTime}
    (hlayout : layout ∈ lenientLayouts) {before after : List Char} {c : Char}
    (hcolon : ':' ∈ before) (hc : ¬IsTimeChar c) : layout (before ++ c :: after) = none := by
  cases hread : layout (before ++ c :: after) with
  | none => rfl
  | some t =>
    exfalso
    rcases lenient_cases hlayout hread with hall | ⟨front, behind, heq, hfront, -, hbehind⟩
    · exact colon_not_mem hall (List.mem_append_left _ hcolon)
    · -- The colon is the first one of the time or stands behind it.
      rcases List.append_eq_append_iff.mp heq with ⟨between, rfl, -⟩ | ⟨between, -, htail⟩
      · exact hfront (List.mem_append_left _ hcolon)
      · have hmem : c ∈ ':' :: behind := htail ▸ List.mem_append_right _ List.mem_cons_self
        rcases List.mem_cons.mp hmem with rfl | hmem
        · exact hc (.inr (.inr (.inl rfl)))
        · exact hc (hbehind c hmem)

/-- The reader of days with fixed widths takes three numbers with hyphens between them. -/
theorem Leaves.fixedDay {date : Date} {s rest : List Char}
    (h : fixedDay s = some (date, rest)) : Leaves IsDayChar s rest := by
  simp only [Calendar.fixedDay, Option.bind_eq_bind, Option.bind_eq_some_iff, Prod.exists] at h
  obtain ⟨year, s₁, hyear, s₂, hfirst, month, s₃, hmonth, s₄, hsecond, day, s₅, hday, d, -, heq⟩ :=
    h
  cases heq
  have hhyphen : IsDayChar '-' := .inr (.inr (.inl rfl))
  have hdigit : ∀ c : Char, c.isDigit = true → IsDayChar c := fun _ hc => .inr (.inl hc)
  exact ((Leaves.fixedNumber hyear).imp hdigit).trans <| (Leaves.expect hfirst hhyphen).trans <|
    ((Leaves.fixedNumber hmonth).imp hdigit).trans <| (Leaves.expect hsecond hhyphen).trans <|
    (Leaves.fixedNumber hday).imp hdigit

/-- The reader of times with fixed widths takes three numbers with colons between them and a
fraction. -/
theorem Leaves.fixedTime {date : Date} {s rest : List Char} {t : DateTime}
    (h : fixedTime date s = some (t, rest)) : Leaves IsTimeChar s rest := by
  simp only [Calendar.fixedTime, Option.bind_eq_bind, Option.bind_eq_some_iff, Prod.exists] at h
  obtain ⟨hour, s₁, hhour, s₂, hfirst, minute, s₃, hminute, s₄, hsecond, second, s₅, hseconds,
    nanos, s₆, hfraction, made, -, heq⟩ := h
  cases heq
  have hcolon : IsTimeChar ':' := .inr (.inr (.inl rfl))
  have hdigit : ∀ c : Char, c.isDigit = true → IsTimeChar c := fun _ hc => .inr (.inl hc)
  have hpoint : ∀ c : Char, c.isDigit = true ∨ c = '.' → IsTimeChar c :=
    fun _ hc => .inr (hc.imp id .inr)
  exact ((Leaves.fixedNumber hhour).imp hdigit).trans <| (Leaves.expect hfirst hcolon).trans <|
    ((Leaves.fixedNumber hminute).imp hdigit).trans <| (Leaves.expect hsecond hcolon).trans <|
    ((Leaves.fixedNumber hseconds).imp hdigit).trans <| (Leaves.fraction hfraction).imp hpoint

/-- A text in the layout with an offset ends in one. -/
theorem exists_offset_of_zoned? {s : List Char} {t : DateTime} (h : zoned? s = some t) :
    ∃ body offset minutes, s = body ++ offset ∧ offset? offset = some minutes := by
  simp only [zoned?, Option.bind_eq_bind, Option.bind_eq_some_iff, Prod.exists] at h
  obtain ⟨date, s₁, hday, c, hc, hzoned⟩ := h
  split at hzoned
  · simp only [Option.bind_eq_some_iff, Prod.exists] at hzoned
    obtain ⟨shown, offset, htime, minutes, hoffset, -⟩ := hzoned
    obtain ⟨s₂, rfl⟩ := List.head?_eq_some_iff.mp hc
    obtain ⟨day, rfl, -⟩ := Leaves.fixedDay hday
    obtain ⟨time, hs₂, -⟩ := Leaves.fixedTime htime
    refine ⟨day ++ c :: time, offset, minutes, ?_, hoffset⟩
    rw [List.append_assoc, List.cons_append, ← hs₂, List.tail_cons]
  · cases hzoned

/-! ### At most one layout -/

/-- What follows the day in a text with `T` is no time, nor is it nothing. -/
theorem spaced?_and_dayOnly?_of_separated? {s : List Char} {t : DateTime}
    (h : separated? s = some t) : spaced? s = none ∧ dayOnly? s = none := by
  simp only [separated?, Option.bind_eq_bind, Option.bind_eq_some_iff, Prod.exists] at h
  obtain ⟨date, s₁, hday, s₂, hT, -⟩ := h
  rw [eq_cons_of_expect hT] at hday
  constructor
  · rw [spaced?, hday]
    rfl
  · rw [dayOnly?, hday]
    rfl

/-- A text with a time behind the day is no day. -/
theorem dayOnly?_of_spaced? {s : List Char} {t : DateTime} (h : spaced? s = some t) :
    dayOnly? s = none := by
  simp only [spaced?, Option.bind_eq_bind, Option.bind_eq_some_iff, Prod.exists] at h
  obtain ⟨date, rest, hday, htime⟩ := h
  cases rest with
  | nil => cases htime
  | cons c rest =>
    rw [dayOnly?, hday]
    rfl

/-- The four layouts, in the order in which they are tried. -/
def layouts : List (List Char → Option DateTime) :=
  zoned? :: lenientLayouts

/-- Of two layouts at least one refuses a text. -/
theorem layouts_pairwise (s : List Char) :
    layouts.Pairwise fun first second => first s = none ∨ second s = none := by
  have hrefuses : ∀ {first second : List Char → Option DateTime},
      (∀ t, first s = some t → second s = none) → first s = none ∨ second s = none := by
    intro first second h
    cases hfirst : first s with
    | none => exact .inl rfl
    | some t => exact .inr (h t hfirst)
  refine .cons (fun layout hlayout => hrefuses fun t ht => ?_) <|
    .cons (fun layout hlayout => hrefuses fun t ht => ?_) <|
    .cons (fun layout hlayout => hrefuses fun t ht => ?_) <| List.pairwise_singleton _ _
  · obtain ⟨body, offset, minutes, rfl, hoffset⟩ := exists_offset_of_zoned? ht
    exact lenient_eq_none_of_offset? hlayout hoffset
  · obtain ⟨hspaced, hday⟩ := spaced?_and_dayOnly?_of_separated? ht
    simp only [List.mem_cons, List.not_mem_nil, or_false] at hlayout
    rcases hlayout with rfl | rfl
    · exact hspaced
    · exact hday
  · rw [List.mem_singleton.mp hlayout]
    exact dayOnly?_of_spaced? ht

/-- Where at most one reader succeeds, the first success is any success. -/
theorem findSome?_eq_some_iff_of_pairwise {α β : Type} {readers : List (α → Option β)} {a : α}
    (h : readers.Pairwise fun first second => first a = none ∨ second a = none) {b : β} :
    (readers.findSome? fun reader => reader a) = some b ↔
      ∃ reader ∈ readers, reader a = some b := by
  induction readers with
  | nil => simp
  | cons first rest ih =>
    obtain ⟨hfirst, hrest⟩ := List.pairwise_cons.mp h
    simp only [List.findSome?_cons, List.mem_cons, exists_eq_or_imp]
    cases hread : first a with
    | none => simp [ih hrest]
    | some x =>
      -- All others refuse, since the first one does not.
      have hothers : ¬∃ reader ∈ rest, reader a = some b := by
        rintro ⟨reader, hmem, hreader⟩
        rcases hfirst reader hmem with hnone | hnone
        · rw [hread] at hnone
          cases hnone
        · rw [hreader] at hnone
          cases hnone
      simp [hothers]

/-- The layouts are tried in turn. -/
theorem ofTrimmed?_eq (s : List Char) :
    DateTime.ofTrimmed? s = layouts.findSome? fun layout => layout s := by
  simp only [DateTime.ofTrimmed?, layouts, lenientLayouts, List.findSome?_cons,
    List.findSome?_nil]
  cases zoned? s <;> cases separated? s <;> cases spaced? s <;> cases dayOnly? s <;> rfl

/-- A text has a value if it has one in some layout, and in whatever order the layouts are tried,
the first of them that has a value has this one. -/
theorem findSome?_eq_ofTrimmed? {order : List (List Char → Option DateTime)}
    (horder : order.Perm layouts) (s : List Char) :
    (order.findSome? fun layout => layout s) = DateTime.ofTrimmed? s := by
  have hlayouts := layouts_pairwise s
  have hpairwise : order.Pairwise fun first second => first s = none ∨ second s = none :=
    (horder.pairwise_iff fun h => h.symm).mpr hlayouts
  refine Option.ext fun t => ?_
  rw [ofTrimmed?_eq, findSome?_eq_some_iff_of_pairwise hpairwise,
    findSome?_eq_some_iff_of_pairwise hlayouts]
  simp only [horder.mem_iff]

/-- No text is readable as a date-time in two ways: of two layouts at least one refuses it, so the
result is the same in every order in which they are tried. The lenient layouts refuse whatever ends
in an offset, and whatever has a sign or a letter behind a colon. -/
theorem layouts_exclusive (text : String) :
    let s := trim text.toList
    (layouts.Pairwise fun first second => first s = none ∨ second s = none) ∧
    (∀ t, Value.readDateTime text = .ok t ↔ ∃ layout ∈ layouts, layout s = some t) ∧
    (∀ order : List (List Char → Option DateTime), order.Perm layouts →
      (order.findSome? fun layout => layout s) = DateTime.ofTrimmed? s) ∧
    ∀ layout ∈ lenientLayouts,
      (∀ body offset minutes, s = body ++ offset → offset? offset = some minutes →
        layout s = none) ∧
      ∀ before c after, s = before ++ c :: after → ':' ∈ before → ¬IsTimeChar c →
        layout s = none := by
  intro s
  have hpairwise := layouts_pairwise s
  refine ⟨hpairwise, fun t => ?_, fun order horder => findSome?_eq_ofTrimmed? horder s,
    fun layout hlayout => ⟨fun body offset minutes hs hoffset => ?_,
      fun before c after hs hcolon hc => ?_⟩⟩
  · rw [← findSome?_eq_some_iff_of_pairwise hpairwise, ← ofTrimmed?_eq, Value.readDateTime]
    cases DateTime.ofTrimmed? s <;> simp
  · rw [hs]
    exact lenient_eq_none_of_offset? hlayout hoffset
  · rw [hs]
    exact lenient_eq_none_of_colon hlayout hcolon hc

/-- A text with an offset, with the layouts in the opposite order; and one that has a sign but no
proper offset behind its time. -/
theorem layouts_exclusive_offset :
    let text := "2024-01-01 10:20:30+05:30"
    (layouts.reverse.findSome? fun layout => layout (trim text.toList)) =
      DateTime.ofTrimmed? (trim text.toList) ∧
    spaced? (trim text.toList) = none ∧
    spaced? (trim "2024-01-01 10:20:30+0530".toList) = none := by
  intro text
  obtain ⟨-, -, horder, hlenient⟩ := layouts_exclusive text
  obtain ⟨-, -, -, hlenient'⟩ := layouts_exclusive "2024-01-01 10:20:30+0530"
  have hspaced : spaced? ∈ lenientLayouts := by simp [lenientLayouts]
  refine ⟨horder _ (List.reverse_perm layouts), ?_, ?_⟩
  · exact (hlenient spaced? hspaced).1 "2024-01-01 10:20:30".toList "+05:30".toList 330
      (by decide) (by decide)
  · exact (hlenient' spaced? hspaced).2 "2024-01-01 10:20:30".toList '+' "0530".toList (by decide)
      (by decide) (not_isTimeChar (by simp))

end RecordStore.Calendar
