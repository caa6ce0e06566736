import Mathlib.Data.List.Basic
import RecordStore.Binary64.Layout
import RecordStore.Decimal.Numeral
import RecordStore.Proofs.Binary64.Shortest
import RecordStore.Proofs.Binary64.Value

/-!
# `RecordStore.Proofs.Binary64.Layout`: a written double reads back

A format decides for which exponents of the leading digit a double is written positionally, and
whether a whole number then ends in `.0`. The numeral has the value of the decimal in either form,
so a finite double is read from its text bit for bit, also the zero with a minus sign.

* `isNumeralOf_whole`, `isNumeralOf_point`: numerals part by part.
* `isNumeralOf_positionalText`, `isNumeralOf_exponentText`: both forms are numerals.
* `double?_text`: a finite double is read back from its text.
* `trim_text`: the text has no blanks around it.
-/

set_option autoImplicit false

namespace RecordStore.Binary64

open RecordStore.Decimal RecordStore.Text

/-! ### Digits -/

/-- The digits of a number are digits. -/
theorem isDigit_of_mem_digits {n : Nat} {c : Char} (h : c ∈ digits n) : c.isDigit = true :=
  Nat.isDigit_of_mem_toDigits (by decide) (by decide) h

/-- A number has at least one digit. -/
theorem digits_ne_nil (n : Nat) : digits n ≠ [] :=
  Nat.toDigits_ne_nil

/-- The text ends in a digit, if it ends at all. -/
def EndsInDigit (s : List Char) : Prop :=
  ∀ c, s.getLast? = some c → c.isDigit = true

/-- A text with digits at its end ends in one. -/
theorem endsInDigit_append {t : List Char} (hne : t ≠ []) (ht : EndsInDigit t) (s : List Char) :
    EndsInDigit (s ++ t) := by
  intro c hc
  rw [List.getLast?_append_of_ne_nil _ hne] at hc
  exact ht c hc

/-- Digits end in a digit. -/
theorem endsInDigit_of_forall {s : List Char} (h : ∀ c ∈ s, c.isDigit = true) : EndsInDigit s :=
  fun c hc => h c (List.mem_of_mem_getLast? hc)

/-! ### Exponents -/

/-- The text is that of an exponent, or there is neither:

- `head`: it goes on with nothing that belongs to the digits in front of it. -/
structure IsExponent (s : List Char) (exponent : Option Int) : Prop where
  reads : exponent? s = some exponent
  head : ∀ c, s.head? = some c → c.isDigit = false ∧ c ≠ '.'
  last : EndsInDigit s

/-- No exponent. -/
theorem isExponent_nil : IsExponent [] none :=
  ⟨rfl, nofun, nofun⟩

/-- A written exponent. -/
theorem isExponent_sign (k : Int) :
    IsExponent ('e' :: (if k < 0 then '-' else '+') :: digits k.natAbs) (some k) := by
  refine ⟨?_, ?_, endsInDigit_append (digits_ne_nil _)
    (endsInDigit_of_forall fun _ => isDigit_of_mem_digits) ['e', _]⟩
  · split
    · have hk : -(k.natAbs : Int) = k := by omega
      simp only [exponent?, intValue?, natValue?_digits]
      exact congrArg (some ∘ some) hk
    · have hk : (k.natAbs : Int) = k := by omega
      simp only [exponent?, intValue?, natValue?_digits]
      exact congrArg (some ∘ some) hk
  · intro c hc
    cases hc
    decide

/-! ### Numerals -/

/-- The text is a numeral with the value of the decimal, whatever its sign; it begins and ends with
a digit. -/
structure IsNumeralOf (s : List Char) (d : Scaled) : Prop where
  reads : ∃ n : Numeral, Numeral.ofText? s = some n ∧ n.whole ≠ [] ∧
    ∀ negative, n.toBinary64 negative = ofDecimal negative d.coefficient d.exponent
  head : ∃ c rest, s = c :: rest ∧ c.isDigit = true
  last : EndsInDigit s

/-- Digits begin with a digit, whatever follows. -/
theorem exists_cons_of_digits {whole : List Char} (hwhole : ∀ c ∈ whole, c.isDigit = true)
    (hne : whole ≠ []) (rest : List Char) :
    ∃ c r, whole ++ rest = c :: r ∧ c.isDigit = true := by
  obtain ⟨c, r, rfl⟩ := List.exists_cons_of_ne_nil hne
  exact ⟨c, r ++ rest, rfl, hwhole c List.mem_cons_self⟩

/-- Digits without a point, and an exponent. -/
theorem isNumeralOf_whole {whole rest : List Char} {exponent : Option Int} {d : Scaled}
    (hwhole : ∀ c ∈ whole, c.isDigit = true) (hne : whole ≠ []) (hrest : IsExponent rest exponent)
    (hvalue : ∀ negative, ofDecimal negative (value whole) (exponent.getD 0) =
      ofDecimal negative d.coefficient d.exponent) : IsNumeralOf (whole ++ rest) d := by
  obtain ⟨htake, hdrop⟩ := takeWhile_isDigit_append hwhole fun c hc => (hrest.head c hc).1
  have hread : Numeral.ofText? (whole ++ rest) = some ⟨whole, none, exponent⟩ := by
    simp only [Numeral.ofText?, htake, hdrop]
    -- Behind the digits there is no point.
    split
    · exact absurd rfl (hrest.head '.' rfl).2
    · rw [hrest.reads]
      rfl
  refine ⟨⟨_, hread, hne, fun negative => ?_⟩, exists_cons_of_digits hwhole hne rest, ?_⟩
  · rw [← hvalue, Numeral.toBinary64, Option.getD_none, List.append_nil]
    congr 1
    exact Int.sub_zero _
  · by_cases hnil : rest = []
    · rw [hnil, List.append_nil]
      exact endsInDigit_of_forall hwhole
    · exact endsInDigit_append hnil hrest.last whole

/-- Digits on both sides of a point, and an exponent. -/
theorem isNumeralOf_point {whole fraction rest : List Char} {exponent : Option Int} {d : Scaled}
    (hwhole : ∀ c ∈ whole, c.isDigit = true) (hne : whole ≠ [])
    (hfraction : ∀ c ∈ fraction, c.isDigit = true) (hne' : fraction ≠ [])
    (hrest : IsExponent rest exponent)
    (hvalue : ∀ negative, ofDecimal negative (value (whole ++ fraction))
        (exponent.getD 0 - (fraction.length : Int)) =
      ofDecimal negative d.coefficient d.exponent) :
    IsNumeralOf (whole ++ '.' :: (fraction ++ rest)) d := by
  have hpoint : ∀ c, ('.' :: (fraction ++ rest)).head? = some c → c.isDigit = false := by
    intro c hc
    cases hc
    decide
  obtain ⟨htake, hdrop⟩ := takeWhile_isDigit_append hwhole hpoint
  obtain ⟨htake', hdrop'⟩ := takeWhile_isDigit_append hfraction fun c hc => (hrest.head c hc).1
  have hread : Numeral.ofText? (whole ++ '.' :: (fraction ++ rest)) =
      some ⟨whole, some fraction, exponent⟩ := by
    simp only [Numeral.ofText?, htake, hdrop, htake', hdrop', hrest.reads, Option.map_some]
  refine ⟨⟨_, hread, hne, hvalue⟩, exists_cons_of_digits hwhole hne _, ?_⟩
  have hsplit : whole ++ '.' :: (fraction ++ rest) = (whole ++ ['.']) ++ (fraction ++ rest) := by
    simp
  rw [hsplit]
  refine endsInDigit_append (by simp [hne']) ?_ _
  by_cases hnil : rest = []
  · rw [hnil, List.append_nil]
    exact endsInDigit_of_forall hfraction
  · exact endsInDigit_append hnil hrest.last fraction

/-- Digits on both sides of a point, and no exponent. -/
theorem isNumeralOf_places {whole fraction : List Char} {d : Scaled}
    (hwhole : ∀ c ∈ whole, c.isDigit = true) (hne : whole ≠ [])
    (hfraction : ∀ c ∈ fraction, c.isDigit = true) (hne' : fraction ≠ [])
    (hvalue : ∀ negative,
      ofDecimal negative (value (whole ++ fraction)) (-(fraction.length : Int)) =
        ofDecimal negative d.coefficient d.exponent) :
    IsNumeralOf (whole ++ '.' :: fraction) d := by
  have h := isNumeralOf_point (d := d) hwhole hne hfraction hne' isExponent_nil fun negative => by
    rw [Option.getD_none, Int.zero_sub, hvalue]
  rwa [List.append_nil] at h

/-! ### The two forms -/

/-- Zeros are digits. -/
theorem isDigit_of_mem_replicate {k : Nat} {c : Char} (h : c ∈ List.replicate k '0') :
    c.isDigit = true := by
  rw [List.eq_of_mem_replicate h]
  rfl

/-- Zeros in front of digits count nothing. -/
theorem value_replicate_append (k : Nat) (s : List Char) :
    value (List.replicate k '0' ++ s) = value s := by
  rw [value, Nat.ofDigitChars_append, Nat.ofDigitChars_replicate_zero, Nat.mul_zero]
  rfl

/-- For an exponent that is not negative zeros are written behind the digits. -/
theorem isNumeralOf_zeros {d : Scaled} (h : 0 ≤ d.exponent) :
    IsNumeralOf (digits d.coefficient ++ List.replicate d.exponent.toNat '0') d := by
  have hvalue : ∀ negative,
      ofDecimal negative (value (digits d.coefficient ++ List.replicate d.exponent.toNat '0')) 0 =
        ofDecimal negative d.coefficient d.exponent := by
    intro negative
    rw [value_append_zeros, value_digits, ofDecimal_shift, Int.zero_add, Int.toNat_of_nonneg h]
  have hnumeral := isNumeralOf_whole (d := d)
    (List.forall_mem_append.mpr ⟨fun _ => isDigit_of_mem_digits, fun _ => isDigit_of_mem_replicate⟩)
    (List.append_ne_nil_of_left_ne_nil (digits_ne_nil _) _) isExponent_nil hvalue
  rwa [List.append_nil] at hnumeral

/-- A zero behind the point counts nothing. -/
theorem isNumeralOf_pointZero {d : Scaled} (h : 0 ≤ d.exponent) :
    IsNumeralOf (digits d.coefficient ++ List.replicate d.exponent.toNat '0' ++ ['.', '0']) d := by
  refine @isNumeralOf_places _ ['0'] d
    (List.forall_mem_append.mpr ⟨fun _ => isDigit_of_mem_digits, fun _ => isDigit_of_mem_replicate⟩)
    (List.append_ne_nil_of_left_ne_nil (digits_ne_nil _) _) (List.forall_mem_singleton.mpr rfl)
    (List.cons_ne_nil _ _) fun negative => ?_
  have hzeros : digits d.coefficient ++ List.replicate d.exponent.toNat '0' ++ ['0'] =
      digits d.coefficient ++ List.replicate (d.exponent.toNat + 1) '0' := by
    rw [List.append_assoc, List.replicate_succ']
  rw [hzeros, value_append_zeros, value_digits, ofDecimal_shift]
  congr 1
  show (-1 : Int) + ((d.exponent.toNat + 1 : Nat) : Int) = d.exponent
  omega

/-- For a small negative exponent the point stands among the digits. -/
theorem isNumeralOf_split {d : Scaled} {places : Nat} (h : d.exponent = -(places : Int))
    (hpos : 0 < places) (hplaces : places < (digits d.coefficient).length) :
    IsNumeralOf ((digits d.coefficient).take ((digits d.coefficient).length - places) ++
      '.' :: (digits d.coefficient).drop ((digits d.coefficient).length - places)) d := by
  have hdigits : ∀ c ∈ digits d.coefficient, c.isDigit = true := fun _ => isDigit_of_mem_digits
  refine isNumeralOf_places (fun c hc => hdigits c (List.mem_of_mem_take hc)) ?_
    (fun c hc => hdigits c (List.mem_of_mem_drop hc)) ?_ fun negative => ?_
  · rw [← List.length_pos_iff, List.length_take]
    omega
  · rw [← List.length_pos_iff, List.length_drop]
    omega
  · rw [List.take_append_drop, value_digits, List.length_drop]
    congr 1
    omega

/-- For any other negative exponent zeros stand between the point and the digits. -/
theorem isNumeralOf_fraction {d : Scaled} {places : Nat} (h : d.exponent = -(places : Int))
    (hplaces : ¬places < (digits d.coefficient).length) :
    IsNumeralOf ('0' :: '.' :: (List.replicate (places - (digits d.coefficient).length) '0' ++
      digits d.coefficient)) d := by
  refine @isNumeralOf_places ['0'] _ d (List.forall_mem_singleton.mpr rfl) (List.cons_ne_nil _ _)
    (List.forall_mem_append.mpr ⟨fun _ => isDigit_of_mem_replicate, fun _ => isDigit_of_mem_digits⟩)
    (List.append_ne_nil_of_right_ne_nil _ (digits_ne_nil _)) fun negative => ?_
  rw [List.singleton_append, ← List.cons_append, ← List.replicate_succ, value_replicate_append,
    value_digits, List.length_append, List.length_replicate]
  congr 1
  omega

/-- The positional form is a numeral of the decimal. -/
theorem isNumeralOf_positionalText (l : Layout) (d : Scaled) :
    IsNumeralOf (l.positionalText d) d := by
  unfold Layout.positionalText
  simp only
  split
  · rename_i hexponent
    cases l.pointZero with
    | false =>
      simp only [Bool.false_eq_true, if_false, List.append_nil]
      exact isNumeralOf_zeros hexponent
    | true => exact isNumeralOf_pointZero hexponent
  · rename_i hexponent
    have hplaces : d.exponent = -((-d.exponent).toNat : Int) := by omega
    split
    · rename_i hfew
      exact isNumeralOf_split hplaces (by omega) hfew
    · rename_i hmany
      exact isNumeralOf_fraction hplaces hmany

/-- The form with an exponent is a numeral of the decimal. -/
theorem isNumeralOf_exponentText (d : Scaled) : IsNumeralOf (exponentText d) d := by
  have hdigits : ∀ c ∈ digits d.coefficient, c.isDigit = true := fun _ => isDigit_of_mem_digits
  have hlength : 0 < (digits d.coefficient).length := List.length_pos_iff.mpr (digits_ne_nil _)
  have htake : ∀ c ∈ (digits d.coefficient).take 1, c.isDigit = true :=
    fun c hc => hdigits c (List.mem_of_mem_take hc)
  have hne : (digits d.coefficient).take 1 ≠ [] := by
    rw [← List.length_pos_iff, List.length_take]
    omega
  unfold exponentText
  simp only
  generalize hlead : d.exponent + (((digits d.coefficient).length - 1 : Nat) : Int) = lead
  split
  · -- One digit has no point behind it.
    rename_i hone
    rw [List.append_nil]
    refine isNumeralOf_whole htake hne (isExponent_sign lead) fun negative => ?_
    rw [List.take_of_length_le (Nat.le_of_eq hone), value_digits, Option.getD_some]
    congr 1
    omega
  · rename_i hmore
    rw [List.append_assoc, List.cons_append]
    refine isNumeralOf_point htake hne (fun c hc => hdigits c (List.mem_of_mem_drop hc)) ?_
      (isExponent_sign lead) fun negative => ?_
    · rw [← List.length_pos_iff, List.length_drop]
      omega
    · rw [List.take_append_drop, value_digits, List.length_drop, Option.getD_some]
      congr 1
      omega

/-- A finite magnitude is written as a numeral of its decimal. -/
theorem isNumeralOf_magnitudeText (l : Layout) (rank : Nat) :
    IsNumeralOf (l.magnitudeText rank) (shortest l.tie rank) := by
  unfold Layout.magnitudeText
  simp only
  split
  · exact isNumeralOf_positionalText l _
  · exact isNumeralOf_exponentText _

/-! ### Reading -/

/-- A digit is the same in lower case. -/
theorem toLower_of_isDigit {c : Char} (h : c.isDigit = true) : c.toLower = c := by
  have hc := (toNat_of_isDigit h).2
  have hnot : ¬(c.val ≥ 'A'.val ∧ c.val ≤ 'Z'.val) := by
    rintro ⟨hletter, -⟩
    have hnat : 65 ≤ c.toNat := hletter
    omega
  exact dif_neg hnot

/-- A numeral is no word, and is read as its value. -/
theorem unsignedDouble?_of_isNumeralOf {s : List Char} {d : Scaled} (h : IsNumeralOf s d)
    (negative : Bool) :
    unsignedDouble? negative s = some (ofDecimal negative d.coefficient d.exponent) := by
  obtain ⟨⟨n, hn, hwhole, hvalue⟩, ⟨c, rest, rfl, hc⟩, -⟩ := h
  -- The words for infinity and for no number begin with letters.
  have hword : ∀ {e : Char} {word : List Char}, e.isDigit = false →
      lowerCase (c :: rest) ≠ e :: word := by
    intro e word he heq
    rw [lowerCase, List.map_cons, toLower_of_isDigit hc] at heq
    rw [(List.cons.inj heq).1, he] at hc
    cases hc
  have hletter : 'i'.isDigit = false ∧ 'n'.isDigit = false := by decide
  have hempty : n.whole.isEmpty = false := by simp [hwhole]
  simp only [unsignedDouble?, hword hletter.1, hword hletter.2, hn, hvalue, hempty, decide_false,
    Bool.or_self, Bool.false_and, Bool.false_eq_true, if_false]

/-- A finite double is read back from its text. -/
theorem double?_text (l : Layout) {x : Binary64} (h : x.isFinite = true) :
    double? (l.text x) = some x := by
  have hnumeral := isNumeralOf_magnitudeText l x.rank
  have hread := unsignedDouble?_of_isNumeralOf hnumeral x.negative
  rw [ofDecimal_shortest l.tie h] at hread
  rw [Layout.text, isNaN_of_isFinite h, h]
  simp only [Bool.false_eq_true, if_false, if_true]
  cases hnegative : x.negative with
  | true =>
    rw [hnegative] at hread
    exact hread
  | false =>
    rw [hnegative] at hread
    obtain ⟨c, rest, hcons, hc⟩ := hnumeral.head
    rw [hcons] at hread ⊢
    simp only [Bool.false_eq_true, if_false, List.nil_append]
    -- A digit is neither of the two signs.
    unfold double?
    split
    · rename_i heq
      rw [(List.cons.inj heq).1] at hc
      cases hc
    · rename_i heq
      rw [(List.cons.inj heq).1] at hc
      cases hc
    · exact hread

/-- The text of a finite double has no blanks around it. -/
theorem trim_text (l : Layout) {x : Binary64} (h : x.isFinite = true) :
    trim (l.text x) = l.text x := by
  obtain ⟨-, ⟨c, rest, hcons, hdigit⟩, hlast⟩ := isNumeralOf_magnitudeText l x.rank
  have htext : l.text x = (if x.negative then ['-'] else []) ++ l.magnitudeText x.rank := by
    rw [Layout.text, isNaN_of_isFinite h, h]
    rfl
  have hne : l.magnitudeText x.rank ≠ [] := by
    rw [hcons]
    exact List.cons_ne_nil _ _
  rw [htext]
  refine trim_of_not_blank (fun d hd => ?_) fun d hd => ?_
  · cases hnegative : x.negative with
    | true =>
      rw [hnegative] at hd
      cases hd
      rfl
    | false =>
      rw [hnegative, hcons] at hd
      cases hd
      exact isBlank_of_isDigit hdigit
  · exact isBlank_of_isDigit (endsInDigit_append hne hlast _ d hd)

end RecordStore.Binary64
