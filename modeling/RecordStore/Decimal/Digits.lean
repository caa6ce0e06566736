/-!
# `RecordStore.Decimal.Digits`: whole numbers in decimal digits

The written form of a whole number is a minus sign where it is negative and the digits of its
magnitude with no leading zero; zero is one `0`. Reading allows one sign of either kind and any
leading zeros, and nothing else.

* `natValue?_digits`, `intValue?_intDigits`: a written number reads back.
* `isDigits_digits`: what is written consists of digits.
-/

set_option autoImplicit false

namespace RecordStore.Decimal

/-- The decimal digits of `n`. -/
def digits (n : Nat) : List Char :=
  Nat.toDigits 10 n

/-- What a one with `n` zeros behind it stands for. -/
def tenTo (n : Nat) : Nat :=
  Nat.pow 10 n

/-- At least one character, and only decimal digits. -/
def isDigits (s : List Char) : Bool :=
  !s.isEmpty && s.all Char.isDigit

/-- The number that the digits `s` stand for. -/
def value (s : List Char) : Nat :=
  Nat.ofDigitChars 10 s 0

/-- The number that `s` stands for, if it consists of digits. -/
def natValue? (s : List Char) : Option Nat :=
  if isDigits s then some (value s) else none

/-- `n` with at least `width` digits, filled up with zeros in front. -/
def padded (width n : Nat) : List Char :=
  List.replicate (width - (digits n).length) '0' ++ digits n

/-- The written form of a whole number. -/
def intDigits : Int → List Char
  | .ofNat n => digits n
  | .negSucc n => '-' :: digits (n + 1)

/-- The number that an optional sign and digits stand for. -/
def intValue? : List Char → Option Int
  | '-' :: s => (natValue? s).map fun n => -(n : Int)
  | '+' :: s => (natValue? s).map Int.ofNat
  | s => (natValue? s).map Int.ofNat

/-- What is written consists of digits. -/
theorem isDigits_digits (n : Nat) : isDigits (digits n) = true := by
  have hne : Nat.toDigits 10 n ≠ [] := Nat.toDigits_ne_nil
  simp only [isDigits, digits, Bool.and_eq_true, Bool.not_eq_true', List.all_eq_true]
  exact ⟨by simp [hne],
    fun c hc => Nat.isDigit_of_mem_toDigits (by decide) (by decide) hc⟩

/-- Written digits stand for their number. -/
theorem value_digits (n : Nat) : value (digits n) = n :=
  Nat.ofDigitChars_ten_toDigits

/-- A written natural number reads back. -/
theorem natValue?_digits (n : Nat) : natValue? (digits n) = some n := by
  simp [natValue?, isDigits_digits, value_digits]

/-- A written natural number starts with a digit. -/
theorem digits_cons (n : Nat) : ∃ c s, digits n = c :: s ∧ c.isDigit = true := by
  have h := isDigits_digits n
  cases hd : digits n with
  | nil => simp [hd, isDigits] at h
  | cons c s =>
    simp only [hd, isDigits, List.all_cons, Bool.and_eq_true] at h
    exact ⟨c, s, rfl, h.2.1⟩

/-- A written whole number reads back. -/
theorem intValue?_intDigits (k : Int) : intValue? (intDigits k) = some k := by
  cases k with
  | ofNat n =>
    obtain ⟨c, s, hd, hc⟩ := digits_cons n
    have hval := natValue?_digits n
    rw [hd] at hval
    -- A digit is neither of the two signs, so the text is read as plain digits.
    have hminus : c ≠ '-' := by rintro rfl; simp at hc
    have hplus : c ≠ '+' := by rintro rfl; simp at hc
    simp only [intDigits, hd]
    unfold intValue?
    split
    · rename_i h
      exact absurd (List.cons.inj h).1 hminus
    · rename_i h
      exact absurd (List.cons.inj h).1 hplus
    · rw [hval]
      rfl
  | negSucc n =>
    simp only [intDigits, intValue?, natValue?_digits]
    rfl

end RecordStore.Decimal
