import RecordStore.Binary64.Basic
import RecordStore.Decimal.Digits

/-!
# `RecordStore.Binary64.Rounding`: the nearest double

`nearest` gives the rank of the double nearest to a fraction, a tie going to the even rank; past
the largest finite magnitude that is infinity. `ofInt` and `ofDecimal` round whole numbers and
decimals with it.

A decimal with an extreme exponent is not computed: past `10 ^ 400` a positive number is
infinity, and below `2 ^ b * 10 ^ -(b + 400)`, with `b` the number of its bits, it is zero.

* `roundDiv_mul`: a quotient without a remainder is kept.
* `nearest_magnitude`: a finite magnitude is rounded to its own rank.
-/

set_option autoImplicit false

namespace RecordStore.Binary64

open RecordStore.Decimal (tenTo)

/-- The whole number nearest to `a / b`, and of two equally near ones the even one. -/
def roundDiv (a b : Nat) : Nat :=
  if 2 * (a % b) < b then a / b
  else if b < 2 * (a % b) then a / b + 1
  else if a / b % 2 = 0 then a / b
  else a / b + 1

/-- The rank of the double nearest to `num / den`. The quotient in units has its leading bit at
`log2`; what lies more than 52 bits below it is rounded away, and each bit dropped stands for
one binade. -/
def nearest (num den : Nat) : Nat :=
  let scaled := num * unitsPerOne
  let drop := Nat.log2 (scaled / den) - 52
  min infinityRank (drop * 0x10000000000000 + roundDiv scaled (den <<< drop))

/-- A rounded rank is a rank. -/
theorem nearest_lt (num den : Nat) : nearest num den < 0x8000000000000000 :=
  Nat.lt_of_le_of_lt (Nat.min_le_left _ _) (by decide)

/-- The double nearest to `num / den`, with the given sign. -/
def ofRatio (negative : Bool) (num den : Nat) : Binary64 :=
  ⟨negative, nearest num den, nearest_lt num den⟩

/-- Infinity, with the given sign. -/
def infinity (negative : Bool) : Binary64 :=
  ⟨negative, infinityRank, by decide⟩

/-- Zero, with the given sign. -/
def zero (negative : Bool) : Binary64 :=
  ⟨negative, 0, by decide⟩

/-- A value that is no number, with the given sign. -/
def quietNaN (negative : Bool) : Binary64 :=
  ⟨negative, 0x7FF8000000000000, by decide⟩

/-- The double nearest to a whole number. -/
def ofInt (n : Int) : Binary64 :=
  ofRatio (decide (n < 0)) n.natAbs 1

/-- The double nearest to `digits * 10 ^ exponent`, with the given sign. -/
def ofDecimal (negative : Bool) (digits : Nat) (exponent : Int) : Binary64 :=
  if digits = 0 then zero negative
  else if 400 < exponent then infinity negative
  else if exponent < -(400 + (Nat.log2 digits : Int)) then zero negative
  else if 0 ≤ exponent then ofRatio negative (digits * tenTo exponent.toNat) 1
  else ofRatio negative digits (tenTo (-exponent).toNat)

/-- A quotient without a remainder is kept. -/
theorem roundDiv_mul (a : Nat) {b : Nat} (h : 0 < b) : roundDiv (a * b) b = a := by
  simp [roundDiv, Nat.mul_mod_left, Nat.mul_div_cancel _ h, h]

/-- Above the lowest binade a rank is its binades and its fraction, leading bit included. -/
theorem binade_add_fraction {rank : Nat} (h : ¬rank < 0x10000000000000) :
    (rank / 0x10000000000000 - 1) * 0x10000000000000 +
      (0x10000000000000 + rank % 0x10000000000000) = rank := by
  omega

/-- A finite magnitude is rounded to its own rank. -/
theorem nearest_magnitude {rank : Nat} (h : rank ≤ infinityRank) :
    nearest (magnitude rank) unitsPerOne = rank := by
  have hone := unitsPerOne_pos
  unfold nearest
  simp only [Nat.mul_div_cancel _ hone, Nat.shiftLeft_eq]
  by_cases hsmall : rank < 0x10000000000000
  · -- In the lowest binade nothing is dropped.
    have hlog : Nat.log2 rank - 52 = 0 := by
      by_cases h0 : rank = 0
      · simp [h0]
      · have := (Nat.log2_lt h0).mpr (Nat.lt_of_lt_of_le hsmall (Nat.le_refl (2 ^ 52)))
        omega
    rw [magnitude_of_lt hsmall, hlog, Nat.pow_zero, Nat.mul_one, roundDiv_mul _ hone,
      Nat.zero_mul, Nat.zero_add]
    exact Nat.min_eq_right h
  · -- Above it the magnitude is 53 bits and a scale, and exactly the scale is dropped.
    have hmag := magnitude_of_ge hsmall
    rw [Nat.shiftLeft_eq] at hmag
    have hf : rank % 0x10000000000000 < 0x10000000000000 := Nat.mod_lt _ (by decide)
    have hlog : Nat.log2 (magnitude rank) = 52 + (rank / 0x10000000000000 - 1) := by
      have hne : magnitude rank ≠ 0 := by
        rw [hmag]
        exact Nat.mul_ne_zero (by omega) (Nat.ne_of_gt (Nat.two_pow_pos _))
      refine (Nat.log2_eq_iff hne).mpr ⟨?_, ?_⟩
      · rw [hmag, Nat.pow_add]
        exact Nat.mul_le_mul_right _ (by omega)
      · rw [hmag, show 52 + (rank / 0x10000000000000 - 1) + 1 =
            53 + (rank / 0x10000000000000 - 1) by omega, Nat.pow_add]
        exact Nat.mul_lt_mul_of_pos_right (by omega) (Nat.two_pow_pos _)
    have hdrop : Nat.log2 (magnitude rank) - 52 = rank / 0x10000000000000 - 1 := by omega
    have hround : magnitude rank * unitsPerOne
        = (0x10000000000000 + rank % 0x10000000000000) *
          (unitsPerOne * 2 ^ (rank / 0x10000000000000 - 1)) := by
      rw [hmag]
      ac_rfl
    rw [hdrop, hround, roundDiv_mul _ (Nat.mul_pos hone (Nat.two_pow_pos _)),
      binade_add_fraction hsmall]
    exact Nat.min_eq_right h

end RecordStore.Binary64
