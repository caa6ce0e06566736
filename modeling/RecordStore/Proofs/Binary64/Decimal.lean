import RecordStore.Proofs.Binary64.Rounding
import RecordStore.Proofs.Decimal.Padded

/-!
# `RecordStore.Proofs.Binary64.Decimal`: a decimal is rounded by its value

One number has many fractions and many decimals: a power of ten can stand in the numerator or in
the denominator, and zeros at the end of a coefficient can be moved to the exponent. All of them are
rounded to the same double, also past the exponents beyond which `ofDecimal` does not compute.

* `nearest_congr`: fractions of one value.
* `ofDecimal_eq_ofRatio`: the exponents that are not computed.
* `ofDecimal_shift`: decimals of one value.
-/

set_option autoImplicit false

namespace RecordStore.Binary64

open RecordStore.Decimal

/-! ### Fractions -/

/-- A common factor is not seen by rounding to whole numbers. -/
theorem roundDiv_mul_mul (a b : Nat) {k : Nat} (hk : 0 < k) :
    roundDiv (a * k) (b * k) = roundDiv a b := by
  have hmod : 2 * (a * k % (b * k)) = 2 * (a % b) * k := by
    rw [Nat.mul_mod_mul_right, Nat.mul_assoc]
  unfold roundDiv
  simp only [hmod, Nat.mul_div_mul_right _ _ hk, Nat.mul_lt_mul_right hk]

/-- A common factor is not seen by rounding to doubles. -/
theorem nearest_mul_mul (num den : Nat) {k : Nat} (hk : 0 < k) :
    nearest (num * k) (den * k) = nearest num den := by
  have hscaled : num * k * unitsPerOne = num * unitsPerOne * k := Nat.mul_right_comm _ _ _
  unfold nearest
  simp only [hscaled, Nat.mul_div_mul_right _ _ hk, Nat.shiftLeft_eq, Nat.mul_right_comm den k,
    roundDiv_mul_mul _ _ hk]

/-- Fractions of one value are rounded to the same double. -/
theorem nearest_congr {a b c d : Nat} (hb : 0 < b) (hd : 0 < d) (h : a * d = c * b) :
    nearest a b = nearest c d := by
  calc nearest a b = nearest (a * d) (b * d) := (nearest_mul_mul a b hd).symm
    _ = nearest (c * b) (d * b) := by rw [h, Nat.mul_comm b d]
    _ = nearest c d := nearest_mul_mul c d hb

/-! ### Extreme exponents -/

/-- What is less than half of the smallest magnitude is rounded to zero. -/
theorem nearest_eq_zero {num den : Nat} (h : 2 * (num * unitsPerOne) < den) :
    nearest num den = 0 := by
  have hlt : num * unitsPerOne < den := by omega
  have hround : roundDiv (num * unitsPerOne) den = 0 := by
    rw [roundDiv, Nat.mod_eq_of_lt hlt, if_pos h, Nat.div_eq_of_lt hlt]
  simp only [nearest, Nat.div_eq_of_lt hlt, Nat.log2_zero, Nat.zero_sub, Nat.shiftLeft_zero, hround,
    Nat.zero_mul, Nat.zero_add, Nat.min_zero]

/-- A number of 402 digits is rounded to infinity. -/
theorem nearest_eq_infinityRank {num : Nat} (h : tenTo 401 ≤ num) :
    nearest num 1 = infinityRank := by
  have hpower : nearest (tenTo 401) 1 = infinityRank := by decide +kernel
  exact Nat.le_antisymm (Nat.min_le_left _ _) (hpower ▸ nearest_mono h 1)

/-- With the least exponent that is computed, or a smaller one, a coefficient is less than half of
the smallest magnitude. -/
theorem two_mul_lt_tenTo {digits exponent : Nat} (h : 400 + Nat.log2 digits < exponent) :
    2 * (digits * unitsPerOne) < tenTo exponent := by
  have hsmall : 2 * (2 * unitsPerOne) < tenTo 401 := by decide +kernel
  have hdigits : digits ≤ 2 * 2 ^ Nat.log2 digits := by
    have hlt : digits < 2 ^ (Nat.log2 digits + 1) := Nat.lt_log2_self
    rw [Nat.pow_succ] at hlt
    omega
  have hpowers : 2 ^ Nat.log2 digits ≤ tenTo (Nat.log2 digits) :=
    Nat.pow_le_pow_left (by decide) _
  calc 2 * (digits * unitsPerOne)
      ≤ 2 * (2 * 2 ^ Nat.log2 digits * unitsPerOne) :=
        Nat.mul_le_mul_left _ (Nat.mul_le_mul_right _ hdigits)
    _ = 2 * (2 * unitsPerOne) * 2 ^ Nat.log2 digits := by ac_rfl
    _ < tenTo 401 * 2 ^ Nat.log2 digits := Nat.mul_lt_mul_of_pos_right hsmall (Nat.two_pow_pos _)
    _ ≤ tenTo 401 * tenTo (Nat.log2 digits) := Nat.mul_le_mul_left _ hpowers
    _ = tenTo (401 + Nat.log2 digits) := (tenTo_add _ _).symm
    _ ≤ tenTo exponent := tenTo_mono (by omega)

/-- A decimal is rounded as the fraction that it is, also where that is not computed. -/
theorem ofDecimal_eq_ofRatio (negative : Bool) {digits : Nat} (h : digits ≠ 0) (exponent : Int) :
    ofDecimal negative digits exponent =
      ofRatio negative (digits * tenTo exponent.toNat) (tenTo (-exponent).toNat) := by
  unfold ofDecimal
  rw [if_neg h]
  split
  · -- Past the largest exponent the coefficient is at least one.
    rename_i hlarge
    have hone : tenTo (-exponent).toNat = 1 := by
      rw [show (-exponent).toNat = 0 by omega]
      rfl
    have hpower : tenTo 401 ≤ digits * tenTo exponent.toNat := by
      calc tenTo 401 ≤ tenTo exponent.toNat := tenTo_mono (by omega)
        _ ≤ digits * tenTo exponent.toNat := Nat.le_mul_of_pos_left _ (Nat.pos_of_ne_zero h)
    simp only [ofRatio, hone, nearest_eq_infinityRank hpower]
    rfl
  · split
    · -- Below the smallest exponent nothing is left of the coefficient.
      rename_i hsmall
      have hone : tenTo exponent.toNat = 1 := by
        rw [show exponent.toNat = 0 by omega]
        rfl
      have hzero : nearest (digits * 1) (tenTo (-exponent).toNat) = 0 :=
        nearest_eq_zero (by rw [Nat.mul_one]; exact two_mul_lt_tenTo (by omega))
      simp only [ofRatio, hone, hzero]
      rfl
    · split
      · rename_i hnonneg
        rw [show (-exponent).toNat = 0 by omega]
        rfl
      · rename_i hneg
        rw [show exponent.toNat = 0 by omega, show tenTo 0 = 1 from rfl, Nat.mul_one]

/-! ### Decimals -/

/-- Zeros at the end of the coefficient may be counted by the exponent instead. -/
theorem ofDecimal_shift (negative : Bool) (coefficient zeros : Nat) (exponent : Int) :
    ofDecimal negative (coefficient * tenTo zeros) exponent =
      ofDecimal negative coefficient (exponent + zeros) := by
  by_cases h : coefficient = 0
  · simp only [h, Nat.zero_mul, ofDecimal, if_true]
  · have hne : coefficient * tenTo zeros ≠ 0 := Nat.mul_ne_zero h (Nat.ne_of_gt (tenTo_pos _))
    rw [ofDecimal_eq_ofRatio negative hne, ofDecimal_eq_ofRatio negative h]
    -- Crosswise, both sides have the same power of ten.
    have hpowers : tenTo zeros * tenTo exponent.toNat * tenTo (-(exponent + zeros)).toNat =
        tenTo (exponent + zeros).toNat * tenTo (-exponent).toNat := by
      rw [← tenTo_add, ← tenTo_add, ← tenTo_add]
      congr 1
      omega
    have hnearest := nearest_congr (a := coefficient * tenTo zeros * tenTo exponent.toNat)
      (c := coefficient * tenTo (exponent + zeros).toNat) (tenTo_pos (-exponent).toNat)
      (tenTo_pos (-(exponent + zeros)).toNat) (by
        rw [Nat.mul_assoc coefficient, Nat.mul_assoc coefficient, hpowers, Nat.mul_assoc])
    simp only [ofRatio, hnearest]

/-- The sign of a decimal has no part in its rounding. -/
theorem ofDecimal_sign (negative : Bool) (coefficient : Nat) (exponent : Int) :
    (ofDecimal negative coefficient exponent).negative = negative ∧
      (ofDecimal negative coefficient exponent).rank =
        (ofDecimal false coefficient exponent).rank := by
  by_cases h : coefficient = 0
  · simp only [h, ofDecimal, if_true]
    exact ⟨rfl, rfl⟩
  · simp only [ofDecimal_eq_ofRatio _ h]
    exact ⟨rfl, rfl⟩

end RecordStore.Binary64
