import Mathlib.Tactic.SplitIfs
import RecordStore.Binary64.Rounding

/-!
# `RecordStore.Proofs.Binary64.Rounding`: rounding keeps the order

A larger number is not rounded to a smaller double. Within a binade the quotients are rounded at
one scale, and across binades the leading bit decides: what is rounded up at the end of a binade
becomes the first double of the next one and passes none of it.

* `roundDiv_mono`: rounding to whole numbers keeps the order.
* `nearest_mono`: rounding to doubles keeps the order.
-/

set_option autoImplicit false

namespace RecordStore.Binary64

/-! ### Whole numbers -/

/-- Rounding never goes below the quotient without its remainder. -/
theorem div_le_roundDiv (a b : Nat) : a / b ≤ roundDiv a b := by
  unfold roundDiv
  split_ifs <;> omega

/-- Rounding goes up by one at most. -/
theorem roundDiv_le (a b : Nat) : roundDiv a b ≤ a / b + 1 := by
  unfold roundDiv
  split_ifs <;> omega

/-- Rounding to whole numbers keeps the order. -/
theorem roundDiv_mono {a b : Nat} (h : a ≤ b) (c : Nat) : roundDiv a c ≤ roundDiv b c := by
  rcases Nat.lt_or_eq_of_le (Nat.div_le_div_right (c := c) h) with hlt | heq
  · calc roundDiv a c ≤ a / c + 1 := roundDiv_le a c
      _ ≤ b / c := hlt
      _ ≤ roundDiv b c := div_le_roundDiv b c
  · -- With one quotient the remainders are in order, and so are the choices that they make.
    have hmod : a % c ≤ b % c := by
      have ha := Nat.div_add_mod a c
      have hb := Nat.div_add_mod b c
      rw [heq] at ha
      omega
    unfold roundDiv
    rw [heq]
    generalize b / c = q at *
    split_ifs <;> omega

/-! ### Doubles -/

/-- The number of bits that rounding to a double drops from a quotient. -/
def droppedBits (quotient : Nat) : Nat :=
  Nat.log2 quotient - 52

/-- A larger quotient loses no fewer bits. -/
theorem droppedBits_mono {p q : Nat} (h : p ≤ q) : droppedBits p ≤ droppedBits q := by
  unfold droppedBits
  by_cases hp : p = 0
  · simp [hp]
  · have hq : q ≠ 0 := by omega
    have hlog : Nat.log2 p ≤ Nat.log2 q :=
      (Nat.le_log2 hq).mpr (Nat.le_trans (Nat.log2_self_le hp) h)
    omega

/-- The quotient that is rounded is the quotient without the dropped bits. -/
theorem div_shiftLeft (a den drop : Nat) : a / (den <<< drop) = (a / den) >>> drop := by
  rw [Nat.shiftLeft_eq, Nat.shiftRight_eq_div_pow, Nat.div_div_eq_div_mul]

/-- At most 53 bits are left of a quotient, or 54 after a carry. -/
theorem roundDiv_droppedBits_le (a den : Nat) :
    roundDiv a (den <<< droppedBits (a / den)) ≤ 0x20000000000000 := by
  refine Nat.le_trans (roundDiv_le _ _) ?_
  rw [div_shiftLeft, Nat.shiftRight_eq_div_pow]
  generalize a / den = q
  have hbits : q < 2 ^ (Nat.log2 q + 1) := Nat.lt_log2_self
  have hexp : Nat.log2 q + 1 ≤ 53 + droppedBits q := by
    unfold droppedBits
    omega
  have hlt : q < 2 ^ 53 * 2 ^ droppedBits q := by
    rw [← Nat.pow_add]
    exact Nat.lt_of_lt_of_le hbits (Nat.pow_le_pow_right (by decide) hexp)
  exact Nat.div_lt_of_lt_mul (by rw [Nat.mul_comm]; exact hlt)

/-- Where bits are dropped the leading bit is left. -/
theorem le_roundDiv_droppedBits {a den : Nat} (hpos : 0 < droppedBits (a / den)) :
    0x10000000000000 ≤ roundDiv a (den <<< droppedBits (a / den)) := by
  refine Nat.le_trans ?_ (div_le_roundDiv _ _)
  rw [div_shiftLeft, Nat.shiftRight_eq_div_pow]
  generalize a / den = q at *
  have hexp : Nat.log2 q = 52 + droppedBits q := by
    unfold droppedBits at hpos ⊢
    omega
  have hne : q ≠ 0 := by
    rintro rfl
    exact absurd hpos (by decide)
  have hle : 2 ^ 52 * 2 ^ droppedBits q ≤ q := by
    rw [← Nat.pow_add, ← hexp]
    exact Nat.log2_self_le hne
  exact (Nat.le_div_iff_mul_le (Nat.two_pow_pos _)).mpr hle

/-- Rounding to doubles keeps the order. -/
theorem nearest_mono {m n : Nat} (h : m ≤ n) (den : Nat) : nearest m den ≤ nearest n den := by
  have hscaled : m * unitsPerOne ≤ n * unitsPerOne := Nat.mul_le_mul_right _ h
  unfold nearest
  generalize m * unitsPerOne = a at *
  generalize n * unitsPerOne = b at *
  have hdrop : droppedBits (a / den) ≤ droppedBits (b / den) :=
    droppedBits_mono (Nat.div_le_div_right hscaled)
  refine Nat.le_min.mpr ⟨Nat.min_le_left _ _, Nat.le_trans (Nat.min_le_right _ _) ?_⟩
  show droppedBits (a / den) * 0x10000000000000 + roundDiv a (den <<< droppedBits (a / den)) ≤
    droppedBits (b / den) * 0x10000000000000 + roundDiv b (den <<< droppedBits (b / den))
  rcases Nat.lt_or_eq_of_le hdrop with hlt | heq
  · -- The smaller number is rounded to the first double of the next binade at most.
    have ha := roundDiv_droppedBits_le a den
    have hb : 0x10000000000000 ≤ roundDiv b (den <<< droppedBits (b / den)) :=
      le_roundDiv_droppedBits (Nat.lt_of_le_of_lt (Nat.zero_le _) hlt)
    omega
  · rw [heq]
    exact Nat.add_le_add_left (roundDiv_mono hscaled _) _

end RecordStore.Binary64
