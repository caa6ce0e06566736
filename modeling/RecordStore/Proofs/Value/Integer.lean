import Mathlib.Data.Rat.Cast.Order
import RecordStore.Proofs.Binary64.Value
import RecordStore.Proofs.Value.Leaves

/-!
# `RecordStore.Proofs.Value.Integer`: whole numbers read from numbers

A number is read as a whole number exactly if its value is one and has 64 bits. The test for a
double compares its value without the sign with the bound, so that the conversion behind the test
never meets a fraction and never leaves the range. The range has one number more below zero than
above, and there the test is too strict: `-2 ^ 63` is read where it is written as a whole number,
and refused as a double.

* `wholeInt64?_eq_some_iff`: the 64-bit number that a double is equal to.
* `integer?_int`: a whole number out of range is not saved by its rounding to a double.
* `ofJson_integer_of_number`: every number.
* `ofJson_leastInt64_double`: the double that is refused.
-/

set_option autoImplicit false

namespace RecordStore

namespace Value

/-! ### Doubles -/

/-- A multiple of one is below the bound if the number without its sign is. -/
theorem natAbs_mul_unitsPerOne_lt_iff (n : Int) :
    (n * Binary64.unitsPerOne).natAbs < 0x8000000000000000 * Binary64.unitsPerOne ↔
      n.natAbs < 0x8000000000000000 := by
  rw [Int.natAbs_mul, Int.natAbs_natCast, Nat.mul_lt_mul_right Binary64.unitsPerOne_pos]

/-- A 64-bit number is below the bound, unless it is the least one. -/
theorem natAbs_toInt_lt_iff (k : Int64) :
    k.toInt.natAbs < 0x8000000000000000 ↔ k.toInt ≠ -0x8000000000000000 := by
  have hlo : -0x8000000000000000 ≤ k.toInt := k.le_toInt
  have hhi : k.toInt < 0x8000000000000000 := k.toInt_lt
  omega

/-- A double is tried as a 64-bit number with success if it is equal to one that is not the least
of them. -/
theorem wholeInt64?_eq_some_iff {x : Binary64} {k : Int64} :
    wholeInt64? x = some k ↔ x.isFinite = true ∧ x.units = k.toInt * Binary64.unitsPerOne ∧
      k.toInt ≠ -0x8000000000000000 := by
  rw [wholeInt64?, Option.ite_none_right_eq_some, Bool.and_eq_true, Binary64.isWhole_iff,
    beq_iff_eq, Option.some.injEq]
  constructor
  · rintro ⟨⟨⟨hfin, n, hn⟩, hbound⟩, rfl⟩
    rw [Binary64.abs_order?_maxInt64_iff hfin, hn, natAbs_mul_unitsPerOne_lt_iff] at hbound
    have htoInt : (Int64.ofInt n).toInt = n := Int64.toInt_ofInt_of_le (by omega) (by omega)
    have hx : x.toInt64 = Int64.ofInt n := Binary64.toInt64_of_units hfin (by rw [htoInt, hn])
    rw [hx, htoInt]
    exact ⟨hfin, hn, by omega⟩
  · rintro ⟨hfin, hunits, hleast⟩
    refine ⟨⟨⟨hfin, k.toInt, hunits⟩, ?_⟩, Binary64.toInt64_of_units hfin hunits⟩
    rw [Binary64.abs_order?_maxInt64_iff hfin, hunits, natAbs_mul_unitsPerOne_lt_iff,
      natAbs_toInt_lt_iff]
    exact hleast

/-! ### Whole numbers -/

/-- The 64-bit number equal to a whole number. -/
theorem int64?_eq_some_iff {n : Int} {k : Int64} : int64? n = some k ↔ n = k.toInt := by
  constructor
  · intro h
    rw [int64?, Option.ite_none_right_eq_some, Option.some.injEq] at h
    obtain ⟨⟨hlo, hhi⟩, rfl⟩ := h
    exact (Int64.toInt_ofInt_of_le hlo hhi).symm
  · rintro rfl
    exact int64?_toInt k

/-- A whole number out of range is refused, since as a double it is out of range too. -/
theorem integer?_int (n : Int) : integer? (.int n) = int64? n := by
  rw [integer?]
  cases hn : int64? n with
  | some k => rfl
  | none =>
    rw [Option.none_or, Option.eq_none_iff_forall_ne_some]
    intro k hk
    obtain ⟨-, hunits, hleast⟩ := wholeInt64?_eq_some_iff.mp hk
    have hrange : 0x8000000000000000 ≤ n.natAbs := by
      rw [int64?] at hn
      split at hn
      · cases hn
      · omega
    have hge := Binary64.le_natAbs_units_ofInt hrange
    have hlt : (Binary64.ofInt n).units.natAbs < 0x8000000000000000 * Binary64.unitsPerOne := by
      rw [hunits, natAbs_mul_unitsPerOne_lt_iff, natAbs_toInt_lt_iff]
      exact hleast
    exact Nat.not_lt.mpr hge hlt

end Value

/-! ### Numbers -/

/-- The exact value of a number. -/
def Json.exactValue? : Json → Option ℚ
  | .int n => some n
  | .float x => if x.isFinite then some (x.units / Binary64.unitsPerOne) else none
  | _ => none

/-- The value of the number is `k`, which has 64 bits, and the number is written without a point
and an exponent if `k` is the least number of 64 bits. -/
def Json.IsInt64 (raw : Json) (k : Int) : Prop :=
  raw.exactValue? = some (k : ℚ) ∧ (-0x8000000000000000 ≤ k ∧ k ≤ 0x7FFFFFFFFFFFFFFF) ∧
    (k = -0x8000000000000000 → raw = .int k)

namespace Value

/-- A finite double has the value of a whole number if it is that multiple of one. -/
theorem exactValue?_float_eq_iff {x : Binary64} {k : Int} :
    (Json.float x).exactValue? = some (k : ℚ) ↔
      x.isFinite = true ∧ x.units = k * Binary64.unitsPerOne := by
  have hone : (Binary64.unitsPerOne : ℚ) ≠ 0 := by
    exact_mod_cast Nat.ne_of_gt Binary64.unitsPerOne_pos
  rw [Json.exactValue?, Option.ite_none_right_eq_some, Option.some.injEq, div_eq_iff hone]
  exact and_congr_right fun _ => by exact_mod_cast Iff.rfl

/-- A number is read as the 64-bit number that is its value. -/
theorem integer?_eq_some_iff {raw : Json} (h : raw.exactValue?.isSome = true) {k : Int64} :
    integer? raw = some k ↔ raw.IsInt64 k.toInt := by
  have hlo : -0x8000000000000000 ≤ k.toInt := k.le_toInt
  have hhi : k.toInt < 0x8000000000000000 := k.toInt_lt
  have hrange : -0x8000000000000000 ≤ k.toInt ∧ k.toInt ≤ 0x7FFFFFFFFFFFFFFF := ⟨hlo, by omega⟩
  rw [Json.IsInt64, and_iff_right hrange]
  cases raw with
  | int n =>
    rw [integer?_int, int64?_eq_some_iff, Json.exactValue?, Option.some.injEq, Int.cast_inj]
    exact (and_iff_left_of_imp fun heq _ => by rw [heq]).symm
  | float x =>
    rw [integer?, wholeInt64?_eq_some_iff, exactValue?_float_eq_iff, and_assoc]
    simp only [reduceCtorEq, imp_false, ne_eq]
  | null | bool | string | array | object => cases h

/-- The value of a number is a 64-bit number that can be read if it is read. -/
theorem isInt64_iff {raw : Json} (h : raw.exactValue?.isSome = true) (k : Int) :
    raw.IsInt64 k ↔ ∃ n : Int64, n.toInt = k ∧ integer? raw = some n := by
  constructor
  · intro hk
    obtain ⟨-, ⟨hlo, hhi⟩, -⟩ := id hk
    have htoInt : (Int64.ofInt k).toInt = k := Int64.toInt_ofInt_of_le hlo (by omega)
    refine ⟨Int64.ofInt k, htoInt, (integer?_eq_some_iff h).mpr ?_⟩
    rw [htoInt]
    exact hk
  · rintro ⟨n, rfl, hn⟩
    exact (integer?_eq_some_iff h).mp hn

/-- A number is read as what `integer?` takes it for, or it is unreadable. -/
theorem ofJson_integer_eq {raw : Json} (h : raw.exactValue?.isSome = true) :
    ofJson (.scalar .integer) raw =
      (integer? raw).elim (.error (.mismatch (.unreadable raw .integer)))
        fun n => .ok (some (.integer n)) := by
  have hnull : raw ≠ .null := by
    rintro rfl
    cases h
  have harray : ∀ items, raw ≠ .array items := by
    rintro items rfl
    cases h
  rw [ofJson_of_ne_null hnull, readItem_eq_readScalar hnull harray]
  show (orUnreadable raw .integer ((integer? raw).map .integer)).map some = _
  cases integer? raw with
  | none => rfl
  | some n => rfl

/-- A number is read as a whole number exactly if it is one, of 64 bits, with the value kept; the
least 64-bit number is read from a whole number only and not from a double. Any other number is a
mismatch. -/
theorem ofJson_integer_of_number {raw : Json} (h : raw.exactValue?.isSome = true) :
    (∀ k : Int, (∃ n : Int64, n.toInt = k ∧
      ofJson (.scalar .integer) raw = .ok (some (.integer n))) ↔ raw.IsInt64 k) ∧
    (ofJson (.scalar .integer) raw = .error (.mismatch (.unreadable raw .integer)) ↔
      ∀ k, ¬raw.IsInt64 k) := by
  rw [ofJson_integer_eq h]
  simp only [isInt64_iff h]
  cases integer? raw with
  | none => simp
  | some m => simp

/-- The largest double below `2 ^ 63` is read, and so is the least 64-bit number where it is
written as a whole number; the next number above the range is a mismatch. -/
theorem ofJson_integer_of_number_bounds :
    let below : Binary64 := ⟨false, Binary64.boundRank - 1, by decide⟩
    (∃ n : Int64, n.toInt = 0x7FFFFFFFFFFFFC00 ∧
      ofJson (.scalar .integer) (.float below) = .ok (some (.integer n))) ∧
    (∃ n : Int64, n.toInt = -0x8000000000000000 ∧
      ofJson (.scalar .integer) (.int (-0x8000000000000000)) = .ok (some (.integer n))) ∧
    ofJson (.scalar .integer) (.int 0x8000000000000000)
      = .error (.mismatch (.unreadable (.int 0x8000000000000000) .integer)) := by
  intro below
  have hbelow : (Json.float below).exactValue? = some ((0x7FFFFFFFFFFFFC00 : Int) : ℚ) :=
    exactValue?_float_eq_iff.mpr ⟨by decide, by decide +kernel⟩
  have hsome : (Json.float below).exactValue?.isSome = true := by rw [hbelow]; rfl
  refine ⟨?_, ?_, ?_⟩
  · exact ((ofJson_integer_of_number hsome).1 _).mpr
      ⟨hbelow, by decide, fun hleast => absurd hleast (by decide)⟩
  · exact ((ofJson_integer_of_number rfl).1 _).mpr ⟨rfl, by decide, fun _ => rfl⟩
  · refine (ofJson_integer_of_number rfl).2.mpr ?_
    rintro k ⟨hvalue, ⟨-, hhi⟩, -⟩
    have hk : (0x8000000000000000 : Int) = k := by
      exact_mod_cast Option.some.inj hvalue
    omega

/-! ### The least number -/

/-- The least 64-bit number, as a double. -/
def leastInt64 : Binary64 :=
  ⟨true, Binary64.boundRank, by decide⟩

/-- The exact value of this double. -/
theorem units_leastInt64 : leastInt64.units = -0x8000000000000000 * Binary64.unitsPerOne := by
  show -(Binary64.magnitude Binary64.boundRank : Int) = _
  rw [Binary64.magnitude_boundRank, Int.natCast_mul, Int.neg_mul]
  rfl

/-- The value of this double is a number of 64 bits, but the double is not read as that number. -/
theorem ofJson_leastInt64_double :
    (Json.float leastInt64).exactValue? = some ((-0x8000000000000000 : Int) : ℚ) ∧
    ofJson (.scalar .integer) (.float leastInt64)
      = .error (.mismatch (.unreadable (.float leastInt64) .integer)) := by
  have hvalue : (Json.float leastInt64).exactValue? = some ((-0x8000000000000000 : Int) : ℚ) :=
    exactValue?_float_eq_iff.mpr ⟨by decide, units_leastInt64⟩
  have hread : integer? (.float leastInt64) = none := by
    rw [integer?, Option.eq_none_iff_forall_ne_some]
    intro k hk
    obtain ⟨-, hunits, hleast⟩ := wholeInt64?_eq_some_iff.mp hk
    have hone : (Binary64.unitsPerOne : Int) ≠ 0 := by
      exact_mod_cast Nat.ne_of_gt Binary64.unitsPerOne_pos
    rw [units_leastInt64] at hunits
    exact hleast (Int.eq_of_mul_eq_mul_right hone hunits).symm
  refine ⟨hvalue, ?_⟩
  rw [ofJson_integer_eq (by rw [hvalue]; rfl), hread]
  rfl

end Value

end RecordStore
