import RecordStore.Proofs.Binary64.Rounding

/-!
# `RecordStore.Proofs.Binary64.Value`: the exact values of doubles

The value of a finite double is a whole multiple of the smallest magnitude, so it is a whole number
where that multiple is one of `unitsPerOne`. Such a double is converted to the 64-bit number of the
same value if there is one; the bound that is tested for this is the largest 64-bit number, rounded
to a double, and that is `2 ^ 63`.

* `natAbs_units`: the exact value without its sign.
* `sameValue_of_isFinite`, `isNaN_of_isFinite`: finite numbers among all others.
* `isWhole_iff`: doubles without a fraction.
* `toInt64_of_units`: the conversion to a 64-bit number keeps the value where there is such a
  number.
* `abs_order?_maxInt64_iff`: doubles below the bound.
* `le_natAbs_units_ofInt`: whole numbers past the bound are not rounded below it.
-/

set_option autoImplicit false

namespace RecordStore.Binary64

/-! ### Values -/

/-- The exact value is a magnitude, with a sign. -/
theorem natAbs_units (x : Binary64) : x.units.natAbs = magnitude x.rank := by
  rw [units]
  split <;> simp

/-- A finite number is equal to no number that is not finite. -/
theorem sameValue_of_isFinite {x y : Binary64} (hx : x.isFinite = true)
    (hy : y.isFinite = false) : x.sameValue y = false := by
  rw [isFinite, decide_eq_true_eq] at hx
  rw [isFinite, decide_eq_false_iff_not] at hy
  have hne : x.units ≠ y.units := by
    intro h
    have hlt : magnitude x.rank < magnitude y.rank := magnitude_strictMono (by omega)
    rw [← natAbs_units, ← natAbs_units, h] at hlt
    exact Nat.lt_irrefl _ hlt
  rw [sameValue, order?]
  split
  · rfl
  · simp [hne]

/-- A finite number is a number. -/
theorem isNaN_of_isFinite {x : Binary64} (h : x.isFinite = true) : x.isNaN = false := by
  rw [isFinite, decide_eq_true_eq] at h
  rw [isNaN, decide_eq_false_iff_not]
  omega

/-! ### Whole numbers -/

/-- A finite number has no fraction if it is a multiple of one. -/
theorem isWhole_iff (x : Binary64) :
    x.isWhole = true ↔ x.isFinite = true ∧ ∃ n : Int, x.units = n * unitsPerOne := by
  rw [isWhole, Bool.and_eq_true, beq_iff_eq]
  refine and_congr_right fun _ => ⟨fun h => ?_, ?_⟩
  · obtain ⟨n, hn⟩ := Int.dvd_of_emod_eq_zero h
    exact ⟨n, hn.trans (Int.mul_comm _ _)⟩
  · rintro ⟨n, hn⟩
    rw [hn, Int.mul_emod_left]

/-- A number that is equal to a 64-bit number is converted to it. -/
theorem toInt64_of_units {x : Binary64} {k : Int64} (hfin : x.isFinite = true)
    (h : x.units = k.toInt * unitsPerOne) : x.toInt64 = k := by
  have hone : (unitsPerOne : Int) ≠ 0 := by exact_mod_cast Nat.ne_of_gt unitsPerOne_pos
  rw [toInt64, isNaN_of_isFinite hfin, h, Int.mul_tdiv_cancel _ hone, Int64.ofIntClamp_toInt]
  rfl

/-! ### The bound of the 64-bit numbers -/

/-- The rank of `2 ^ 63`. -/
def boundRank : Nat :=
  0x43E0000000000000

/-- The rank of the bound has the magnitude of the bound. -/
theorem magnitude_boundRank : magnitude boundRank = 0x8000000000000000 * unitsPerOne := by
  decide +kernel

/-- The largest 64-bit number is rounded up to the bound, which it is one below. -/
theorem ofInt_maxInt64 :
    ofInt 0x7FFFFFFFFFFFFFFF = ⟨false, boundRank, by decide⟩ := by
  decide +kernel

/-- A finite number is below the bound if its value without the sign is. -/
theorem abs_order?_maxInt64_iff {x : Binary64} (hfin : x.isFinite = true) :
    x.abs.order? (ofInt 0x7FFFFFFFFFFFFFFF) = some .lt ↔
      x.units.natAbs < 0x8000000000000000 * unitsPerOne := by
  have hnum : x.abs.isNaN = false := isNaN_of_isFinite hfin
  rw [ofInt_maxInt64, order?, hnum, natAbs_units, ← magnitude_boundRank]
  show some (compare (magnitude x.rank : Int) (magnitude boundRank : Int)) = some .lt ↔ _
  rw [Option.some.injEq, Int.compare_eq_lt, Int.ofNat_lt]

/-- A whole number past the bound is rounded to a double that is not below it. -/
theorem le_natAbs_units_ofInt {n : Int} (h : 0x8000000000000000 ≤ n.natAbs) :
    0x8000000000000000 * unitsPerOne ≤ (ofInt n).units.natAbs := by
  rw [natAbs_units, ← magnitude_boundRank]
  have hnearest : boundRank ≤ nearest n.natAbs 1 := by
    have hbound : nearest 0x8000000000000000 1 = boundRank := by decide +kernel
    rw [← hbound]
    exact nearest_mono h 1
  show magnitude boundRank ≤ magnitude (nearest n.natAbs 1)
  rcases Nat.lt_or_eq_of_le hnearest with hlt | heq
  · exact Nat.le_of_lt (magnitude_strictMono hlt)
  · exact Nat.le_of_eq (congrArg magnitude heq)

end RecordStore.Binary64
