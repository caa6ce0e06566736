/-!
# `RecordStore.Binary64.Basic`: double-precision numbers

A binary64 number is a sign and the rank of its magnitude. Rank `0` is zero, each further rank is
the next larger magnitude, and rank `infinityRank` is infinity; the ranks above it are the
values that are no number. The rank is the number that the low 63 bits of the interchange form
write down, so a `Binary64` carries exactly the bits of its interchange form.

Every finite magnitude is a whole multiple of the smallest one, `2 ^ -1074`. `units` is that
multiple, with the sign, and gives numbers their exact values: comparisons and the conversion to
64-bit numbers are comparisons and divisions of units.

* `magnitude_strictMono`: a larger rank is a larger magnitude.
-/

set_option autoImplicit false

namespace RecordStore

/-- A binary64 number: its sign and the rank of its magnitude:

- `negative`: the sign bit;
- `rank`: the place of the magnitude among all magnitudes, counted from zero;
- `rank_lt`: the rank fits the 63 bits that the interchange form has for it. -/
structure Binary64 where
  negative : Bool
  rank : Nat
  rank_lt : rank < 0x8000000000000000
deriving DecidableEq

namespace Binary64

/-- The rank of infinity. -/
def infinityRank : Nat :=
  0x7FF0000000000000

/-- No number. -/
def isNaN (x : Binary64) : Bool :=
  decide (infinityRank < x.rank)

/-- A number with a finite magnitude. -/
def isFinite (x : Binary64) : Bool :=
  decide (x.rank < infinityRank)

/-- One as a multiple of the smallest magnitude. -/
@[irreducible]
def unitsPerOne : Nat :=
  1 <<< 1074

/-- One is a positive multiple of the smallest magnitude. -/
theorem unitsPerOne_pos : 0 < unitsPerOne := by
  have hpos : ∀ e : Nat, 0 < 1 <<< e := fun e => by
    rw [Nat.shiftLeft_eq, Nat.one_mul]
    exact Nat.two_pow_pos e
  unfold unitsPerOne
  exact hpos 1074

/-- The magnitude of a rank as a multiple of the smallest magnitude: the low 52 bits count within
a binade, the bits above number the binades, and all but the lowest one have a leading bit that
is not stored. -/
def magnitude (rank : Nat) : Nat :=
  if rank < 0x10000000000000 then rank
  else (0x10000000000000 + rank % 0x10000000000000) <<< (rank / 0x10000000000000 - 1)

/-- The exact value as a multiple of the smallest magnitude. -/
def units (x : Binary64) : Int :=
  if x.negative then -(magnitude x.rank : Int) else magnitude x.rank

/-! ### Order -/

/-- The order of two numbers by their exact values; what is no number has no order. -/
def order? (x y : Binary64) : Option Ordering :=
  if x.isNaN || y.isNaN then none else some (compare x.units y.units)

/-- The two numbers have the same exact value. -/
def sameValue (x y : Binary64) : Bool :=
  x.order? y == some .eq

/-- In the lowest binade a magnitude is its rank. -/
theorem magnitude_of_lt {rank : Nat} (h : rank < 0x10000000000000) : magnitude rank = rank := by
  unfold magnitude
  rw [if_pos h]

/-- Above the lowest binade a magnitude has a leading bit and a scale. -/
theorem magnitude_of_ge {rank : Nat} (h : ¬rank < 0x10000000000000) :
    magnitude rank =
      (0x10000000000000 + rank % 0x10000000000000) <<< (rank / 0x10000000000000 - 1) := by
  unfold magnitude
  rw [if_neg h]

/-- The magnitude of one rank is below that of the next. -/
theorem magnitude_lt_succ (rank : Nat) : magnitude rank < magnitude (rank + 1) := by
  have hpos : ∀ e : Nat, 0 < 2 ^ e := Nat.two_pow_pos
  by_cases hsmall : rank + 1 < 0x10000000000000
  · rw [magnitude_of_lt (by omega), magnitude_of_lt hsmall]
    omega
  · by_cases hlast : rank < 0x10000000000000
    · -- The last rank of the lowest binade.
      have hrank : rank = 0xFFFFFFFFFFFFF := by omega
      subst hrank
      decide
    · rw [magnitude_of_ge hlast, magnitude_of_ge hsmall]
      simp only [Nat.shiftLeft_eq]
      by_cases hcarry : rank % 0x10000000000000 + 1 < 0x10000000000000
      · -- Within a binade the fraction grows by one.
        have hq : (rank + 1) / 0x10000000000000 = rank / 0x10000000000000 := by omega
        have hr : (rank + 1) % 0x10000000000000 = rank % 0x10000000000000 + 1 := by omega
        rw [hq, hr]
        exact Nat.mul_lt_mul_of_pos_right (by omega) (hpos _)
      · -- At the end of a binade the fraction starts again, at twice the scale.
        have hq : (rank + 1) / 0x10000000000000 - 1 = (rank / 0x10000000000000 - 1) + 1 := by
          omega
        have hr : (rank + 1) % 0x10000000000000 = 0 := by omega
        rw [hq, hr, Nat.add_zero, Nat.pow_succ', ← Nat.mul_assoc]
        exact Nat.mul_lt_mul_of_pos_right (by omega) (hpos _)

/-- A larger rank is a larger magnitude. -/
theorem magnitude_strictMono {r s : Nat} (h : r < s) : magnitude r < magnitude s := by
  induction s with
  | zero => omega
  | succ s ih =>
    by_cases hr : r = s
    · exact hr ▸ magnitude_lt_succ r
    · exact Nat.lt_trans (ih (by omega)) (magnitude_lt_succ s)

/-! ### Whole numbers -/

/-- A finite number without a fraction. -/
def isWhole (x : Binary64) : Bool :=
  x.isFinite && x.units % unitsPerOne == 0

/-- The number without its sign. -/
def abs (x : Binary64) : Binary64 :=
  { x with negative := false }

/-- The 64-bit number that is left when the fraction is cut off: the nearest end of the range
where that is out of range, and zero for what is no number. -/
def toInt64 (x : Binary64) : Int64 :=
  if x.isNaN then 0 else Int64.ofIntClamp (x.units.tdiv unitsPerOne)

end Binary64

end RecordStore
