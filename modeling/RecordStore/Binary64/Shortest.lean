import RecordStore.Binary64.Rounding
import RecordStore.Decimal.Digits

/-!
# `RecordStore.Binary64.Shortest`: the fewest digits that read back

A finite double has many decimals that round to it. `shortest` takes one with the fewest digits,
and of two such decimals the one nearer to the exact value; `Tie` says which one is taken where
both are equally near. For each number of digits the search tests the two neighbours of the exact
value on the grid of decimals with that many digits, so the rounding function itself is the
criterion. Where seventeen digits should not do, the exact value is written.
-/

set_option autoImplicit false

namespace RecordStore.Binary64

open RecordStore.Decimal

/-- Which of two equally near decimals is taken:

- `toEven`: the one with the even last digit;
- `up`: the larger one. -/
inductive Tie where
  | toEven
  | up

/-- The choice between `low` and `low + 1`. -/
def Tie.pick : Tie → Nat → Nat
  | .toEven, low => if low % 2 = 0 then low else low + 1
  | .up, low => low + 1

/-- A positive decimal, `coefficient * 10 ^ exponent`. -/
structure Scaled where
  coefficient : Nat
  exponent : Int

/-- The decimal rounds to the magnitude of `rank`. -/
def Scaled.readsBack (d : Scaled) (rank : Nat) : Bool :=
  (ofDecimal false d.coefficient d.exponent).rank == rank

/-- The power of ten that the leading digit of a positive finite magnitude counts. The factor
`10 ^ 400` makes every such magnitude larger than one. -/
def leadingExponent (rank : Nat) : Int :=
  ((digits (magnitude rank * tenTo 400 / unitsPerOne)).length : Int) - 401

/-- The multiple of `10 ^ exponent` that is nearest to the magnitude among its two neighbours
that read back. -/
def neighbour? (tie : Tie) (rank : Nat) (exponent : Int) : Option Scaled :=
  let num := magnitude rank * tenTo (-exponent).toNat
  let den := unitsPerOne * tenTo exponent.toNat
  let low : Scaled := ⟨num / den, exponent⟩
  let high : Scaled := ⟨num / den + 1, exponent⟩
  if low.readsBack rank then
    if high.readsBack rank then
      -- Both will do: the nearer one, and at equal distance what the tie rule says.
      if 2 * (num % den) < den then some low
      else if den < 2 * (num % den) then some high
      else some ⟨tie.pick (num / den), exponent⟩
    else some low
  else if high.readsBack rank then some high
  else none

/-- The exact value of a magnitude: a unit has no more than 1074 decimals. -/
def exactly (rank : Nat) : Scaled :=
  ⟨magnitude rank * tenTo 1074 / unitsPerOne, -1074⟩

/-- The decimal without trailing zeros among its digits. -/
def Scaled.trimmed (d : Scaled) : Scaled :=
  let zeros := ((digits d.coefficient).reverse.takeWhile (· == '0')).length
  ⟨d.coefficient / tenTo zeros, d.exponent + zeros⟩

/-- A decimal with the fewest digits that reads back as the magnitude of `rank`. -/
def shortest (tie : Tie) (rank : Nat) : Scaled :=
  if rank = 0 then ⟨0, 0⟩
  else
    let lead := leadingExponent rank
    (((List.range 17).findSome? fun n => neighbour? tie rank (lead - Int.ofNat n)).getD
      (exactly rank)).trimmed

end RecordStore.Binary64
