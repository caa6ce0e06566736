import RecordStore.Binary64.Shortest

/-!
# `RecordStore.Binary64.Layout`: how a double is written

The digits come from `shortest`; a `Layout` holds the decisions that a format makes about them:
which way a tie goes, for which exponents the number is written positionally, and whether a whole
number shows a `.0`. Elsewhere the number is written with an exponent, which carries its sign and
no leading zeros.
-/

set_option autoImplicit false

namespace RecordStore.Binary64

open RecordStore.Decimal

/-- The decisions of a format that writes doubles:

- `tie`: which of two equally near decimals is written;
- `positional`: the number is written positionally, by the exponent of its leading digit;
- `pointZero`: a whole number in positional form ends in `.0`. -/
structure Layout where
  tie : Tie
  positional : Int → Bool
  pointZero : Bool

/-- Digits with the point in its place and zeros where digits are missing. -/
def Layout.positionalText (l : Layout) (d : Scaled) : List Char :=
  let ds := digits d.coefficient
  if 0 ≤ d.exponent then
    ds ++ List.replicate d.exponent.toNat '0' ++ (if l.pointZero then ['.', '0'] else [])
  else
    let places := (-d.exponent).toNat
    if places < ds.length then
      ds.take (ds.length - places) ++ '.' :: ds.drop (ds.length - places)
    else '0' :: '.' :: (List.replicate (places - ds.length) '0' ++ ds)

/-- The leading digit, the point and the other digits if there are any, and the exponent. -/
def exponentText (d : Scaled) : List Char :=
  let ds := digits d.coefficient
  let lead := d.exponent + (ds.length - 1 : Nat)
  ds.take 1 ++ (if ds.length = 1 then [] else '.' :: ds.drop 1) ++
    'e' :: (if lead < 0 then '-' else '+') :: digits lead.natAbs

/-- The written form of a finite magnitude. -/
def Layout.magnitudeText (l : Layout) (rank : Nat) : List Char :=
  let d := shortest l.tie rank
  if l.positional (d.exponent + ((digits d.coefficient).length - 1 : Nat)) then
    l.positionalText d
  else exponentText d

/-- The written form of a double. What is no number has one form, with no sign. -/
def Layout.text (l : Layout) (x : Binary64) : List Char :=
  if x.isNaN then ['N', 'a', 'N']
  else (if x.negative then ['-'] else []) ++
    (if x.isFinite then l.magnitudeText x.rank else ['i', 'n', 'f'])

end RecordStore.Binary64
