/-!
# `RecordStore.Http.Base64`: bytes in sixty-four letters

Three bytes are four letters of six bits each; one or two bytes at the end are filled up with equal
signs.
-/

set_option autoImplicit false

namespace RecordStore.Http.Base64

/-- The sixty-four letters, in order. -/
def letters : List Char :=
  "ABCDEFGHIJKLMNOPQRSTUVWXYZabcdefghijklmnopqrstuvwxyz0123456789+/".toList

/-- The letter for the low six bits. -/
def letter (n : Nat) : Char :=
  (letters[n % 64]?).getD '='

/-- The letters for bytes. -/
def encode : List UInt8 → List Char
  | [] => []
  | [a] =>
    let n := a.toNat * 16
    [letter (n / 64), letter n, '=', '=']
  | [a, b] =>
    let n := (a.toNat * 256 + b.toNat) * 4
    [letter (n / 4096), letter (n / 64), letter n, '=']
  | a :: b :: c :: rest =>
    let n := (a.toNat * 256 + b.toNat) * 256 + c.toNat
    letter (n / 262144) :: letter (n / 4096) :: letter (n / 64) :: letter n :: encode rest

end RecordStore.Http.Base64
