import RecordStore.Decimal.Digits
import RecordStore.Url.Domain

/-!
# `RecordStore.Url.Host`: hosts of URLs

The host of a special scheme is an address of version 4 or 6 or a domain. Anything whose last
label is a number must be an address of version 4, and brackets enclose one of version 6. The host
of any other scheme is taken as it is, except that some characters may not stand in it.
-/

set_option autoImplicit false

namespace RecordStore.Url

open RecordStore.Text

/-- A text that is no URL:

- `noScheme`: there is no scheme;
- `emptyHost`: there is no host where one must be;
- `badPort`: the port is no number of 16 bits;
- `badIpv4`: the host looks like an address of version 4 and is none;
- `badIpv6`: the host looks like an address of version 6 and is none;
- `badDomain`: the host is no domain;
- `badHostCharacter`: a character may not stand in the host. -/
inductive UrlError where
  | noScheme
  | emptyHost
  | badPort
  | badIpv4
  | badIpv6
  | badDomain
  | badHostCharacter
deriving DecidableEq

/-- What is wrong, in words. -/
def UrlError.message : UrlError → String
  | .noScheme => "relative URL without a base"
  | .emptyHost => "empty host"
  | .badPort => "invalid port number"
  | .badIpv4 => "invalid IPv4 address"
  | .badIpv6 => "invalid IPv6 address"
  | .badDomain => "invalid international domain name"
  | .badHostCharacter => "invalid domain character"

/-- The host of a URL:

- `name`: a name;
- `ipv4`: an address of version 4;
- `ipv6`: an address of version 6, as eight pieces of 16 bits. -/
inductive Host where
  | name (s : List Char)
  | ipv4 (address : Nat)
  | ipv6 (pieces : List Nat)
deriving DecidableEq

/-! ### Addresses of version 4 -/

/-- The value of digits in the given base. -/
def numberInBase? (base : Nat) (s : List Char) : Option Nat :=
  s.foldl (fun n? c => do
    let n ← n?
    let d ← hexValue? c
    if d < base then some (n * base + d) else none) (some 0)

/-- The number that a label is: decimal, octal behind `0`, hexadecimal behind `0x`. -/
def ipv4Number? (s : List Char) : Option Nat :=
  match s with
  | [] => none
  | '0' :: 'x' :: rest => numberInBase? 16 rest
  | '0' :: 'X' :: rest => numberInBase? 16 rest
  | '0' :: c :: rest => numberInBase? 8 (c :: rest)
  | s => numberInBase? 10 s

/-- The labels of a name, without an empty one at the end. -/
def labels (s : List Char) : List (List Char) :=
  let all := splitOn (· == '.') s
  if 1 < all.length && all.getLast? == some [] then all.dropLast else all

/-- The last label is a number, or it consists of digits. -/
def endsInNumber (s : List Char) : Bool :=
  match (labels s).getLast? with
  | some last => Decimal.isDigits last || (ipv4Number? last).isSome
  | none => false

/-- The address that up to four labels are: the last number fills what the others leave. -/
def ipv4? (s : List Char) : Option Nat := do
  let numbers ← (labels s).mapM ipv4Number?
  if 4 < numbers.length then none
  else
    let last ← numbers.getLast?
    let front := numbers.dropLast
    let rest := 8 * (4 - front.length)
    if 1 <<< rest ≤ last || front.any (255 < ·) then none
    else
      let high := front.foldl (fun n d => n * 256 + d) 0
      some (high <<< rest + last)

/-- The written form of an address of version 4. -/
def ipv4Text (address : Nat) : List Char :=
  let part (i : Nat) := Decimal.digits ((address >>> (8 * i)) % 256)
  part 3 ++ '.' :: (part 2 ++ '.' :: (part 1 ++ '.' :: part 0))

/-! ### Addresses of version 6 -/

/-- A piece of 16 bits: one to four hexadecimal digits. -/
def ipv6Piece? (s : List Char) : Option Nat :=
  if s.isEmpty || 4 < s.length then none else numberInBase? 16 s

/-- A decimal number of eight bits without a superfluous zero. -/
def octet? (s : List Char) : Option Nat := do
  let n ← Decimal.natValue? s
  if n < 256 && (s.length == 1 || s.head? != some '0') then some n else none

/-- The two pieces that a dotted address at the end stands for. -/
def ipv6Tail? (s : List Char) : Option (List Nat) := do
  let octets ← (splitOn (· == '.') s).mapM octet?
  match octets with
  | [a, b, c, d] => some [a * 256 + b, c * 256 + d]
  | _ => none

/-- The pieces of a run without a gap; a dotted address may stand at the end of the last one. -/
def ipv6Run? (dotted : Bool) (s : List Char) : Option (List Nat) :=
  if s.isEmpty then some []
  else
    let parts := splitOn (· == ':') s
    let last := parts.getLast?.getD []
    if dotted && last.contains '.' then do
      let front ← parts.dropLast.mapM ipv6Piece?
      some (front ++ (← ipv6Tail? last))
    else parts.mapM ipv6Piece?

/-- What stands before and behind the first double colon. -/
def splitGap : List Char → Option (List Char × List Char)
  | [] => none
  | ':' :: ':' :: rest => some ([], rest)
  | c :: rest => (splitGap rest).map fun (a, b) => (c :: a, b)

/-- The eight pieces of an address; a double colon stands for at least one piece of zero. -/
def ipv6? (s : List Char) : Option (List Nat) :=
  match splitGap s with
  | none => do
    let pieces ← ipv6Run? true s
    if pieces.length = 8 then some pieces else none
  | some (front, back) => do
    let front ← ipv6Run? false front
    let back ← ipv6Run? true back
    let given := front.length + back.length
    if given < 8 then some (front ++ List.replicate (8 - given) 0 ++ back) else none

/-- The length of the run of zeros that starts at each piece. -/
def zeroRuns : List Nat → List Nat
  | [] => []
  | p :: rest =>
    let runs := zeroRuns rest
    (if p = 0 then runs.head?.getD 0 + 1 else 0) :: runs

/-- Pieces with colons between them. -/
def joinPieces (pieces : List Nat) : List Char :=
  List.intercalate [':'] (pieces.map (Nat.toDigits 16))

/-- The written form of an address of version 6: the first of the longest runs of at least two
zeros is left out. -/
def ipv6Text (pieces : List Nat) : List Char :=
  let runs := zeroRuns pieces
  let longest := runs.foldl max 0
  if longest < 2 then joinPieces pieces
  else
    let start := runs.idxOf longest
    joinPieces (pieces.take start) ++ [':', ':'] ++ joinPieces (pieces.drop (start + longest))

/-! ### Hosts -/

/-- The address between brackets. -/
def bracketed? (s : List Char) : Except UrlError Host :=
  if s.getLast? = some ']' then
    match ipv6? s.dropLast.tail with
    | some pieces => .ok (.ipv6 pieces)
    | none => .error .badIpv6
  else .error .badIpv6

/-- The host of a special scheme. -/
def Host.ofText? (s : List Char) : Except UrlError Host :=
  if s.head? = some '[' then bracketed? s
  else
    match domain? s with
    | none => .error .badDomain
    | some domain =>
      if domain.isEmpty then .error .emptyHost
      else if endsInNumber domain then
        match ipv4? domain with
        | some address => .ok (.ipv4 address)
        | none => .error .badIpv4
      else .ok (.name domain)

/-- A character that may not stand in the host of any scheme. -/
def isForbiddenInHost (c : Char) : Bool :=
  ['\x00', '\t', '\n', '\r', ' ', '#', '/', ':', '<', '>', '?', '@', '[', '\\', ']', '^',
    '|'].contains c

/-- The host of a scheme that is not special. -/
def Host.ofPlainText? (s : List Char) : Except UrlError Host :=
  if s.head? = some '[' then bracketed? s
  else if s.any isForbiddenInHost then .error .badHostCharacter
  else .ok (.name (percentEncode inControlSet s))

/-- The written form of a host. -/
def Host.text : Host → List Char
  | .name s => s
  | .ipv4 address => ipv4Text address
  | .ipv6 pieces => '[' :: (ipv6Text pieces ++ [']'])

end RecordStore.Url
