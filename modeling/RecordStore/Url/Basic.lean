import RecordStore.Url.Host
import RecordStore.Url.Path

/-!
# `RecordStore.Url.Basic`: URLs

A URL is a scheme, an authority with user information, host and port, a path, a query and a
fragment. `Url.ofText?` reads one by the rules that browsers follow: spaces and controls around it
and tabs and line ends in it are dropped, the scheme may be in any case, and a special scheme needs
no slashes before its host. A path that does not start with a slash, as behind `mailto:`, makes a
URL that other URLs cannot be built upon.
-/

set_option autoImplicit false

namespace RecordStore

open RecordStore.Url

/-- Who serves a URL:

- `user`: the user information, encoded, with what divides it from the host;
- `host`: the host;
- `port`: the port, where it is not the default one. -/
structure Authority where
  user : List Char
  host : Host
  port : Option Nat
deriving DecidableEq

/-- A URL:

- `scheme`: the scheme, in lower case;
- `authority`: the authority, if there is one;
- `path`: the path, encoded;
- `query`: the query, encoded;
- `fragment`: the fragment, encoded. -/
structure Url where
  scheme : String
  authority : Option Authority
  path : List Char
  query : Option (List Char)
  fragment : Option (List Char)
deriving DecidableEq

namespace Url

/-- The kind of the scheme. -/
def kind (u : Url) : SchemeKind :=
  .ofScheme u.scheme

/-- Other URLs cannot be built upon this one. -/
def isRootless (u : Url) : Bool :=
  u.authority.isNone && u.path.head? != some '/'

/-! ### Writing -/

/-- A part with the sign in front of it. -/
def partText (sign : Char) : Option (List Char) → List Char
  | some s => sign :: s
  | none => []

/-- The port with the sign in front of it. -/
def portText : Option Nat → List Char
  | some port => ':' :: Decimal.digits port
  | none => []

/-- Everything before the path. A path of two slashes without an authority is kept apart from
one. -/
def frontText (u : Url) : List Char :=
  u.scheme.toList ++ ':' ::
    match u.authority with
    | some a => '/' :: '/' :: (a.user ++ a.host.text ++ portText a.port)
    | none => if ['/', '/'].isPrefixOf u.path then ['/', '.'] else []

/-- The path and the query, which are what a server is asked for. -/
def target (u : Url) : String :=
  String.ofList (u.path ++ partText '?' u.query)

/-- The written form. -/
def text (u : Url) : String :=
  String.ofList (u.frontText ++ u.path ++ partText '?' u.query ++ partText '#' u.fragment)

/-! ### Building upon a URL -/

/-- The URL with further segments of its path. -/
def withSegments (u : Url) (segments : List String) : Url :=
  { u with path := extendAll u.kind u.path segments }

/-- The URL with one more pair in its query; both texts stand in it as they are. -/
def withPair (u : Url) (name value : String) : Url :=
  let pair := name.toList ++ '=' :: value.toList
  { u with
    query := some (match u.query with
      | some [] => pair
      | some q => q ++ '&' :: pair
      | none => pair) }

/-! ### Reading -/

/-- A character that may stand in a scheme behind its first letter. -/
def isSchemeChar (c : Char) : Bool :=
  c.isAlphanum || c == '+' || c == '-' || c == '.'

/-- The scheme in lower case, and what stands behind its colon. -/
def splitScheme? (s : List Char) : Option (String × List Char) :=
  if (s.head?.map Char.isAlpha).getD false then
    match s.dropWhile isSchemeChar with
    | ':' :: rest => some (String.ofList ((s.takeWhile isSchemeChar).map Char.toLower), rest)
    | _ => none
  else none

/-- What stands before the first character that satisfies `p`, and what stands behind it. -/
def splitFirst (p : Char → Bool) (s : List Char) : List Char × Option (List Char) :=
  match s.dropWhile fun c => !p c with
  | [] => (s, none)
  | _ :: rest => (s.takeWhile fun c => !p c, some rest)

/-- The written form of the user information: no sign between name and password if one of them is
empty, and none before the host if both are. -/
def userText (s : List Char) : List Char :=
  let (name, password) := splitFirst (· == ':') s
  let password := match password with
    | none => []
    | some [] => []
    | some p => ':' :: percentEncode inUserInfoSet p
  let both := percentEncode inUserInfoSet name ++ password
  if both.isEmpty then [] else both ++ ['@']

/-- A port behind a colon; the default port is left out. -/
def port? (kind : SchemeKind) (s : List Char) : Except UrlError (Option Nat) :=
  if s.isEmpty then .ok none
  else
    match Decimal.natValue? s with
    | some port =>
      if 65536 ≤ port then .error .badPort
      else if kind = .special port then .ok none
      else .ok (some port)
    | none => .error .badPort

/-- Where a host ends and its port begins: at a colon outside brackets. -/
def splitPort (inside : Bool) : List Char → List Char × Option (List Char)
  | [] => ([], none)
  | c :: rest =>
    if c = ':' && !inside then ([], some rest)
    else
      let inside := if c = '[' then true else if c = ']' then false else inside
      let (host, port) := splitPort inside rest
      (c :: host, port)

/-- The authority that a text is; `more` says that something follows it. Without a host there may
be neither a port nor user information, and nothing may follow an empty one. -/
def authority? (kind : SchemeKind) (more : Bool) (s : List Char) : Except UrlError Authority :=
  -- The last `@` divides the user information from the host.
  let behindAt := (s.reverse.takeWhile (· != '@')).reverse
  let beforeAt := s.take (s.length - behindAt.length)
  let user := userText beforeAt.dropLast
  let (hostText, portText) := splitPort false behindAt
  if hostText.isEmpty then
    if kind.isSpecial || portText.isSome || !user.isEmpty || (more && beforeAt = ['@']) then
      .error .emptyHost
    else .ok ⟨user, .name [], none⟩
  else do
    let host ← if kind.isSpecial then Host.ofText? hostText else Host.ofPlainText? hostText
    let port ← port? kind (portText.getD [])
    pure ⟨user, host, port⟩

/-- What stands before the path, and the path. -/
def splitAuthority (kind : SchemeKind) (s : List Char) : List Char × List Char :=
  (s.takeWhile fun c => !isSlash kind c, s.dropWhile fun c => !isSlash kind c)

/-- The path of a special scheme, which starts with a slash whether one is written or not. -/
def specialPath (kind : SchemeKind) (s : List Char) : List Char :=
  match s with
  | c :: rest => parsePath kind ['/'] (if isSlash kind c then rest else c :: rest)
  | [] => parsePath kind ['/'] []

/-- The authority and the path of a file. -/
def fileParts? (s : List Char) : Except UrlError (Authority × List Char) :=
  let slashes := s.takeWhile (isSlash .file)
  if 2 ≤ slashes.length then
    let (hostText, path) := splitAuthority .file (s.drop 2)
    if hostText.isEmpty || isDriveLetter hostText then
      .ok (⟨[], .name [], none⟩, specialPath .file (hostText ++ path))
    else do
      let host ← Host.ofText? hostText
      -- A file on this machine has an empty host.
      let host := if host = .name ['l', 'o', 'c', 'a', 'l', 'h', 'o', 's', 't'] then .name []
        else host
      pure (⟨[], host, none⟩, specialPath .file path)
  else .ok (⟨[], .name [], none⟩, specialPath .file s)

/-- The authority and the path of a URL, from what stands between its scheme and its query; `more`
says that there is a query or a fragment. -/
def parts? (kind : SchemeKind) (more : Bool) (s : List Char) :
    Except UrlError (Option Authority × List Char) :=
  match kind with
  | .file => (fileParts? s).map fun (a, path) => (some a, path)
  | .special _ => do
    let (front, path) := splitAuthority kind (s.dropWhile (isSlash kind))
    let a ← authority? kind (more || !path.isEmpty) front
    pure (some a, specialPath kind path)
  | .plain =>
    match s with
    | '/' :: '/' :: rest => do
      let (front, path) := splitAuthority kind rest
      let a ← authority? kind (more || !path.isEmpty) front
      pure (some a, parsePath kind [] path)
    | '/' :: rest => .ok (none, parsePath kind ['/'] rest)
    | s => .ok (none, percentEncode inControlSet s)

/-- A space or a control around a URL. -/
def isPadding (c : Char) : Bool :=
  c.toNat ≤ 0x20

/-- What of a text counts: nothing around it, and no tabs and line ends in it. -/
def clean (s : List Char) : List Char :=
  (((s.dropWhile isPadding).reverse.dropWhile isPadding).reverse).filter fun c => !isDropped c

/-- The URL that a text is. -/
def ofText? (s : String) : Except UrlError Url :=
  match splitScheme? (clean s.toList) with
  | none => .error .noScheme
  | some (scheme, rest) => do
    let kind := SchemeKind.ofScheme scheme
    -- A question mark behind the first number sign belongs to the fragment.
    let (front, fragment) := splitFirst (· == '#') rest
    let (front, query) := splitFirst (· == '?') front
    let (authority, path) ← parts? kind (query.isSome || fragment.isSome) front
    let querySet := if kind.isSpecial then inSpecialQuerySet else inQuerySet
    pure ⟨scheme, authority, path, query.map (percentEncode querySet),
      fragment.map (percentEncode inFragmentSet)⟩

end Url

end RecordStore
