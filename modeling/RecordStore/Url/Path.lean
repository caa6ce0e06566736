import RecordStore.Text.Split
import RecordStore.Url.Percent

/-!
# `RecordStore.Url.Path`: paths of URLs

A path is kept as its written form, a run of segments with a slash in front of each. It is built
segment by segment: a segment of one dot adds nothing, one of two dots takes the last segment
away, and any other is appended. The last slash before a drive letter stays where it is.

`extend` appends one segment that is given as plain text. The separators and the percent sign in
it are encoded, so it stays one segment; tabs and line ends are dropped, and a segment of one or
two dots is skipped.
-/

set_option autoImplicit false

namespace RecordStore.Url

/-- The schemes that the rules for URLs tell apart:

- `file`: files;
- `special`: any other special scheme, with its default port;
- `plain`: all other schemes. -/
inductive SchemeKind where
  | file
  | special (port : Nat)
  | plain
deriving DecidableEq

/-- The kind of a scheme. -/
def SchemeKind.ofScheme (scheme : String) : SchemeKind :=
  if scheme = "file" then .file
  else if scheme = "http" || scheme = "ws" then .special 80
  else if scheme = "https" || scheme = "wss" then .special 443
  else if scheme = "ftp" then .special 21
  else .plain

/-- The scheme is special: its path is never empty, and a backslash is a slash. -/
def SchemeKind.isSpecial : SchemeKind → Bool
  | .file => true
  | .special _ => true
  | .plain => false

/-- A sign between segments in the path of a URL. -/
def isSlash (kind : SchemeKind) (c : Char) : Bool :=
  c == '/' || (kind.isSpecial && c == '\\')

/-! ### Dots and drive letters -/

/-- A dot, plain or encoded, in lower case. -/
def dotForms : List (List Char) :=
  [['.'], ['%', '2', 'e']]

/-- The segment means the place itself. -/
def isSingleDot (segment : List Char) : Bool :=
  dotForms.contains (segment.map Char.toLower)

/-- The segment means the place above. -/
def isDoubleDot (segment : List Char) : Bool :=
  (dotForms.flatMap fun a => dotForms.map fun b => a ++ b).contains (segment.map Char.toLower)

/-- A letter and a colon or a bar. -/
def isDriveLetter : List Char → Bool
  | [a, b] => a.isAlpha && (b == ':' || b == '|')
  | _ => false

/-- A letter and a colon. -/
def isNormalDriveLetter : List Char → Bool
  | [a, b] => a.isAlpha && b == ':'
  | _ => false

/-- The text starts with a drive letter that is a segment by itself. -/
def startsWithDriveLetter : List Char → Bool
  | [a, b] => isDriveLetter [a, b]
  | a :: b :: c :: _ => isDriveLetter [a, b] && (c == '/' || c == '\\' || c == '?' || c == '#')
  | _ => false

/-! ### Building a path -/

/-- The path up to its last slash, and what stands behind that. -/
def lastSegment (path : List Char) : List Char :=
  (path.reverse.takeWhile (· != '/')).reverse

/-- The path up to and including its last slash. -/
def upToSlash (path : List Char) : List Char :=
  (path.reverse.dropWhile (· != '/')).reverse

/-- The slash at the end of the path may go: there is another slash before it, and what stands
between the two is no drive letter. -/
def lastSlashCanGo (path : List Char) : Bool :=
  path.getLast? == some '/' && path.dropLast.contains '/' &&
    !startsWithDriveLetter (lastSegment path.dropLast ++ ['/'])

/-- The path without its last segment. -/
def shorten (kind : SchemeKind) (path : List Char) : List Char :=
  let path := if lastSlashCanGo path then path.dropLast else path
  if kind = .file && isNormalDriveLetter (lastSegment path) then path else upToSlash path

/-- The path with a slash at its end. -/
def withSlash (path : List Char) : List Char :=
  if path.getLast? = some '/' then path else path ++ ['/']

/-- The path with one more segment, which is encoded already; `slash` says whether a slash follows
it. -/
def pushSegment (kind : SchemeKind) (path segment : List Char) (slash : Bool) : List Char :=
  if isDoubleDot segment then
    if slash then withSlash (shorten kind path) else shorten kind path
  else if isSingleDot segment then withSlash path
  else
    let segment :=
      if kind = .file && path = ['/'] && isDriveLetter segment then segment.take 1 ++ [':']
      else segment
    path ++ segment ++ (if slash then ['/'] else [])

/-- The path with several more segments, which are encoded already, and slashes between them. -/
def pushSegments (kind : SchemeKind) (path : List Char) : List (List Char) → List Char
  | [] => path
  | [segment] => pushSegment kind path segment false
  | segment :: next :: rest => pushSegments kind (pushSegment kind path segment true) (next :: rest)

/-- The path of a file has one slash at its start. -/
def normalizeStart (kind : SchemeKind) (path : List Char) : List Char :=
  if kind = .file then '/' :: path.dropWhile (· == '/') else path

/-- The path with the written segments `s` behind it. -/
def parsePath (kind : SchemeKind) (path s : List Char) : List Char :=
  normalizeStart kind (pushSegments kind path
    ((Text.splitOn (isSlash kind) s).map (percentEncode inPathSet)))

/-! ### Appending plain segments -/

/-- Characters that are dropped wherever they stand. -/
def isDropped (c : Char) : Bool :=
  c == '\t' || c == '\n' || c == '\r'

/-- The written form of a plain segment. -/
def encodeSegment (kind : SchemeKind) (segment : String) : List Char :=
  percentEncode (if kind.isSpecial then inSpecialSegmentSet else inSegmentSet)
    (segment.toList.filter fun c => !isDropped c)

/-- The path with one more plain segment. A path of one character is the root, which needs no
further slash. -/
def extend (kind : SchemeKind) (path : List Char) (segment : String) : List Char :=
  if segment = "." || segment = ".." then path
  else
    let start := if path.length = 1 then path else path ++ ['/']
    normalizeStart kind (pushSegment kind start (encodeSegment kind segment) false)

/-- The path without an empty segment at its end. -/
def popIfEmpty (path : List Char) : List Char :=
  if 1 < path.length && path.getLast? == some '/' then path.dropLast else path

/-- The path with several more plain segments, after an empty one at its end is dropped. -/
def extendAll (kind : SchemeKind) (path : List Char) (segments : List String) : List Char :=
  segments.foldl (extend kind) (popIfEmpty path)

/-- The segments of a path, without the slash in front. -/
def segments (path : List Char) : List (List Char) :=
  match path with
  | '/' :: rest => Text.splitOn (· == '/') rest
  | _ => []

end RecordStore.Url
