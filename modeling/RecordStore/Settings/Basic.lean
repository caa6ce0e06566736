import RecordStore.Settings.Fault
import RecordStore.Toml.Reader

/-!
# `RecordStore.Settings.Basic`: where the search engine is and how it is spoken to

Settings are the table `search` of a TOML text. Only the address must be given. Values are taken at
their own types, and instead of a table there may be a list of the values in order. Unknown names
are passed over, but what stands under them must be readable; what stands behind the values in a
list is not looked at.
-/

set_option autoImplicit false

namespace RecordStore

/-- How a search engine is reached:

- `url`: the address;
- `username`: the name that requests are authorized with;
- `password`: the password that goes with the name;
- `timeoutMs`: how long a request may take, in milliseconds;
- `refresh`: a write shows in searches before it is answered;
- `maxHits`: how many hits a search may return. -/
structure Settings where
  url : String
  username : Option String
  password : Option String
  timeoutMs : Nat
  refresh : Bool
  maxHits : Nat
deriving DecidableEq

namespace Settings

/-- The settings for an address, with everything else left as it usually is. -/
def ofUrl (url : String) : Settings :=
  ⟨url, none, none, 30000, true, 10000⟩

/-- A value that may be missing, in which case `default` stands for it. -/
def orDefault {α : Type} (read : Toml → Option α) (default : α) : Option Toml → Option α
  | none => some default
  | some v => read v

/-- The settings with the given values, in order. -/
def ofValues? (url username password timeoutMs refresh maxHits : Option Toml) :
    Option Settings := do
  let usual := ofUrl (← url.bind Toml.string?)
  let username ← orDefault (fun v => v.string?.map some) usual.username username
  let password ← orDefault (fun v => v.string?.map some) usual.password password
  let timeoutMs ← orDefault Toml.count? usual.timeoutMs timeoutMs
  let refresh ← orDefault Toml.bool? usual.refresh refresh
  let maxHits ← orDefault Toml.count? usual.maxHits maxHits
  pure ⟨usual.url, username, password, timeoutMs, refresh, maxHits⟩

/-- The settings that a value holds. -/
def ofToml? : Toml → Option Settings
  | .table _ entries =>
    let value (name : String) := KeyMap.get? name entries
    if Toml.hasReadable entries then
      ofValues? (value "url") (value "username") (value "password") (value "timeout_ms")
        (value "refresh") (value "max_hits")
    else none
  | .array items => ofValues? items[0]? items[1]? items[2]? items[3]? items[4]? items[5]?
  | _ => none

/-- The settings that a text holds. -/
def ofText? (text : String) : Option Settings := do
  let entries ← Toml.ofText? text
  let search ← KeyMap.get? "search" entries
  if Toml.hasReadable (KeyMap.erase "search" entries) then ofToml? search else none

/-- The settings that a text holds, or the failure. -/
def ofText (text : String) : Except SettingsFault Settings :=
  match ofText? text with
  | some s => .ok s
  | none => .error .badText

/-- The settings that a file holds; `contents` is missing if there is no such file. -/
def ofFile (path : String) (contents : Option ByteArray) : Except SettingsFault Settings :=
  match contents with
  | none => .error (.noFile path)
  | some bytes =>
    match String.fromUTF8? bytes with
    | none => .error (.notText path)
    | some text =>
      match ofText? text with
      | some s => .ok s
      | none => .error (.badFile path)

end Settings

end RecordStore
