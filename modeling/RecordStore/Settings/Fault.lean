import RecordStore.Url.Host

/-!
# `RecordStore.Settings.Fault`: settings that cannot be used

The text or the file that should hold the settings does not, or the address in them is not one
that requests can be built upon.
-/

set_option autoImplicit false

namespace RecordStore

/-- What keeps settings from being used:

- `badUrl`: the address is no URL;
- `rootlessUrl`: the address is a URL that no other can be built upon;
- `badText`: the text holds no settings;
- `badFile`: the file holds no settings;
- `noFile`: there is no such file;
- `notText`: the file is no text. -/
inductive SettingsFault where
  | badUrl (url : String) (cause : Url.UrlError)
  | rootlessUrl (url : String)
  | badText
  | badFile (path : String)
  | noFile (path : String)
  | notText (path : String)
deriving DecidableEq

/-- What is wrong, in words. -/
def SettingsFault.message (fault : SettingsFault) : String :=
  "Config error: " ++
    match fault with
    | .badUrl url cause => "Invalid search url " ++ url ++ ": " ++ cause.message
    | .rootlessUrl url => "Search url cannot be a base: " ++ url
    | .badText => "Invalid search settings"
    | .badFile path => "Invalid " ++ path
    | .noFile path => "settings file not found at " ++ path
    | .notText path => "Failed reading " ++ path ++ ": stream did not contain valid UTF-8"

end RecordStore
