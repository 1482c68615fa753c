import Lexis.Files
import Lexis.Settings.Reader
import Lexis.Text.Utf8

/-!
# Loading settings

Settings come from the text of a file. A file that cannot be read, or that holds no text, is told
apart from one whose text is not understood.
-/

namespace Lexis

/-- Why settings cannot be loaded. -/
inductive SettingsError where
  | unreadable (path : String) (cause : ReadError)
  /-- The text is not understood; the message says where. -/
  | malformed (message : String)
  deriving DecidableEq, Repr

namespace SettingsError

def message : SettingsError → String
  | unreadable path cause => s!"failed to read config '{path}': {cause.message}"
  | malformed message => s!"invalid config: {message}"

end SettingsError

namespace Settings

/-- The settings that a text holds. -/
def ofText (text : String) : Except SettingsError Settings :=
  match parse text with
  | .ok s => .ok s
  | .error r => .error (.malformed (r.message text))

/-- The settings that were, or were not, read from a file. -/
def ofRead (path : String) : ReadResult → Except SettingsError Settings
  | .error cause => .error (.unreadable path cause)
  | .ok bytes =>
    match Text.Utf8.decode bytes with
    | .error _ => .error (.unreadable path .notText)
    | .ok text => ofText text

/-- Reads settings. -/
def read (files : Files) (path : String) : Except SettingsError Settings :=
  ofRead path (files path)

end Settings

end Lexis
