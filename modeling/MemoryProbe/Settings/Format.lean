import MemoryProbe.Settings
import MemoryProbe.Text.Utf8

namespace MemoryProbe

/-!
Settings in files.  How a text gives settings and how settings are written is a
matter of the format; what is read is judged here.
-/

/-- A format of settings as a text. -/
structure SettingsFormat where
  /-- What a text makes of the defaults, or what is wrong with it. -/
  read : Settings -> List Char -> Except String Settings
  /-- The text of some settings, or why there is none. -/
  write : Settings -> Except String (List Char)

namespace Settings

/-- The settings of a file: what it holds over the defaults, if they are
accepted. -/
def load (format : SettingsFormat) (defaults : Settings)
    (contents : Except IoError (List UInt8)) : Except SettingsError Settings := do
  let bytes <- contents.mapError .io
  match Text.utf8Decode? bytes with
  | none => throw (.io .invalidText)
  | some text =>
    let settings <- (format.read defaults text).mapError .malformed
    settings.validate
    return settings

/-- Write settings into a file. -/
def save (format : SettingsFormat) (writeFile : List UInt8 -> Except IoError Unit)
    (settings : Settings) : Except SettingsError Unit := do
  let text <- (format.write settings).mapError .malformed
  (writeFile (Text.utf8Bytes text)).mapError .io

end Settings

end MemoryProbe
