import StructuralRules.Files.Path
import StructuralRules.Settings.Codec
import StructuralRules.Settings.Validation
import StructuralRules.Toml.Document

/-!
# Finding the settings

Settings are read from a file in the scan root, or else from the user's own
file, or else they are the standard ones. Settings that were read are valid.
-/

set_option autoImplicit false

namespace StructuralRules

/-- Where settings files are looked for. -/
structure SettingsFiles where
  exists? : String → Bool
  /-- The text of a file, if it can be read and is text. -/
  read? : String → Option Text
  /-- The directory of the user's own settings. -/
  userDir : Option String

namespace Settings

/-- The file that is looked for in the scan root. -/
def localName : String := ".fitness-guard.toml"

/-- The file that is looked for in the user's directory. -/
def userName : String := "config.toml"

/-- The settings that a text describes. -/
def parse (t : Text) : Except Error Settings :=
  match (Toml.parse? t).bind ofData? with
  | none => .error .settingsSyntax
  | some s => do
      s.validate
      return s

def loadFrom (fs : SettingsFiles) (path : String) : Except Error Settings :=
  match fs.read? path with
  | none => .error (.fileRead path)
  | some t => parse t

/-- The settings for a scan root. -/
def discover (fs : SettingsFiles) (root : String) : Except Error Settings :=
  let candidates := [Path.join root localName] ++ (fs.userDir.map (Path.join · userName)).toList
  match candidates.find? fs.exists? with
  | some path => loadFrom fs path
  | none => .ok {}

end Settings
end StructuralRules
