/-!
# Errors

What can stop a command, or make a rule crash. The causes are data; their words
are in `message`.
-/

set_option autoImplicit false

namespace StructuralRules

/-- What the file system refuses. -/
inductive FileError where
  | notFound
  | notDirectory
  | isDirectory
  | linkLoop
  | other (text : String)
  deriving DecidableEq, Repr

namespace FileError

def message : FileError → String
  | .notFound => "No such file or directory (os error 2)"
  | .notDirectory => "Not a directory (os error 20)"
  | .isDirectory => "Is a directory (os error 21)"
  | .linkLoop => "Too many levels of symbolic links (os error 40)"
  | .other text => text

end FileError

/-- What is wrong with settings that could be read. -/
inductive SettingsError where
  | unknownRule (id : String)
  | scanRoot (path : String)
  | fileExists (path : String)
  | noExtensions (index : Nat) (dir : String)
  | blankId (index : Nat)
  | duplicateId (id : String)
  | noPatterns (id : String)
  | noPairs (id : String)
  | unknownOrder (id name : String)
  | other (text : String)
  deriving DecidableEq, Repr

namespace SettingsError

def message : SettingsError → String
  | .unknownRule id => s!"unknown rule id '{id}'"
  | .scanRoot path => s!"scan root '{path}' is not a directory"
  | .fileExists path =>
      s!"Configuration file already exists: {path}. Use --force to overwrite."
  | .noExtensions index dir => s!"scanner.roots[{index}] ({dir}) must list at least one extension"
  | .blankId index => s!"rules[{index}].id must not be empty"
  | .duplicateId id => s!"duplicate rule id '{id}'"
  | .noPatterns id => s!"rule {id}: forbidden rule needs at least one pattern"
  | .noPairs id => s!"rule {id}: paired-calls rule needs at least one pair"
  | .unknownOrder id name => s!"rule {id}: order references unknown requirement '{name}'"
  | .other text => text

end SettingsError

/-- Why a rule cannot be built or cannot go on. -/
inductive RuleError where
  | noLocator
  | unknownRequirement (name : String)
  | other (text : String)
  deriving DecidableEq, Repr

namespace RuleError

def message : RuleError → String
  | .noLocator => "pattern rule needs a locator"
  | .unknownRequirement name => s!"unknown requirement '{name}' in order"
  | .other text => text

end RuleError

/-- Why an engine does not run. -/
inductive EngineError where
  | alreadyRun
  | other (text : String)
  deriving DecidableEq, Repr

namespace EngineError

def message : EngineError → String
  | .alreadyRun => "engine has already run; build a new one"
  | .other text => text

end EngineError

inductive Error where
  | settings (cause : SettingsError)
  /-- The settings file cannot be read. -/
  | fileRead (path : String)
  | badGlob (source : String)
  | badPattern (source : String)
  | rule (id : String) (cause : RuleError)
  | engine (cause : EngineError)
  | file (cause : FileError)
  /-- The settings are no TOML, or do not have the right shape. -/
  | settingsSyntax
  deriving DecidableEq, Repr

namespace Error

def message : Error → String
  | .settings cause => "Configuration error: " ++ cause.message
  | .fileRead path => "Failed to read file: " ++ path
  | .badGlob source => "Invalid glob pattern: " ++ source
  | .badPattern source => s!"Invalid regex '{source}'"
  | .rule id cause => s!"Rule {id} failed: " ++ cause.message
  | .engine cause => "Engine error: " ++ cause.message
  | .file cause => "IO error: " ++ cause.message
  | .settingsSyntax => "TOML parse error"

/-- The category of an error in a log. -/
def category : Error → String
  | .settings _ | .badGlob _ | .badPattern _ | .settingsSyntax => "Config"
  | .fileRead _ => "FileRead"
  | .rule _ _ => "Rule"
  | .engine _ => "Engine"
  | .file _ => "IO"

end Error
end StructuralRules
