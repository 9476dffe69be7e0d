import StructuralRules.CommandLine.Arguments
import StructuralRules.Files.Loader
import StructuralRules.Report.Console
import StructuralRules.Settings.Listing
import StructuralRules.Settings.Template

/-!
# Carrying out a command

A command turns the files into an effect: what it writes, and its exit status.
An error ends a command with status 2 and a line for the user.
-/

set_option autoImplicit false

namespace StructuralRules

/-- What a command does. -/
structure Effect where
  exitCode : Nat
  stdout : String := ""
  stderr : String := ""
  disk : Disk

/-- What a command sees of the world. -/
structure World where
  disk : Disk
  /-- The directory of the user's own settings. -/
  userDir : Option String := none
  /-- Standard output is a terminal that shows colours. -/
  showsColours : Bool := false

namespace World

def settingsFiles (w : World) : SettingsFiles where
  exists? := w.disk.exists?
  read? := w.disk.readText?
  userDir := w.userDir

/-- The settings for a command: the standard ones if none are wanted, those of the file that is
named, or those that are found. -/
def settings (w : World) (g : GlobalArguments) (root : String) (config : Option String) :
    Except Error Settings :=
  if g.noConfig then .ok {}
  else
    match config with
    | some path => Settings.loadFrom w.settingsFiles path
    | none => Settings.discover w.settingsFiles root

def usesColours (w : World) : ColourChoice → Bool
  | .always => true
  | .never => false
  | .auto => w.showsColours

end World

namespace CheckArguments

/-- What the command line says wins over the settings. -/
def override (a : CheckArguments) (o : EngineOptions) : EngineOptions where
  parallel := a.parallel || o.parallel
  timeoutMs := a.timeoutMs.or o.timeoutMs

/-- The verdict of the rules over the files. Rules are compiled before any source is read. -/
def verdict (a : CheckArguments) (w : World) (g : GlobalArguments) : Except Error Verdict := do
  let settings ← w.settings g a.root a.config
  let engine ← { settings with engine := a.override settings.engine }.buildEngine
  let engine ← engine.select a.rules
  let loaded ← settings.scan.load w.disk a.root
  let (verdict, _) ← engine.run loaded.corpus
  return verdict

def run (a : CheckArguments) (w : World) (g : GlobalArguments) : Except Error Effect := do
  let verdict ← a.verdict w g
  let colours := a.output.isNone && w.usesColours g.colour
  let report :=
    match a.format with
    | .text => verdict.console colours
    | .json => verdict.json
  match a.output with
  | none => return { exitCode := verdict.exitCode, stdout := report, disk := w.disk }
  | some path =>
      match w.disk.write path (Text.toBytes report.toList) with
      | .ok disk => return { exitCode := verdict.exitCode, disk }
      | .error e => throw (.file e)

end CheckArguments

namespace RulesArguments

def run (a : RulesArguments) (w : World) (g : GlobalArguments) : Except Error Effect := do
  let settings ← w.settings g a.root a.config
  return { exitCode := 0, stdout := RuleSpec.listing settings.rules, disk := w.disk }

end RulesArguments

namespace InitArguments

def run (a : InitArguments) (w : World) : Except Error Effect :=
  if w.disk.exists? a.output && !a.force then .error (.settings (.fileExists a.output))
  else
    match w.disk.write a.output (Text.toBytes Settings.template.toList) with
    | .ok disk =>
        .ok { exitCode := 0, stdout := "Created configuration file: " ++ a.output ++ "\n", disk }
    | .error e => .error (.file e)

end InitArguments

namespace Arguments

/-- Carries out the command. -/
def run (a : Arguments) (w : World) : Effect :=
  let result :=
    match a.command with
    | .check c => c.run w a.globals
    | .rules c => c.run w a.globals
    | .init c => c.run w
  match result with
  | .ok effect => effect
  | .error e => { exitCode := 2, stderr := "Error: " ++ e.message ++ "\n", disk := w.disk }

end Arguments
end StructuralRules
