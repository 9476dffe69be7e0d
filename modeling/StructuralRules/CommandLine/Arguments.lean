import StructuralRules.CommandLine.Scan
import StructuralRules.Settings.Discovery

/-!
# The arguments of the program

Three commands, and options that may stand before or behind the command. Such an
option behind the command wins over the same option before it.
-/

set_option autoImplicit false

namespace StructuralRules

inductive ColourChoice where
  | auto
  | always
  | never
  deriving DecidableEq, Repr

namespace ColourChoice

def parse? : String → Option ColourChoice
  | "auto" => some .auto
  | "always" => some .always
  | "never" => some .never
  | _ => none

end ColourChoice

/-- What all commands take. -/
structure GlobalArguments where
  verbose : Nat := 0
  quiet : Bool := false
  colour : ColourChoice := .auto
  noConfig : Bool := false
  deriving DecidableEq, Repr

namespace GlobalArguments

/-- The least level of messages in the log. -/
def logLevel (g : GlobalArguments) : String :=
  if g.quiet then "error"
  else
    match g.verbose with
    | 0 => "warn"
    | 1 => "info"
    | _ => "debug"

end GlobalArguments

structure CheckArguments where
  root : String := "."
  config : Option String := none
  format : ReportFormat := .text
  output : Option String := none
  rules : List String := []
  parallel : Bool := false
  timeoutMs : Option Nat := none
  deriving DecidableEq, Repr

structure RulesArguments where
  root : String := "."
  config : Option String := none
  deriving DecidableEq, Repr

structure InitArguments where
  output : String := Settings.localName
  force : Bool := false
  deriving DecidableEq, Repr

inductive Command where
  | check (arguments : CheckArguments)
  | rules (arguments : RulesArguments)
  | init (arguments : InitArguments)
  deriving DecidableEq, Repr

structure Arguments where
  globals : GlobalArguments
  command : Command
  deriving DecidableEq, Repr

namespace Arguments

/-! ## What may be given -/

def globalOptions : List OptionSpec :=
  [⟨"verbose", some 'v', .count⟩, ⟨"quiet", some 'q', .flag⟩,
   ⟨"color", none, .set (.oneOf ["auto", "always", "never"])⟩, ⟨"no-config", none, .flag⟩]

def helpOption : OptionSpec :=
  ⟨"help", some 'h', .help⟩

def rootOperand : OptionSpec :=
  ⟨"root", none, .set .path⟩

def topSpec : CommandSpec where
  options := globalOptions ++ [helpOption, ⟨"version", some 'V', .version⟩]
  subcommands := ["check", "rules", "init", "help"]

def checkSpec : CommandSpec where
  options :=
    [⟨"config", some 'c', .set .path⟩, ⟨"format", some 'f', .set .format⟩,
     ⟨"output", some 'o', .set .path⟩, ⟨"rule", none, .append .text⟩, ⟨"parallel", none, .flag⟩,
     ⟨"timeout-ms", none, .set .number⟩] ++ globalOptions ++ [helpOption]
  operand := some rootOperand

def rulesSpec : CommandSpec where
  options := [⟨"config", some 'c', .set .path⟩] ++ globalOptions ++ [helpOption]
  operand := some rootOperand

def initSpec : CommandSpec where
  options :=
    [⟨"output", some 'o', .set .path⟩, ⟨"force", none, .flag⟩] ++ globalOptions ++ [helpOption]

/-! ## What was given -/

/-- The most that verbosity counts to. -/
def verboseLimit : Nat := 255

/-- The values of an option behind the command, or else before it. -/
def globalValues (before behind : Given) (name : String) : Option (List String) :=
  (behind.values name).or (before.values name)

def readGlobals (before behind : Given) : GlobalArguments where
  verbose := min verboseLimit ((globalValues before behind "verbose").getD []).length
  quiet := (globalValues before behind "quiet").isSome
  colour :=
    (((globalValues before behind "color").bind (·.head?)).bind ColourChoice.parse?).getD .auto
  noConfig := (globalValues before behind "no-config").isSome

def readCheck (g : Given) : CheckArguments where
  root := (g.value? "root").getD "."
  config := g.value? "config"
  format := ((g.value? "format").bind ReportFormat.parse?).getD .text
  output := g.value? "output"
  rules := (g.values "rule").getD []
  parallel := g.isSet "parallel"
  timeoutMs := (g.value? "timeout-ms").bind parseWord?

def readRules (g : Given) : RulesArguments where
  root := (g.value? "root").getD "."
  config := g.value? "config"

def readInit (g : Given) : InitArguments where
  output := (g.value? "output").getD Settings.localName
  force := g.isSet "force"

/-- Reads all words of a level that has no subcommands. -/
def readLevel (c : CommandSpec) (ws : List String) : Except Stop Given := do
  let (s, _) ← ({} : Scan).words c ws
  return (← s.settle).given

/-- The words behind the help command name one command. -/
def helpOn (ws : List String) : Stop :=
  match ws with
  | [] => .displayHelp
  | [w] => if topSpec.subcommands.contains w then .displayHelp else .invalidSubcommand
  | _ => .invalidSubcommand

/-- Reads a command line. The words behind the command are looked at before what is pending
from the words before it. -/
def parse (ws : List String) : Except Stop Arguments := do
  let (s, sub) ← ({} : Scan).words topSpec ws
  match sub with
  | none =>
      let s ← s.settle
      if s.given.isEmpty then throw .displayHelpOnMissing else throw .missingSubcommand
  | some (name, rest) =>
      let finish (behind : Given) (command : Command) : Except Stop Arguments := do
        return ⟨readGlobals (← s.settle).given behind, command⟩
      match name with
      | "check" =>
          let g ← readLevel checkSpec rest
          finish g (.check (readCheck g))
      | "rules" =>
          let g ← readLevel rulesSpec rest
          finish g (.rules (readRules g))
      | "init" =>
          let g ← readLevel initSpec rest
          finish g (.init (readInit g))
      | _ => throw (helpOn rest)

end Arguments
end StructuralRules
