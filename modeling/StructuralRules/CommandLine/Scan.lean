import StructuralRules.Report.Document

/-!
# Words of a command line

Options are read word by word. An option that takes a value waits for the next
word that is not an option itself, and what it was given is looked at only when
the next option or word for the command arrives, or at the end. Every option
that sets a single thing may be given once.
-/

set_option autoImplicit false

namespace StructuralRules

/-- Why a command line is not carried out. -/
inductive Stop where
  | unknownArgument
  | invalidSubcommand
  | invalidValue
  | valueValidation
  | tooManyValues
  | argumentConflict
  | missingSubcommand
  | displayHelp
  | displayVersion
  | displayHelpOnMissing
  deriving DecidableEq, Repr

namespace Stop

/-- Being asked for help or for the version is no failure. -/
def exitCode : Stop → Nat
  | .displayHelp | .displayVersion => 0
  | _ => 2

end Stop

/-- What a word has to be as a value. -/
inductive ValueKind where
  /-- Anything but nothing. -/
  | path
  | text
  | number
  | format
  | oneOf (names : List String)
  deriving DecidableEq, Repr

/-- A number in digits, with an optional plus sign, that fits into 64 bits. -/
def parseWord? (s : String) : Option Nat :=
  let digits :=
    match s.toList with
    | '+' :: t => t
    | t => t
  if digits.isEmpty || !digits.all Char.isDigit then none
  else
    let n := digits.foldl (fun n c => n * 10 + (c.toNat - '0'.toNat)) 0
    if n < 0x10000000000000000 then some n else none

namespace ValueKind

def check (k : ValueKind) (s : String) : Except Stop Unit :=
  match k with
  | .path => if s.isEmpty then .error .invalidValue else .ok ()
  | .text => .ok ()
  | .number => if (parseWord? s).isSome then .ok () else .error .valueValidation
  | .format => if (ReportFormat.parse? s).isSome then .ok () else .error .valueValidation
  | .oneOf names => if names.contains s then .ok () else .error .invalidValue

end ValueKind

/-- What an option does. -/
inductive OptionAction where
  | flag
  | count
  | set (kind : ValueKind)
  | append (kind : ValueKind)
  | help
  | version
  deriving DecidableEq, Repr

namespace OptionAction

def takesValue : OptionAction → Bool
  | .set _ | .append _ => true
  | _ => false

end OptionAction

structure OptionSpec where
  long : String
  short : Option Char := none
  action : OptionAction
  deriving DecidableEq, Repr

/-- What may stand on one level of a command line. -/
structure CommandSpec where
  options : List OptionSpec
  /-- The one word that is neither an option nor a subcommand. -/
  operand : Option OptionSpec := none
  subcommands : List String := []
  deriving DecidableEq, Repr

/-- The values given for each option. -/
abbrev Given := List (String × List String)

namespace Given

def values (g : Given) (name : String) : Option (List String) :=
  g.lookup name

/-- The value of an option that sets one. -/
def value? (g : Given) (name : String) : Option String :=
  (g.lookup name).bind (·.head?)

def isSet (g : Given) (name : String) : Bool :=
  (g.lookup name).isSome

/-- Adds a value behind those of the option. -/
def add (g : Given) (name value : String) : Given :=
  (name, (g.lookup name).getD [] ++ [value]) :: g.filter (·.1 != name)

end Given

/-- What has been read on one level. -/
structure Scan where
  given : Given := []
  /-- The last option that takes a value, and the value if it has come. -/
  pending : Option (OptionSpec × Option String) := none
  /-- Two hyphens alone were met: no more options follow. -/
  trailing : Bool := false
  operandSeen : Bool := false

namespace Scan

/-- Gives an option that sets or appends its value. -/
def give (s : Scan) (o : OptionSpec) (value : String) : Except Stop Scan := do
  match o.action with
  | .append kind =>
      kind.check value
      return { s with given := s.given.add o.long value }
  | .set kind =>
      if s.given.isSet o.long then throw .argumentConflict
      kind.check value
      return { s with given := s.given.add o.long value }
  | _ => return s

/-- Looks at what is pending. -/
def settle (s : Scan) : Except Stop Scan :=
  match s.pending with
  | none => .ok s
  | some (_, none) => .error .invalidValue
  | some (o, some value) => { s with pending := none }.give o value

/-- Does what an option without a value does. -/
def switch (s : Scan) (o : OptionSpec) : Except Stop Scan := do
  let s ← s.settle
  match o.action with
  | .help => throw .displayHelp
  | .version => throw .displayVersion
  | .flag =>
      if s.given.isSet o.long then throw .argumentConflict
      return { s with given := s.given.add o.long "" }
  | _ => return { s with given := s.given.add o.long "" }

/-- Starts an option that takes a value, which may be attached to it. -/
def startValue (s : Scan) (o : OptionSpec) (attached : Option String) : Except Stop Scan := do
  let s ← s.settle
  match attached with
  | some value => s.give o value
  | none => return { s with pending := some (o, none) }

/-- Whether an option waits for its value. -/
def waits (s : Scan) : Bool :=
  match s.pending with
  | some (_, none) => true
  | _ => false

/-- Reads a word with two hyphens before `body`. -/
def long (c : CommandSpec) (s : Scan) (body : Text) : Except Stop Scan :=
  let name := String.ofList (body.takeWhile (· != '='))
  let attached :=
    match body.dropWhile (· != '=') with
    | [] => none
    | _ :: value => some (String.ofList value)
  match c.options.find? (·.long == name) with
  | none => .error .unknownArgument
  | some o =>
      if o.action.takesValue then s.startValue o attached
      else if attached.isSome then .error .tooManyValues
      else s.switch o

/-- Reads the letters of a word with one hyphen. What follows an option that takes a value is
the value, without an equals sign at its start. -/
def short (c : CommandSpec) (s : Scan) : Text → Except Stop Scan
  | [] => .ok s
  | letter :: rest =>
      match c.options.find? (·.short == some letter) with
      | none => .error .unknownArgument
      | some o =>
          if o.action.takesValue then
            match rest with
            | [] => s.startValue o none
            | '=' :: value => s.startValue o (some (String.ofList value))
            | value => s.startValue o (some (String.ofList value))
          else do short c (← s.switch o) rest

/-- Reads a word for the command itself. -/
def operand (c : CommandSpec) (s : Scan) (word : String) : Except Stop Scan :=
  match c.operand, s.operandSeen with
  | some o, false => do
      let s ← s.settle
      return { s with pending := some (o, some word), operandSeen := true }
  | _, _ =>
      if c.subcommands.isEmpty || (s.trailing && c.subcommands.contains word) then
        .error .unknownArgument
      else .error .invalidSubcommand

/-- Reads one word. -/
def word (c : CommandSpec) (s : Scan) (w : String) : Except Stop Scan :=
  let plain : Except Stop Scan :=
    match s.pending with
    | some (o, none) => .ok { s with pending := some (o, some w) }
    | _ => s.operand c w
  if s.trailing then s.operand c w
  else
    match w.toList with
    | ['-', '-'] => .ok { s with trailing := true }
    | '-' :: '-' :: body => s.long c body
    | ['-'] => plain
    | '-' :: letters => s.short c letters
    | _ => plain

/-- Reads the words up to the first subcommand: what was read, the subcommand, and the words
behind it. -/
def words (c : CommandSpec) (s : Scan) :
    List String → Except Stop (Scan × Option (String × List String))
  | [] => .ok (s, none)
  | w :: ws =>
      if !s.trailing && !s.waits && c.subcommands.contains w then .ok (s, some (w, ws))
      else do (← s.word c w).words c ws

end Scan
end StructuralRules
