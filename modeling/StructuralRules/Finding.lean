import StructuralRules.Text.Basic

/-!
# Findings

A finding is one thing a rule has to say, about a line of a file, about a file,
or about the whole scope of the rule. Findings are listed by path, line, rule,
check and message, so that a report does not depend on how they were found.
-/

set_option autoImplicit false

namespace StructuralRules

/-- How much a finding matters. Only `fail` affects the exit status. -/
inductive Severity where
  | fail
  | warn
  | info
  deriving DecidableEq, Repr

namespace Severity

def name : Severity → String
  | .fail => "fail"
  | .warn => "warn"
  | .info => "info"

def isFail (s : Severity) : Bool :=
  s == .fail

end Severity

structure Finding where
  /-- Path relative to the scan root, or the scope of the rule. -/
  path : String
  line : Option Nat := none
  severity : Severity
  ruleId : String
  /-- The part of the rule that found it. -/
  check : Option String := none
  message : String
  fix : Option String := none
  /-- The line itself, trimmed. -/
  snippet : Option String := none
  deriving DecidableEq, Repr

namespace Finding

/-- The rule that problems met while loading belong to. -/
def corpusRule : String := "corpus"

/-- A problem met while loading. -/
def loadWarning (path message : String) : Finding where
  path := path
  severity := .warn
  ruleId := corpusRule
  message := message

/-- Shows the line, unless it is blank. -/
def withSnippet (f : Finding) (line : Text) : Finding :=
  match Text.trim line with
  | [] => f
  | c :: t => { f with snippet := some (String.ofList (c :: t)) }

def isFail (f : Finding) : Bool :=
  f.severity.isFail

/-- Path and line, or the path alone. -/
def location (f : Finding) : String :=
  match f.line with
  | some n => f.path ++ ":" ++ toString n
  | none => f.path

/-- The order of a report. What is absent comes first. -/
def order (a b : Finding) : Ordering :=
  (compare a.path b.path).then <| (compare a.line b.line).then <|
    (compare a.ruleId b.ruleId).then <| (compare a.check b.check).then <|
    compare a.message b.message

/-- Puts findings into the order of a report. Those that compare equal keep their places. -/
def sort (fs : List Finding) : List Finding :=
  fs.mergeSort fun a b => (order a b).isLE

end Finding

/-- What a rule says when the construct it is about does not exist. -/
inductive MissingPolicy where
  | skip
  | info
  | warn
  | fail
  deriving DecidableEq, Repr

namespace MissingPolicy

def severity? : MissingPolicy → Option Severity
  | .skip => none
  | .info => some .info
  | .warn => some .warn
  | .fail => some .fail

/-- The finding about an absent construct, if the policy has one. -/
def finding? (p : MissingPolicy) (ruleId path message : String) : Option Finding :=
  p.severity?.map fun severity =>
    { path, severity, ruleId, check := some "missing", message }

end MissingPolicy
end StructuralRules
