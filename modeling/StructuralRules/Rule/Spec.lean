import StructuralRules.Finding

/-!
# Declared rules

A rule as it is declared in the settings: what all rules share, and one of six
kinds. Globs and patterns are still text here.
-/

set_option autoImplicit false

namespace StructuralRules

/-- A pattern that no code line may match, and what to say about one that does. -/
structure ForbiddenPattern where
  regex : String
  message : String
  deriving DecidableEq, Repr

/-- A pattern that a function must contain. -/
structure BodyRequirement where
  name : String
  pattern : String
  message : Option String := none
  deriving DecidableEq, Repr

/-- Two functions of which a file that calls the first must call the second. -/
structure CallPair where
  opening : String
  closing : String
  deriving DecidableEq, Repr

/-- The kinds of rules. -/
inductive RuleKind where
  /-- No code line matches one of the patterns. -/
  | forbidden (patterns : List ForbiddenPattern)
  /-- Every value of the enum that passes the filter occurs in an argument of a call. -/
  | enumCoverage (enum : String) (enumFiles : List String) (function : String) (argument : Nat)
      (valueFilter : Option String)
  /-- Each line that matches `anchor` has a line that matches `required` close to it. -/
  | window (function : Option String) (anchor required : String) (before after : Nat)
      (message : Option String)
  /-- The function contains the patterns, and some of them in a given order. -/
  | functionBody (function : String) (requirements : List BodyRequirement)
      (order : List (String × String))
  /-- The struct has the field, and the field has the type. -/
  | structField (struct field : String) (type : Option String)
  /-- A file that calls the first of two functions calls the second one too. -/
  | pairedCalls (pairs : List CallPair)
  deriving DecidableEq, Repr

namespace RuleKind

def name : RuleKind → String
  | .forbidden .. => "forbidden"
  | .enumCoverage .. => "enum-coverage"
  | .window .. => "window"
  | .functionBody .. => "function-body"
  | .structField .. => "struct-field"
  | .pairedCalls .. => "paired-calls"

/-- The files in which an enum is looked for. -/
def standardEnumFiles : List String :=
  ["**/*.h"]

/-- The number of lines before and behind an anchor. -/
def standardWindow : Nat := 30

end RuleKind

structure RuleSpec where
  id : String
  name : String
  description : Option String := none
  severity : Severity := .fail
  onMissing : MissingPolicy := .skip
  /-- Globs over paths relative to the scan root. -/
  files : List String := ["**/*.c", "**/*.h"]
  fix : Option String := none
  kind : RuleKind
  deriving DecidableEq, Repr

end StructuralRules
