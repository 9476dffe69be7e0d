import StructuralRules.Rule.Checker

/-!
# Rules

What the engine sees of a rule: how it is called, how long its check takes, and
what the check comes to. A check that breaks off does not reach the others.
-/

set_option autoImplicit false

namespace StructuralRules

/-- What a check comes to. -/
inductive CheckResult where
  | found (findings : List Finding)
  | refused (error : Error)
  /-- The check broke off, with a text if it gave one. -/
  | broken (text : Option String)
  deriving DecidableEq, Repr

structure Rule where
  id : String
  name : String
  description : Option String := none
  /-- Milliseconds that the check takes. -/
  takes : Nat := 0
  check : Corpus → Markers → CheckResult

namespace SplitCharacter

/-- Says where a cut would fall inside a character. -/
def message (s : SplitCharacter) : String :=
  "byte index " ++ toString s.offset ++ " is not a char boundary; it is inside '" ++
    s.char.toString ++ "' (bytes " ++ toString s.start ++ ".." ++
    toString (s.start + s.char.utf8Size) ++ ") of \u0060" ++ String.ofList s.text ++ "\u0060"

end SplitCharacter

namespace CheckResult

def ofFindings : Except SplitCharacter (List Finding) → CheckResult
  | .ok fs => .found fs
  | .error e => .broken (some e.message)

end CheckResult

namespace SiteRule

def toRule (r : SiteRule) : Rule where
  id := r.id
  name := r.name
  description := r.description
  check c ms := .ofFindings (r.findings c ms)

end SiteRule

namespace CompiledRule

def toRule (r : CompiledRule) : Rule where
  id := r.head.id
  name := r.head.name
  description := r.head.description
  check c ms := .ofFindings (r.findings c ms)

end CompiledRule

namespace Rule

/-- The rule that a declaration compiles to. -/
def ofSpec (s : RuleSpec) : Except Error Rule := do
  return (← CompiledRule.ofSpec s).toRule

/-- The declared rules in order; the error is the first one. -/
def ofSpecs (specs : List RuleSpec) : Except Error (List Rule) :=
  specs.mapM ofSpec

end Rule
end StructuralRules
