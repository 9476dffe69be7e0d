import StructuralRules.Settings.Basic

/-!
# Validation

Whether settings make sense, beyond their shape. The sources are looked at
first, then the ids of all rules, then each rule in turn.
-/

set_option autoImplicit false

namespace StructuralRules

namespace ScanSettings

/-- The first root without an extension, counted from `index`. -/
def checkRoots (index : Nat) : List SourceRoot → Except Error Unit
  | [] => .ok ()
  | r :: rs =>
      if r.extensions.isEmpty then .error (.settings (.noExtensions index r.dir))
      else checkRoots (index + 1) rs

/-- The globs of files that are passed over. -/
def excluded (s : ScanSettings) : Except Error FileScope :=
  FileScope.compileOrFail s.exclude

def validate (s : ScanSettings) : Except Error Unit := do
  checkRoots 0 s.roots
  let _ ← s.excluded

end ScanSettings

namespace RuleSpec

/-- No id is blank, and none is among those seen before. -/
def checkIds (index : Nat) (seen : List String) : List RuleSpec → Except Error Unit
  | [] => .ok ()
  | s :: ss =>
      if (Text.trim s.id.toList).isEmpty then .error (.settings (.blankId index))
      else if seen.contains s.id then .error (.settings (.duplicateId s.id))
      else checkIds (index + 1) (s.id :: seen) ss

/-- What a rule's kind has to satisfy before it is compiled. -/
def checkKind (s : RuleSpec) : Except Error Unit :=
  match s.kind with
  | .forbidden [] => .error (.settings (.noPatterns s.id))
  | .pairedCalls [] => .error (.settings (.noPairs s.id))
  | .functionBody _ requirements order =>
      match (order.flatMap fun (a, b) => [a, b]).find? fun n =>
          !requirements.any (·.name == n) with
      | some n => .error (.settings (.unknownOrder s.id n))
      | none => .ok ()
  | _ => .ok ()

def validate (s : RuleSpec) : Except Error Unit := do
  s.checkKind
  let _ ← CompiledRule.ofSpec s

end RuleSpec

namespace Settings

def validate (s : Settings) : Except Error Unit := do
  s.scan.validate
  RuleSpec.checkIds 0 [] s.rules
  s.rules.forM RuleSpec.validate

end Settings
end StructuralRules
