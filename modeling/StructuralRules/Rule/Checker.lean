import StructuralRules.Rule.Site
import StructuralRules.Rule.Spec

/-!
# Compiled rules

A declared rule with its globs and patterns compiled, and what it finds in a
corpus. Compiling reports the first glob or pattern that is refused: the files of
the rule come first, then the parts of its kind in the order in which they are
declared.
-/

set_option autoImplicit false

namespace StructuralRules

/-- What all compiled rules share. -/
structure RuleHead where
  id : String
  name : String
  description : Option String
  severity : Severity
  onMissing : MissingPolicy
  scope : FileScope
  fix : Option String

namespace RuleHead

/-- A finding at a line of a file. -/
def finding (h : RuleHead) (file : SourceFile) (line : Nat) (check message : String) : Finding :=
  { path := file.path, line := some line, severity := h.severity, ruleId := h.id
    check := some check, message, fix := h.fix
    : Finding }.withSnippet ((file.line? line).getD [])

/-- The finding about an absent construct. -/
def missing (h : RuleHead) (kind name : String) : List Finding :=
  (h.onMissing.finding? h.id h.scope.describe s!"{kind} '{name}' not found").toList

end RuleHead

/-- A compiled requirement on a function. -/
structure Requirement where
  name : String
  pattern : Pattern
  message : Option String

/-- The kinds of compiled rules. -/
inductive Checker where
  | sites (rules : List SiteRule)
  | enumCoverage (enum : String) (enumScope : FileScope) (function : String) (argument : Nat)
      (valueFilter : Option Pattern)
  | functionBody (function : String) (requirements : List Requirement)
      (order : List (Requirement × Requirement))
  | structField (struct field : String) (type : Option String)
  | pairedCalls (pairs : List CallPair)

structure CompiledRule where
  head : RuleHead
  checker : Checker

/-! ## Compiling -/

namespace RuleHead

def ofSpec (s : RuleSpec) : Except Error RuleHead := do
  return ⟨s.id, s.name, s.description, s.severity, s.onMissing,
    ← FileScope.compileOrFail s.files, s.fix⟩

/-- The rule about the lines that match a forbidden pattern. -/
def forbid (h : RuleHead) (check : Option String) (p : ForbiddenPattern) :
    Except Error SiteRule := do
  return {
    id := h.id, name := h.name, severity := h.severity, scope := h.scope, fix := h.fix
    locator := .lines (← Pattern.compileOrFail p.regex)
    message := ⟨p.message.toList⟩
    check }

/-- The rules about the forbidden patterns. Several patterns are told apart by number. -/
def forbidAll (h : RuleHead) (patterns : List ForbiddenPattern) : Except Error (List SiteRule) :=
  let named := 1 < patterns.length
  (patterns.zipIdx 1).mapM fun (p, n) =>
    h.forbid (if named then some ("pattern-" ++ toString n) else none) p

def windowMessage (required : String) (before after : Nat) : String :=
  s!"'\x7bmatch\x7d' without '{required}' within {before} lines before or {after} after"

/-- The rule about anchors without the required pattern close to them. -/
def window (h : RuleHead) (function : Option String) (anchor required : String)
    (before after : Nat) (message : Option String) : Except Error SiteRule := do
  let anchor ← Pattern.compileOrFail anchor
  let needed ← Pattern.compileOrFail required
  return {
    id := h.id, name := h.name, description := h.description, severity := h.severity
    onMissing := h.onMissing, scope := h.scope, fix := h.fix
    locator := .lines anchor
    neighborhood := .window before after
    within := function
    condition := fun s => s.contextMatches needed
    message := ⟨(message.getD (windowMessage required before after)).toList⟩
    check := some "window" }

end RuleHead

namespace Requirement

def ofSpec (r : BodyRequirement) : Except Error Requirement := do
  return ⟨r.name, ← Pattern.compileOrFail r.pattern, r.message⟩

/-- The first requirement with the name. -/
def named (id : String) (rs : List Requirement) (name : String) : Except Error Requirement :=
  match rs.find? (·.name == name) with
  | some r => .ok r
  | none => .error (.rule id (.unknownRequirement name))

end Requirement

namespace Checker

def ofSpec (h : RuleHead) : RuleKind → Except Error Checker
  | .forbidden patterns => .sites <$> h.forbidAll patterns
  | .window function anchor required before after message => do
      return .sites [← h.window function anchor required before after message]
  | .enumCoverage enum enumFiles function argument valueFilter => do
      let scope ← FileScope.compileOrFail enumFiles
      return .enumCoverage enum scope function argument (← valueFilter.mapM Pattern.compileOrFail)
  | .functionBody function requirements order => do
      let rs ← requirements.mapM Requirement.ofSpec
      let order ← order.mapM fun (first, second) => do
        return (← Requirement.named h.id rs first, ← Requirement.named h.id rs second)
      return .functionBody function rs order
  | .structField struct field type => return .structField struct field type
  | .pairedCalls pairs => return .pairedCalls pairs

end Checker

namespace CompiledRule

def ofSpec (s : RuleSpec) : Except Error CompiledRule := do
  let head ← RuleHead.ofSpec s
  return ⟨head, ← Checker.ofSpec head s.kind⟩

end CompiledRule

/-! ## Checking -/

namespace EnumDef

/-- The first file of the scope that defines the enum, and the definition. -/
def firstIn? (c : Corpus) (s : FileScope) (name : String) (ms : Markers) :
    Option (SourceFile × EnumDef) :=
  (c.inScope s).findSome? fun f => (find? f name ms).map (f, ·)

end EnumDef

namespace FunctionDef

/-- The first file of the scope that defines the function, and the definition. -/
def firstIn? (c : Corpus) (s : FileScope) (name : String) : Option (SourceFile × FunctionDef) :=
  (c.inScope s).findSome? fun f => (find? f name).map (f, ·)

end FunctionDef

namespace StructDef

/-- The first of the files that defines the struct, and the definition. Files behind it are
not read. -/
def firstOf? (name : String) (ms : Markers) :
    List SourceFile → Except SplitCharacter (Option (SourceFile × StructDef))
  | [] => .ok none
  | f :: fs => do
      match ← find? f name ms with
      | some d => return some (f, d)
      | none => firstOf? name ms fs

end StructDef

namespace RuleHead

/-- The identifiers in the watched argument of the calls in scope. -/
def coveredNames (h : RuleHead) (c : Corpus) (ms : Markers) (function : String)
    (argument : Nat) : List Text :=
  (c.inScope h.scope).flatMap fun f =>
    (Call.all f function ms).flatMap fun call =>
      match call.args[argument]? with
      | some arg => arg.tokens
      | none => []

/-- Reports the values of the enum that no call covers. -/
def checkCoverage (h : RuleHead) (c : Corpus) (ms : Markers) (enum : String)
    (enumScope : FileScope) (function : String) (argument : Nat) (filter : Option Pattern) :
    List Finding :=
  match EnumDef.firstIn? c enumScope enum ms with
  | none => h.missing "enum" enum
  | some (file, d) =>
      let covered := h.coveredNames c ms function argument
      let due := d.values.filter fun v =>
        filter.all (·.isMatch v.name) && !covered.contains v.name
      due.map fun v =>
        h.finding file v.line "coverage"
          (enum ++ "::" ++ String.ofList v.name ++ " is never passed to " ++ function ++ "()")

/-- Reports the requirements that the function does not meet. -/
def checkRequirements (h : RuleHead) (file : SourceFile) (f : FunctionDef) (masked : Text)
    (rs : List Requirement) : List Finding :=
  (rs.filter (!·.pattern.isMatch masked)).map fun r =>
    h.finding file f.startLine r.name <| r.message.getD
      (f.name ++ "() must contain '" ++ r.pattern.source ++ "' (" ++ r.name ++ ")")

/-- Reports the pairs of requirements of which the second one comes first. -/
def checkOrder (h : RuleHead) (file : SourceFile) (f : FunctionDef) (masked : Text)
    (order : List (Requirement × Requirement)) : List Finding :=
  order.filterMap fun (first, second) =>
    if Text.compareFirst? f.text first.pattern.regex second.pattern.regex == some .gt then
      let offset := ((first.pattern.find? masked).map (·.start)).getD 0
      let line := f.startLine + Text.newlines (Text.slice masked 0 offset)
      some (h.finding file line ("order:" ++ first.name ++ "<" ++ second.name)
        ("'" ++ first.name ++ "' must come before '" ++ second.name ++ "' in " ++ f.name ++ "()"))
    else none

def checkFunction (h : RuleHead) (c : Corpus) (function : String) (rs : List Requirement)
    (order : List (Requirement × Requirement)) : List Finding :=
  match FunctionDef.firstIn? c h.scope function with
  | none => h.missing "function" function
  | some (file, f) =>
      let masked := f.text.masked
      h.checkRequirements file f masked rs ++ h.checkOrder file f masked order

/-- Reports a field that the struct does not have, or that has another type. -/
def checkField (h : RuleHead) (c : Corpus) (ms : Markers) (struct field : String)
    (type : Option String) : Except SplitCharacter (List Finding) := do
  match ← StructDef.firstOf? struct ms (c.inScope h.scope) with
  | none => return h.missing "struct" struct
  | some (file, d) =>
      match d.field? field with
      | none =>
          return [h.finding file d.startLine "field" s!"struct {struct} has no field '{field}'"]
      | some f =>
          match type with
          | none => return []
          | some expected =>
              if f.typeMatches expected.toList then return []
              else
                let actual := String.ofList f.type
                return [h.finding file f.line "field-type"
                  s!"{struct}.{field} has type '{actual}', expected '{expected}'"]

/-- Reports the first call of an opening function in a file that never calls the closing one. -/
def checkPair (h : RuleHead) (file : SourceFile) (ms : Markers) (p : CallPair) :
    Option Finding := do
  let call ← (Call.all file p.opening ms).find? (·.lineClass.isCode)
  if (Call.all file p.closing ms).isEmpty then
    some (h.finding file call.line p.opening
      (p.opening ++ "() is called without a matching " ++ p.closing ++ "()"))
  else none

def checkPairs (h : RuleHead) (c : Corpus) (ms : Markers) (pairs : List CallPair) :
    List Finding :=
  (c.inScope h.scope).flatMap fun f => pairs.filterMap (h.checkPair f ms)

end RuleHead

namespace CompiledRule

/-- What the rule finds in a corpus, in the order in which it finds it. -/
def findings (r : CompiledRule) (c : Corpus) (ms : Markers) :
    Except SplitCharacter (List Finding) :=
  match r.checker with
  | .sites rules => do return (← rules.mapM (·.findings c ms)).flatten
  | .enumCoverage enum enumScope function argument filter =>
      .ok (r.head.checkCoverage c ms enum enumScope function argument filter)
  | .functionBody function requirements order =>
      .ok (r.head.checkFunction c function requirements order)
  | .structField struct field type => r.head.checkField c ms struct field type
  | .pairedCalls pairs => .ok (r.head.checkPairs c ms pairs)

end CompiledRule
end StructuralRules
