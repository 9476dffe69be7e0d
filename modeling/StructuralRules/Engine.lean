import StructuralRules.Report.Verdict
import StructuralRules.Rule.Basic

/-!
# The engine

An engine holds the rules of a run and runs once. Choosing rules and running
either succeed as a whole or leave the engine as it was. Every rule that is left
gets one report, in declared order, whatever the others come to.
-/

set_option autoImplicit false

namespace StructuralRules

/-- Where an engine is in its life. -/
inductive EngineState where
  | idle
  | running
  | done
  deriving DecidableEq, Repr

structure EngineOptions where
  /-- Rules may be run at the same time. No report depends on it. -/
  parallel : Bool := false
  /-- Milliseconds after which a rule is given up. -/
  timeoutMs : Option Nat := none
  deriving DecidableEq, Repr

structure Engine where
  rules : List Rule
  markers : Markers
  options : EngineOptions := {}
  state : EngineState := .idle
  /-- Number of rules that have finished. -/
  progress : Nat := 0

namespace CheckResult

/-- The outcome of a check that was not given up. -/
def outcome : CheckResult → Outcome
  | .found fs => .ofFindings (Finding.sort fs)
  | .refused e => .crashed e.message
  | .broken text => .crashed ("rule panicked: " ++ text.getD "unknown panic payload")

end CheckResult

namespace Rule

/-- The outcome of a rule under a time limit: it has to be done before the limit. -/
def outcome (r : Rule) (timeoutMs : Option Nat) (c : Corpus) (ms : Markers) : Outcome :=
  match timeoutMs with
  | some limit =>
      if limit ≤ r.takes then .crashed ("timed out after " ++ toString limit ++ " ms")
      else (r.check c ms).outcome
  | none => (r.check c ms).outcome

def report (r : Rule) (timeoutMs : Option Nat) (c : Corpus) (ms : Markers) : RuleReport :=
  ⟨r.id, r.name, r.description, r.outcome timeoutMs c ms⟩

end Rule

namespace Engine

/-- Keeps the rules with the listed ids. An empty list keeps all. -/
def select (e : Engine) (ids : List String) : Except Error Engine :=
  if ids.isEmpty then .ok e
  else
    match ids.find? fun id => !e.rules.any (·.id == id) with
    | some id => .error (.settings (.unknownRule id))
    | none => .ok { e with rules := e.rules.filter fun r => ids.contains r.id }

/-- Runs every rule that is left. -/
def run (e : Engine) (c : Corpus) : Except Error (Verdict × Engine) :=
  match e.state with
  | .idle =>
      let reports := e.rules.map (·.report e.options.timeoutMs c e.markers)
      .ok (⟨reports, c.warnings⟩,
        { e with state := .done, progress := e.progress + e.rules.length })
  | _ => .error (.engine .alreadyRun)

end Engine
end StructuralRules
