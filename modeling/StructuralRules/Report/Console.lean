import StructuralRules.Report.Verdict

/-!
# Reports for a terminal

A report is a list of inked pieces. Colours only surround pieces; without them
the report is the concatenation of the pieces.
-/

set_option autoImplicit false

namespace StructuralRules

inductive Colour where
  | red
  | green
  | yellow
  | magenta
  | cyan
  | dim
  deriving DecidableEq, Repr

namespace Colour

def escape : Text := ['\x1b', '[']

/-- The code between the escape and the letter m. -/
def code : Colour → Text
  | .red => ['3', '1']
  | .green => ['3', '2']
  | .yellow => ['3', '3']
  | .magenta => ['3', '5']
  | .cyan => ['3', '6']
  | .dim => ['2']

def start (c : Colour) : Text :=
  escape ++ c.code ++ ['m']

/-- Ends any colour. -/
def reset : Text :=
  escape ++ ['0', 'm']

end Colour

/-- A piece of text with at most one colour. -/
structure Ink where
  colour : Option Colour
  text : Text
  deriving DecidableEq, Repr

namespace Ink

def plain (s : String) : Ink :=
  ⟨none, s.toList⟩

def paint (c : Colour) (s : String) : Ink :=
  ⟨some c, s.toList⟩

def render (colours : Bool) (i : Ink) : Text :=
  match i.colour with
  | some c => if colours then c.start ++ i.text ++ Colour.reset else i.text
  | none => i.text

end Ink

namespace Severity

def colour : Severity → Colour
  | .fail => .red
  | .warn => .yellow
  | .info => .cyan

end Severity

namespace Finding

/-- The rule, and the part of it that found this. -/
def tag (f : Finding) : String :=
  match f.check with
  | some check => f.ruleId ++ "/" ++ check
  | none => f.ruleId

def inks (f : Finding) : List Ink :=
  [.plain ("  " ++ f.location ++ " [" ++ f.tag ++ "] "), .paint f.severity.colour f.severity.name,
    .plain (": " ++ f.message ++ "\n")] ++
  (match f.snippet with
    | some s => [.plain "      ", .paint .dim s, .plain "\n"]
    | none => []) ++
  (match f.fix with
    | some s => [.plain ("    fix: " ++ s ++ "\n")]
    | none => [])

end Finding

namespace Outcome

def inks : Outcome → List Ink
  | .crashed error => [.plain ("  error: " ++ error ++ "\n")]
  | .passed fs | .failed fs => fs.flatMap (·.inks)

def label : Outcome → Ink
  | .passed _ => .paint .green "PASS"
  | .failed _ => .paint .red "FAIL"
  | .crashed _ => .paint .magenta "CRASH"

end Outcome

namespace RuleReport

def inks (r : RuleReport) : List Ink :=
  [r.outcome.label, .plain (" " ++ r.ruleId ++ " " ++ r.name ++ "\n")] ++ r.outcome.inks

end RuleReport

namespace Summary

def inks (s : Summary) : List Ink :=
  [.plain ("Summary: " ++ toString s.rules ++ " rules, "),
    .paint .green (toString s.passed), .plain " passed, ",
    .paint .red (toString s.failed), .plain " failed, ",
    .paint .magenta (toString s.crashed), .plain " crashed\n"]

end Summary

namespace Verdict

/-- The problems met while loading, if any, then the rules, then the counts. -/
def inks (v : Verdict) : List Ink :=
  (if v.loadWarnings.isEmpty then []
    else [.paint .yellow "Load warnings", .plain "\n"] ++ v.loadWarnings.flatMap (·.inks) ++
      [.plain "\n"]) ++
  v.reports.flatMap (·.inks) ++
  (if v.reports.isEmpty then [] else [.plain "\n"]) ++
  v.summary.inks

/-- The report for a terminal. -/
def console (v : Verdict) (colours : Bool) : String :=
  String.ofList (v.inks.flatMap (·.render colours))

end Verdict
end StructuralRules
