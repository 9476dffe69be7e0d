import StructuralRules.Data.Json
import StructuralRules.Report.Verdict

/-!
# Reports as data

The report document, and the trees of findings and verdicts it is made of. A
field without a value is left out.
-/

set_option autoImplicit false

namespace StructuralRules

namespace Finding

def toData (f : Finding) : Data :=
  .table <|
    [("path", .string f.path)] ++ Data.optionalEntry "line" (f.line.map .nat) ++
    [("severity", .string f.severity.name), ("rule_id", .string f.ruleId)] ++
    Data.optionalEntry "check" (f.check.map .string) ++ [("message", .string f.message)] ++
    Data.optionalEntry "fix" (f.fix.map .string) ++
    Data.optionalEntry "snippet" (f.snippet.map .string)

def listData (fs : List Finding) : Data :=
  .list (fs.map toData)

end Finding

namespace Summary

def toData (s : Summary) : Data :=
  .table
    [("rules", .nat s.rules), ("passed", .nat s.passed), ("failed", .nat s.failed),
     ("crashed", .nat s.crashed), ("violations", .nat s.violations),
     ("advisories", .nat s.advisories), ("load_warnings", .nat s.loadWarnings)]

end Summary

namespace RuleReport

/-- A report in the tree of a verdict. -/
def toData (r : RuleReport) : Data :=
  .table <|
    [("rule_id", .string r.ruleId), ("name", .string r.name)] ++
    Data.optionalEntry "description" (r.description.map .string) ++
    [("status", .string r.outcome.status)] ++
    match r.outcome with
    | .passed fs => [("advisories", Finding.listData fs)]
    | .failed fs => [("violations", Finding.listData fs)]
    | .crashed error => [("error", .string error)]

/-- A report in the report document. -/
def entry (r : RuleReport) : Data :=
  .table <|
    [("id", .string r.ruleId), ("name", .string r.name)] ++
    Data.optionalEntry "description" (r.description.map .string) ++
    [("status", .string r.outcome.status)] ++
    match r.outcome with
    | .passed fs | .failed fs => [("violations", Finding.listData fs)]
    | .crashed error => [("error", .string error)]

end RuleReport

namespace Verdict

def toData (v : Verdict) : Data :=
  .table
    [("reports", .list (v.reports.map (·.toData))),
     ("load_warnings", Finding.listData v.loadWarnings)]

/-- The report document. -/
def document (v : Verdict) : Data :=
  .table
    [("passed", .bool v.passed), ("summary", v.summary.toData),
     ("load_warnings", Finding.listData v.loadWarnings),
     ("rules", .list (v.reports.map (·.entry)))]

def json (v : Verdict) : String :=
  v.document.json

end Verdict

/-- The forms of a report. -/
inductive ReportFormat where
  | text
  | json
  deriving DecidableEq, Repr

namespace ReportFormat

/-- The format with a name, in any case. -/
def parse? (name : String) : Option ReportFormat :=
  match name.toLower with
  | "text" => some .text
  | "json" => some .json
  | _ => none

def unknownMessage (name : String) : String :=
  "Unknown output format: " ++ name

end ReportFormat
end StructuralRules
