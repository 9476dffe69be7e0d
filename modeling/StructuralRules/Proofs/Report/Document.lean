import StructuralRules.Proofs.Data.Tables
import StructuralRules.Report.Document

/-!
# What a report document keeps

A verdict can be read off its report document. Findings with and without a line, a
check, a fix or a snippet are written differently. What a rule found and why it
crashed are two fields of which one is left out, and the status tells the rules
that passed from those that failed.
-/

set_option autoImplicit false

namespace StructuralRules

open Data

namespace Severity

theorem name_injective {s s' : Severity} (h : s.name = s'.name) : s = s' := by
  cases s <;> cases s' <;> first | rfl | exact absurd h (by decide)

theorem name_faithful : Faithful fun s : Severity => .string s.name :=
  fun h => name_injective (faithful_string h)

end Severity

namespace Finding

theorem toData_faithful : Faithful toData := by
  intro v w h
  have hpath : some v.path = some w.path :=
    h.field faithful_string "path" (by simp) (by simp)
  have hline : v.line = w.line := h.field faithful_nat "line" (by simp) (by simp)
  have hseverity : some v.severity = some w.severity :=
    h.field Severity.name_faithful "severity" (by simp) (by simp)
  have hrule : some v.ruleId = some w.ruleId :=
    h.field faithful_string "rule_id" (by simp) (by simp)
  have hcheck : v.check = w.check := h.field faithful_string "check" (by simp) (by simp)
  have hmessage : some v.message = some w.message :=
    h.field faithful_string "message" (by simp) (by simp)
  have hfix : v.fix = w.fix := h.field faithful_string "fix" (by simp) (by simp)
  have hsnippet : v.snippet = w.snippet := h.field faithful_string "snippet" (by simp) (by simp)
  cases v
  cases w
  simp_all

theorem listData_faithful : Faithful listData :=
  toData_faithful.list

end Finding

namespace Outcome

/-- What was found, unless the rule crashed. -/
def found? : Outcome → Option (List Finding)
  | .passed fs | .failed fs => some fs
  | .crashed _ => none

/-- Why the rule crashed, if it did. -/
def error? : Outcome → Option String
  | .passed _ | .failed _ => none
  | .crashed error => some error

/-- The fields of a report that stand for what the rule came to. -/
def entries (o : Outcome) : List (String × Data) :=
  [("status", .string o.status)] ++ optionalEntry "violations" (o.found?.map Finding.listData) ++
    optionalEntry "error" (o.error?.map .string)

/-- The three fields together say what the rule came to. -/
theorem eq_of_fields {o p : Outcome} (hstatus : o.status = p.status) (hfound : o.found? = p.found?)
    (herror : o.error? = p.error?) : o = p := by
  cases o with
  | passed fs =>
    cases p with
    | passed gs => rw [Option.some.inj hfound]
    | failed gs => simp [status] at hstatus
    | crashed error => cases hfound
  | failed fs =>
    cases p with
    | passed gs => simp [status] at hstatus
    | failed gs => rw [Option.some.inj hfound]
    | crashed error => cases hfound
  | crashed error =>
    cases p with
    | passed gs => cases hfound
    | failed gs => cases hfound
    | crashed error' => rw [Option.some.inj herror]

end Outcome

namespace RuleReport

theorem entry_eq (r : RuleReport) :
    r.entry = .table ([("id", .string r.ruleId), ("name", .string r.name)] ++
      optionalEntry "description" (r.description.map .string) ++ r.outcome.entries) := by
  obtain ⟨id, name, description, outcome⟩ := r
  cases outcome <;> simp [entry, Outcome.entries, Outcome.found?, Outcome.error?, optionalEntry]

theorem entry_faithful : Faithful entry := by
  intro r r' h
  rw [entry_eq, entry_eq] at h
  have hid : some r.ruleId = some r'.ruleId := h.field faithful_string "id" (by simp) (by simp)
  have hname : some r.name = some r'.name := h.field faithful_string "name" (by simp) (by simp)
  have hdescription : r.description = r'.description :=
    h.field faithful_string "description" (by simp [Outcome.entries]) (by simp [Outcome.entries])
  have hstatus : some r.outcome.status = some r'.outcome.status :=
    h.field faithful_string "status" (by simp [Outcome.entries]) (by simp [Outcome.entries])
  have hfound : r.outcome.found? = r'.outcome.found? :=
    h.field Finding.listData_faithful "violations" (by simp [Outcome.entries])
      (by simp [Outcome.entries])
  have herror : r.outcome.error? = r'.outcome.error? :=
    h.field faithful_string "error" (by simp [Outcome.entries]) (by simp [Outcome.entries])
  have houtcome := Outcome.eq_of_fields (Option.some.inj hstatus) hfound herror
  cases r
  cases r'
  simp_all

end RuleReport

/-- **The report document loses nothing.** Two verdicts have the same document, as a JSON value,
only if they are equal: the same reports in the same order with the same findings in the same
order or the same error, and the same load warnings. -/
theorem Verdict.document_loses_nothing (v w : Verdict) :
    SameJson v.document w.document ↔ v = w := by
  constructor
  · intro h
    have hreports : some v.reports = some w.reports :=
      h.field RuleReport.entry_faithful.list "rules" (by simp) (by simp)
    have hwarnings : some v.loadWarnings = some w.loadWarnings :=
      h.field Finding.listData_faithful "load_warnings" (by simp) (by simp)
    cases v
    cases w
    simp_all
  · rintro rfl
    exact .refl _

end StructuralRules
