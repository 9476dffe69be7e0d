import StructuralRules.Finding

/-!
# Verdicts

What the rules came to, in declared order, and the problems met while loading.
A rule passes when nothing it found fails; what it found is kept as advice.
-/

set_option autoImplicit false

namespace StructuralRules

/-- What one rule came to. -/
inductive Outcome where
  | passed (advisories : List Finding)
  | failed (findings : List Finding)
  | crashed (error : String)
  deriving DecidableEq, Repr

namespace Outcome

def ofFindings (fs : List Finding) : Outcome :=
  if fs.any (·.isFail) then .failed fs else .passed fs

def isPassed : Outcome → Bool
  | .passed _ => true
  | _ => false

def isFailed : Outcome → Bool
  | .failed _ => true
  | _ => false

def isCrashed : Outcome → Bool
  | .crashed _ => true
  | _ => false

/-- What was found; a crash found nothing. -/
def findings : Outcome → List Finding
  | .passed fs => fs
  | .failed fs => fs
  | .crashed _ => []

def status : Outcome → String
  | .passed _ => "passed"
  | .failed _ => "failed"
  | .crashed _ => "crashed"

end Outcome

structure RuleReport where
  ruleId : String
  name : String
  description : Option String := none
  outcome : Outcome
  deriving DecidableEq, Repr

/-- What a verdict counts. -/
structure Summary where
  rules : Nat := 0
  passed : Nat := 0
  failed : Nat := 0
  crashed : Nat := 0
  violations : Nat := 0
  advisories : Nat := 0
  loadWarnings : Nat := 0
  deriving DecidableEq, Repr

namespace Summary

/-- Counts one more outcome. -/
def count (s : Summary) : Outcome → Summary
  | .passed fs =>
      { s with passed := s.passed + 1, advisories := s.advisories + fs.length }
  | .failed fs =>
      let fails := fs.countP (·.isFail)
      { s with
        failed := s.failed + 1
        violations := s.violations + fails
        advisories := s.advisories + (fs.length - fails) }
  | .crashed _ => { s with crashed := s.crashed + 1 }

end Summary

structure Verdict where
  reports : List RuleReport
  loadWarnings : List Finding
  deriving DecidableEq, Repr

namespace Verdict

/-- Whether every rule passed. -/
def passed (v : Verdict) : Bool :=
  v.reports.all (·.outcome.isPassed)

def exitCode (v : Verdict) : Nat :=
  if v.passed then 0 else 1

def summary (v : Verdict) : Summary :=
  (v.reports.map (·.outcome)).foldl Summary.count
    { rules := v.reports.length, loadWarnings := v.loadWarnings.length }

end Verdict
end StructuralRules
