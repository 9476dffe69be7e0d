import StructuralRules.Proofs.Report.Order
import StructuralRules.Report.Document

/-!
# What a verdict counts

Whether a run passed is read off the outcomes of the rules, and the counts of a
summary are added up outcome by outcome. In the verdict of a run an outcome is
failed just when something in it fails. So the exit code, the counts and the
report document all agree with what the rules found.
-/

set_option autoImplicit false

namespace StructuralRules

/-! ## Outcomes -/

theorem Finding.isFail_iff {v : Finding} : v.isFail = true ↔ v.severity = .fail := by
  simp [isFail, Severity.isFail]

namespace Outcome

/-- The outcome is failed just when something in it fails. -/
def Decided : Outcome → Prop
  | .passed fs => ∀ v ∈ fs, v.isFail = false
  | .failed fs => ∃ v ∈ fs, v.isFail = true
  | .crashed _ => True

theorem ofFindings_cases (fs : List Finding) :
    (ofFindings fs = .failed fs ∧ ∃ v ∈ fs, v.isFail = true) ∨
      ofFindings fs = .passed fs ∧ ∀ v ∈ fs, v.isFail = false := by
  unfold ofFindings
  split
  · next h => exact Or.inl ⟨rfl, List.any_eq_true.mp h⟩
  · next h => exact Or.inr ⟨rfl, by simpa using h⟩

theorem ofFindings_decided (fs : List Finding) : (ofFindings fs).Decided := by
  rcases ofFindings_cases fs with ⟨h, hfail⟩ | ⟨h, hpass⟩
  · rw [h]
    exact hfail
  · rw [h]
    exact hpass

theorem isPassed_ofFindings (fs : List Finding) :
    (ofFindings fs).isPassed = true ↔ ∀ v ∈ fs, v.isFail = false := by
  rcases ofFindings_cases fs with ⟨h, v, hv, hfail⟩ | ⟨h, hpass⟩
  · rw [h]
    refine iff_of_false Bool.false_ne_true fun hall => ?_
    rw [hall v hv] at hfail
    cases hfail
  · rw [h]
    exact iff_of_true rfl hpass

theorem findings_ofFindings (fs : List Finding) : (ofFindings fs).findings = fs := by
  rcases ofFindings_cases fs with ⟨h, -⟩ | ⟨h, -⟩ <;> rw [h] <;> rfl

theorem isCrashed_ofFindings (fs : List Finding) : (ofFindings fs).isCrashed = false := by
  rcases ofFindings_cases fs with ⟨h, -⟩ | ⟨h, -⟩ <;> rw [h] <;> rfl

end Outcome

namespace CheckResult

/-- The outcome holds what was found, in the order of a report. A check that came to nothing is
a crash. -/
def KeptIn (o : Outcome) : CheckResult → Prop
  | .found fs => o.isCrashed = false ∧ o.findings.Perm fs ∧
      o.findings.Pairwise fun v w => (Finding.order v w).isLE = true
  | .refused _ | .broken _ => o.isCrashed = true

theorem keptIn_outcome (r : CheckResult) : r.KeptIn r.outcome := by
  cases r with
  | found fs =>
    refine ⟨Outcome.isCrashed_ofFindings _, ?_, ?_⟩
    · rw [outcome, Outcome.findings_ofFindings]
      exact List.mergeSort_perm fs _
    · rw [outcome, Outcome.findings_ofFindings]
      exact Finding.pairwise_sort fs
  | refused err => rfl
  | broken text => rfl

theorem outcome_decided (r : CheckResult) : r.outcome.Decided := by
  cases r with
  | found fs => exact Outcome.ofFindings_decided _
  | refused err => trivial
  | broken text => trivial

theorem isPassed_outcome (r : CheckResult) :
    r.outcome.isPassed = true ↔ ∃ fs, r = .found fs ∧ ∀ v ∈ fs, v.severity ≠ .fail := by
  cases r with
  | found fs =>
    rw [outcome, Outcome.isPassed_ofFindings]
    have hmem : ∀ v, v ∈ Finding.sort fs ↔ v ∈ fs := fun v => (List.mergeSort_perm fs _).mem_iff
    simp only [hmem, found.injEq, exists_eq_left', ne_eq, ← Finding.isFail_iff, Bool.not_eq_true]
  | refused err => simp [outcome, Outcome.isPassed]
  | broken text => simp [outcome, Outcome.isPassed]

end CheckResult

theorem Rule.outcome_decided (r : Rule) (limit : Option Nat) (c : Corpus) (ms : Markers) :
    (r.outcome limit c ms).Decided := by
  unfold Rule.outcome
  split
  · split
    · trivial
    · exact (r.check c ms).outcome_decided
  · exact (r.check c ms).outcome_decided

/-! ## Counting -/

theorem Outcome.isFailed_iff {o : Outcome} (h : o.Decided) :
    o.isFailed = true ↔ ∃ v ∈ o.findings, v.isFail = true := by
  cases o with
  | passed fs =>
    refine iff_of_false Bool.false_ne_true ?_
    rintro ⟨v, hv, hfail⟩
    rw [h v hv] at hfail
    cases hfail
  | failed fs => exact iff_of_true rfl h
  | crashed error => simp [isFailed, findings]

theorem Outcome.countP_kinds (os : List Outcome) :
    os.countP isPassed + os.countP isFailed + os.countP isCrashed = os.length := by
  induction os with
  | nil => rfl
  | cons o os ih =>
    simp only [List.countP_cons, List.length_cons]
    cases o <;> simp only [isPassed, isFailed, isCrashed, if_true, Bool.false_eq_true, if_false] <;>
      omega

namespace Summary

/-- What the counts of a summary say of the outcomes that were counted. -/
structure Tallies (s : Summary) (os : List Outcome) : Prop where
  passed_eq : s.passed = os.countP Outcome.isPassed
  failed_eq : s.failed = os.countP Outcome.isFailed
  crashed_eq : s.crashed = os.countP Outcome.isCrashed
  violations_eq : s.violations = (os.flatMap Outcome.findings).countP Finding.isFail
  findings_eq : s.violations + s.advisories = (os.flatMap Outcome.findings).length

theorem count_violations (s : Summary) {o : Outcome} (ho : o.Decided) :
    (s.count o).violations = s.violations + o.findings.countP Finding.isFail := by
  cases o with
  | passed fs =>
    have hnone : fs.countP Finding.isFail = 0 := by
      rw [List.countP_eq_zero]
      intro v hv
      rw [ho v hv]
      exact Bool.false_ne_true
    show s.violations = s.violations + fs.countP Finding.isFail
    omega
  | failed fs => rfl
  | crashed error => rfl

theorem count_findings (s : Summary) (o : Outcome) :
    (s.count o).violations + (s.count o).advisories =
      s.violations + s.advisories + o.findings.length := by
  cases o with
  | passed fs => exact (Nat.add_assoc _ _ _).symm
  | failed fs =>
    have hle : fs.countP Finding.isFail ≤ fs.length := List.countP_le_length
    show s.violations + fs.countP Finding.isFail +
      (s.advisories + (fs.length - fs.countP Finding.isFail)) = _
    simp only [Outcome.findings]
    omega
  | crashed error => rfl

theorem Tallies.count {s : Summary} {os : List Outcome} (h : s.Tallies os) {o : Outcome}
    (ho : o.Decided) : (s.count o).Tallies (os ++ [o]) := by
  refine ⟨?_, ?_, ?_, ?_, ?_⟩
  · rw [List.countP_append, ← h.passed_eq]
    cases o <;> rfl
  · rw [List.countP_append, ← h.failed_eq]
    cases o <;> rfl
  · rw [List.countP_append, ← h.crashed_eq]
    cases o <;> rfl
  · rw [List.flatMap_append, List.countP_append, ← h.violations_eq, List.flatMap_singleton,
      count_violations s ho]
  · rw [List.flatMap_append, List.length_append, ← h.findings_eq, List.flatMap_singleton,
      count_findings]

theorem Tallies.foldl {s : Summary} {os : List Outcome} (h : s.Tallies os) {os' : List Outcome}
    (hos' : ∀ o ∈ os', o.Decided) : (os'.foldl Summary.count s).Tallies (os ++ os') := by
  induction os' generalizing s os with
  | nil => rwa [List.append_nil]
  | cons o os' ih =>
    rw [List.foldl_cons, List.append_cons]
    exact ih (h.count (hos' o List.mem_cons_self)) fun o' ho' =>
      hos' o' (List.mem_cons_of_mem o ho')

theorem foldl_count_rules (os : List Outcome) (s : Summary) :
    (os.foldl Summary.count s).rules = s.rules := by
  induction os generalizing s with
  | nil => rfl
  | cons o os ih =>
    rw [List.foldl_cons, ih]
    cases o <;> rfl

end Summary

namespace Verdict

/-- What was found by all rules. -/
def findings (v : Verdict) : List Finding :=
  v.reports.flatMap (·.outcome.findings)

/-- The summary counts the reports and what they hold. -/
structure Counted (v : Verdict) : Prop where
  rules_eq : v.summary.rules = v.reports.length
  kinds_eq : v.summary.passed + v.summary.failed + v.summary.crashed = v.summary.rules
  violations_eq : v.summary.violations = v.findings.countP (·.severity = .fail)
  findings_eq : v.summary.violations + v.summary.advisories = v.findings.length
  failed_iff : 0 < v.summary.failed ↔ 0 < v.summary.violations

theorem counted {v : Verdict} (h : ∀ report ∈ v.reports, report.outcome.Decided) : v.Counted := by
  have hdecided : ∀ o ∈ v.reports.map (·.outcome), o.Decided := by
    intro o ho
    obtain ⟨report, hreport, rfl⟩ := List.mem_map.mp ho
    exact h report hreport
  have hnothing : ({ rules := v.reports.length, loadWarnings := v.loadWarnings.length } :
      Summary).Tallies [] := ⟨rfl, rfl, rfl, rfl, rfl⟩
  have htallies : v.summary.Tallies (v.reports.map (·.outcome)) := hnothing.foldl hdecided
  have hrules : v.summary.rules = v.reports.length := Summary.foldl_count_rules _ _
  have hfindings : (v.reports.map (·.outcome)).flatMap Outcome.findings = v.findings :=
    List.flatMap_map ..
  refine ⟨hrules, ?_, ?_, ?_, ?_⟩
  · rw [htallies.passed_eq, htallies.failed_eq, htallies.crashed_eq, Outcome.countP_kinds,
      List.length_map, hrules]
  · rw [htallies.violations_eq, hfindings]
    exact List.countP_congr fun f _ => by rw [Finding.isFail_iff, decide_eq_true_eq]
  · rw [htallies.findings_eq, hfindings]
  · rw [htallies.failed_eq, htallies.violations_eq, List.countP_pos_iff, List.countP_pos_iff]
    constructor
    · rintro ⟨o, ho, hfailed⟩
      obtain ⟨f, hf, hfail⟩ := (Outcome.isFailed_iff (hdecided o ho)).mp hfailed
      exact ⟨f, List.mem_flatMap.mpr ⟨o, ho, hf⟩, hfail⟩
    · rintro ⟨f, hf, hfail⟩
      obtain ⟨o, ho, hf⟩ := List.mem_flatMap.mp hf
      exact ⟨o, ho, (Outcome.isFailed_iff (hdecided o ho)).mpr ⟨f, hf, hfail⟩⟩

theorem exitCode_eq_zero {v : Verdict} :
    v.exitCode = 0 ↔ ∀ report ∈ v.reports, report.outcome.isPassed = true := by
  rw [← List.all_eq_true, exitCode, passed]
  split
  · next h => exact iff_of_true rfl h
  · next h => exact iff_of_false Nat.one_ne_zero h

end Verdict

/-! ## Verdicts of runs -/

namespace Engine

theorem reports_of_run {e e' : Engine} {c : Corpus} {v : Verdict} (h : e.run c = .ok (v, e')) :
    v.reports = e.rules.map (·.report e.options.timeoutMs c e.markers) := by
  unfold run at h
  split at h
  · obtain ⟨rfl, -⟩ := Prod.mk.inj (Except.ok.inj h)
    rfl
  · cases h

/-- **Exit code, counts and report document agree with what the rules found.** A run without a
time limit exits with zero just when every check came to findings of which none fails, and each
report holds the findings of its rule, sorted. The summary of every run counts the reports and
what they hold, and the document says that the run passed just when the exit code is zero. -/
theorem exit_code_agrees_with_findings {e e' : Engine} {c : Corpus} {v : Verdict}
    (hrun : e.run c = .ok (v, e')) :
    (e.options.timeoutMs = none →
      (v.exitCode = 0 ↔ ∀ r ∈ e.rules, ∃ fs, r.check c e.markers = .found fs ∧
        ∀ f ∈ fs, f.severity ≠ .fail) ∧
      List.Forall₂ (fun r report => (r.check c e.markers).KeptIn report.outcome)
        e.rules v.reports) ∧
    (v.exitCode ≠ 0 → v.exitCode = 1) ∧ v.Counted ∧
    ∃ entries, v.document = .table entries ∧
      Data.find? "passed" entries = some (.bool (decide (v.exitCode = 0))) := by
  have hreports := reports_of_run hrun
  refine ⟨fun hlimit => ⟨?_, ?_⟩, ?_, ?_, ?_⟩
  · rw [Verdict.exitCode_eq_zero, hreports, hlimit]
    simp only [List.forall_mem_map]
    exact forall₂_congr fun r _ => CheckResult.isPassed_outcome _
  · rw [hreports, hlimit, List.forall₂_map_right_iff]
    exact List.forall₂_same.mpr fun r _ => CheckResult.keptIn_outcome _
  · intro hne
    unfold Verdict.exitCode at hne ⊢
    split
    · next hpassed => exact absurd (if_pos hpassed) hne
    · rfl
  · refine Verdict.counted fun report hreport => ?_
    rw [hreports] at hreport
    obtain ⟨r, -, rfl⟩ := List.mem_map.mp hreport
    exact r.outcome_decided _ c e.markers
  · refine ⟨_, rfl, ?_⟩
    have hpassed : v.passed = decide (v.exitCode = 0) := by
      unfold Verdict.exitCode
      cases v.passed <;> rfl
    rw [← hpassed]
    rfl

/-- One rule only warns, one fails and warns, and one breaks off, over a corpus with a problem. -/
theorem exit_code_of_mixed_run :
    ∃ (e e' : Engine) (c : Corpus) (v : Verdict),
      e.run c = .ok (v, e') ∧ e.options.timeoutMs = none ∧ v.exitCode = 1 ∧
        v.summary = { rules := 3, passed := 1, failed := 1, crashed := 1, violations := 1
                      advisories := 2, loadWarnings := 1 } ∧ v.Counted ∧
        List.Forall₂ (fun r report => (r.check c e.markers).KeptIn report.outcome)
          e.rules v.reports := by
  let warning : Finding := { path := "b.c", severity := .warn, ruleId := "R", message := "w" }
  let failure : Finding := { path := "a.c", severity := .fail, ruleId := "R", message := "f" }
  let e : Engine :=
    { markers := []
      rules := [{ id := "A", name := "a", check := fun _ _ => .found [warning] },
        { id := "B", name := "b", check := fun _ _ => .found [warning, failure] },
        { id := "C", name := "c", check := fun _ _ => .broken none }] }
  let c : Corpus := ⟨[], [Finding.loadWarning "x.c" "unreadable"]⟩
  let v : Verdict :=
    ⟨[⟨"A", "a", none, .passed [warning]⟩, ⟨"B", "b", none, .failed [failure, warning]⟩,
      ⟨"C", "c", none, .crashed "rule panicked: unknown panic payload"⟩], c.warnings⟩
  have hone : Finding.sort [warning] = [warning] := List.mergeSort_singleton warning
  have htwo : Finding.sort [warning, failure] = [failure, warning] := by
    rw [Finding.sort_perm (List.Perm.swap failure warning []) (by decide)]
    exact List.mergeSort_of_pairwise (by decide)
  have hrun : e.run c = .ok (v, { e with state := .done, progress := 3 }) := by
    simp only [e, v, run, List.map, Rule.report, Rule.outcome, CheckResult.outcome, hone, htwo]
    rfl
  obtain ⟨hfound, -, hcounted, -⟩ := exit_code_agrees_with_findings hrun
  exact ⟨e, _, c, v, hrun, rfl, by decide, by decide, hcounted, (hfound rfl).2⟩

end Engine
end StructuralRules
