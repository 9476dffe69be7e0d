import StructuralRules.Proofs.Rule.Coverage
import StructuralRules.Proofs.Source.MemberLines

/-!
# How uncovered enumerators are reported

The values that no call covers are reported once each, in the order in which the
enum declares them and where it declares them. More files can only cover more, so
as long as the enum is read from the same file, a larger corpus leaves a part of
the report and adds nothing to it.
-/

set_option autoImplicit false

namespace StructuralRules

/-- The value passes the filter, and no call in scope mentions it. -/
structure Corpus.Uncovered (c : Corpus) (scope : FileScope) (ms : Markers) (function : String)
    (argument : Nat) (valueFilter : Option String) (e : Enumerator) : Prop where
  passes : Pattern.Passes valueFilter e.name
  unmentioned : ¬ ∃ f off, c.MentionedAt scope ms function argument e.name f off

/-- The finding says of the value, at its line of the file, that no call covers it. -/
structure Finding.ReportsValue (v : Finding) (s : RuleSpec) (enum function : String)
    (file : SourceFile) (e : Enumerator) : Prop where
  points : v.PointsAt s file e.line
  check_eq : v.check = some "coverage"
  message_eq : v.message = e.uncovered enum function

/-! ## Values and files -/

/-- What is said about a value names it. -/
theorem Enumerator.uncovered_inj {enum function : String} {e e' : Enumerator}
    (h : e.uncovered enum function = e'.uncovered enum function) : e.name = e'.name := by
  rw [← String.toList_inj] at h
  simpa [uncovered] using h

namespace EnumDef

variable {c c' : Corpus} {scope : FileScope} {name : String} {ms : Markers} {file : SourceFile}
  {d : EnumDef}

/-- An enum declares its values one behind the other, each of them once. -/
theorem values_inOrder (h : find? file name ms = some d) :
    d.values.Pairwise fun e e' => e.name ≠ e'.name ∧ e.line ≤ e'.line := by
  obtain ⟨b, -, rfl⟩ := Option.map_eq_some_iff.mp h
  exact Enumerator.InOrder.ofRows ⟨.nil, by simp⟩ _

/-- The file decides the definition. -/
theorem firstIn?_congr
    (h : (firstIn? c' scope name ms).map (·.1) = (firstIn? c scope name ms).map (·.1)) :
    firstIn? c' scope name ms = firstIn? c scope name ms := by
  cases hfound : firstIn? c scope name ms with
  | none =>
    rw [hfound] at h
    exact Option.map_eq_none_iff.mp h
  | some found =>
    obtain ⟨file, d⟩ := found
    rw [hfound] at h
    obtain ⟨⟨file', d'⟩, hfound', hfile⟩ := Option.map_eq_some_iff.mp h
    obtain rfl : file' = file := hfile
    have hd := (of_firstIn? hfound).2
    rw [(of_firstIn? hfound').2] at hd
    rw [hfound', Option.some.inj hd]

end EnumDef

/-- A call in a corpus is a call in every larger one. -/
theorem Corpus.MentionedAt.mono {c c' : Corpus} (hc : c.files ⊆ c'.files) {scope : FileScope}
    {ms : Markers} {function : String} {argument : Nat} {w : Text} {f : SourceFile} {off : Nat}
    (h : c.MentionedAt scope ms function argument w f off) :
    c'.MentionedAt scope ms function argument w f off := by
  obtain ⟨hf, hmatch⟩ := Corpus.mem_inScope.mp h.inScope
  exact ⟨Corpus.mem_inScope.mpr ⟨hc hf, hmatch⟩, h.call⟩

/-! ## What is due -/

namespace RuleHead

/-- The values that are reported. -/
def due (h : RuleHead) (c : Corpus) (ms : Markers) (function : String) (argument : Nat)
    (filter : Option Pattern) (d : EnumDef) : List Enumerator :=
  d.values.filter fun e =>
    filter.all (·.isMatch e.name) && !(h.coveredNames c ms function argument).contains e.name

variable {h : RuleHead} {c c' : Corpus} {ms : Markers} {function : String} {argument : Nat}
  {filter : Option Pattern} {d : EnumDef}

theorem mem_due {e : Enumerator} :
    e ∈ h.due c ms function argument filter d ↔ e ∈ d.values ∧
      filter.all (·.isMatch e.name) = true ∧
      ¬ ∃ f off, c.MentionedAt h.scope ms function argument e.name f off := by
  rw [due, List.mem_filter, Bool.and_eq_true, Bool.not_eq_true', ← Bool.not_eq_true,
    List.contains_iff_mem, mem_coveredNames_iff]

/-- More files cover more values, so fewer of them are due. -/
theorem due_anti (hc : c.files ⊆ c'.files) :
    (h.due c' ms function argument filter d).Sublist (h.due c ms function argument filter d) := by
  refine List.monotone_filter_right d.values fun e hdue => ?_
  simp only [Bool.and_eq_true, Bool.not_eq_true', ← Bool.not_eq_true, List.contains_iff_mem,
    mem_coveredNames_iff] at hdue ⊢
  refine ⟨hdue.1, ?_⟩
  rintro ⟨f, off, hmention⟩
  exact hdue.2 ⟨f, off, hmention.mono hc⟩

theorem checkCoverage_eq_due {enum : String} {enumScope : FileScope} {file : SourceFile}
    (hfound : EnumDef.firstIn? c enumScope enum ms = some (file, d)) :
    h.checkCoverage c ms enum enumScope function argument filter =
      (h.due c ms function argument filter d).map fun e =>
        h.finding file e.line "coverage" (e.uncovered enum function) := by
  rw [checkCoverage, hfound]
  rfl

theorem due_inOrder {name : String} {file : SourceFile} (hd : EnumDef.find? file name ms = some d) :
    (h.due c ms function argument filter d).Pairwise
      fun e e' => e.name ≠ e'.name ∧ e.line ≤ e'.line :=
  (EnumDef.values_inOrder hd).sublist List.filter_sublist

theorem due_lines {name : String} {file : SourceFile} (hd : EnumDef.find? file name ms = some d) :
    ((h.due c ms function argument filter d).map (·.line)).Pairwise (· ≤ ·) :=
  List.pairwise_map.mpr ((due_inOrder hd).imp And.right)

/-- No two findings say the same, since they name different values. -/
theorem nodup_messages {enum : String} {enumScope : FileScope} {file : SourceFile}
    (hfound : EnumDef.firstIn? c enumScope enum ms = some (file, d)) :
    ((h.checkCoverage c ms enum enumScope function argument filter).map (·.message)).Nodup := by
  obtain ⟨-, hd⟩ := EnumDef.of_firstIn? hfound
  rw [checkCoverage_eq_due hfound, List.map_map]
  refine List.pairwise_map.mpr ((due_inOrder hd).imp ?_)
  intro e e' hne hmessage
  simp only [Function.comp_apply, finding, Finding.withSnippet_message] at hmessage
  exact hne.1 (Enumerator.uncovered_inj hmessage)

theorem checkCoverage_anti {enum : String} {enumScope : FileScope} (hc : c.files ⊆ c'.files)
    (hfirst : EnumDef.firstIn? c' enumScope enum ms = EnumDef.firstIn? c enumScope enum ms) :
    (h.checkCoverage c' ms enum enumScope function argument filter).Sublist
      (h.checkCoverage c ms enum enumScope function argument filter) := by
  cases hfound : EnumDef.firstIn? c enumScope enum ms with
  | none =>
    rw [checkCoverage, checkCoverage, hfirst, hfound]
  | some found =>
    obtain ⟨file, d⟩ := found
    rw [checkCoverage_eq_due hfound, checkCoverage_eq_due (hfirst.trans hfound)]
    exact (due_anti hc).map _

end RuleHead

namespace RuleHead.Follows

variable {h : RuleHead} {s : RuleSpec} {c : Corpus} {ms : Markers} {function : String}
  {argument : Nat} {filter : Option Pattern} {d : EnumDef} {file : SourceFile} {enum : String}
  {enumScope : FileScope}

/-- The findings are about the values that are due, one by one. -/
theorem reports_due (hh : h.Follows s)
    (hfound : EnumDef.firstIn? c enumScope enum ms = some (file, d)) :
    List.Forall₂ (fun v e => v.ReportsValue s enum function file e)
      (h.checkCoverage c ms enum enumScope function argument filter)
      (h.due c ms function argument filter d) := by
  obtain ⟨-, hd⟩ := EnumDef.of_firstIn? hfound
  rw [RuleHead.checkCoverage_eq_due hfound, List.forall₂_map_left_iff, List.forall₂_same]
  intro e he
  have hline := (EnumDef.find?_hasLine hd).2 e (RuleHead.mem_due.mp he).1
  exact ⟨hh.points hline _ _, Finding.withSnippet_check _ _, Finding.withSnippet_message _ _⟩

theorem reports_absence (hh : h.Follows s) {enumFiles : List String} {valueFilter : Option String}
    (hs : s.kind = .enumCoverage enum enumFiles function argument valueFilter)
    (hnone : EnumDef.firstIn? c enumScope enum ms = none) :
    ∀ v ∈ h.checkCoverage c ms enum enumScope function argument filter, v.ReportsAbsence s := by
  intro v hv
  rw [RuleHead.checkCoverage, hnone] at hv
  have hv := Option.mem_toList.mp hv
  rw [hh.onMissing_eq, hh.id_eq] at hv
  exact ⟨h.scope, "enum", enum, hh.compiled, by rw [hs]; rfl, hv⟩

end RuleHead.Follows

/-- **Each uncovered value is reported once, and more files never bring a new report.** Where the
enum is found, the findings are about the values that pass the filter and that no call mentions, in
the order of the declaration, each at its line of the file and none of them twice; where it is not
found, only its absence is reported. A corpus with all files of another one, in which the enum is
read from the same file, has a part of the findings of the other. -/
theorem Rule.coverage_shrinks_as_corpus_grows {s : RuleSpec} {r : Rule} (hr : Rule.ofSpec s = .ok r)
    {enum function : String} {enumFiles : List String} {argument : Nat}
    {valueFilter : Option String}
    (hs : s.kind = .enumCoverage enum enumFiles function argument valueFilter)
    {scope enumScope : FileScope} (hscope : FileScope.compile s.files = .ok scope)
    (henumScope : FileScope.compile enumFiles = .ok enumScope) (ms : Markers) :
    (∀ c : Corpus, ∃ fs, r.check c ms = .found fs ∧
      (EnumDef.firstIn? c enumScope enum ms = none → ∀ v ∈ fs, v.ReportsAbsence s) ∧
      ∀ file d, EnumDef.firstIn? c enumScope enum ms = some (file, d) →
        ∃ due : List Enumerator, due.Sublist d.values ∧
          (∀ e, e ∈ due ↔
            e ∈ d.values ∧ c.Uncovered scope ms function argument valueFilter e) ∧
          List.Forall₂ (fun v e => v.ReportsValue s enum function file e) fs due ∧
          (fs.map (·.message)).Nodup ∧ (due.map (·.line)).Pairwise (· ≤ ·)) ∧
    ∀ c c' : Corpus, c.files ⊆ c'.files →
      (EnumDef.firstIn? c' enumScope enum ms).map (·.1) =
        (EnumDef.firstIn? c enumScope enum ms).map (·.1) →
      ∀ fs fs', r.check c ms = .found fs → r.check c' ms = .found fs' → fs'.Sublist fs := by
  obtain ⟨compiled, hcompiled, hr⟩ := bind_eq_ok.mp hr
  obtain rfl := pure_eq_ok.mp hr
  obtain ⟨hhead, scope', filter, henum, hchecker, hpasses⟩ :=
    CompiledRule.ofSpec_enumCoverage hcompiled hs
  obtain rfl := Except.ok.inj (hscope.symm.trans hhead.compiled)
  obtain rfl := Except.ok.inj (henumScope.symm.trans henum)
  have hcheck : ∀ c, compiled.toRule.check c ms =
      .found (compiled.head.checkCoverage c ms enum enumScope function argument filter) := by
    intro c
    rw [CompiledRule.check_eq_found, CompiledRule.findings, hchecker]
  refine ⟨fun c => ⟨_, hcheck c, hhead.reports_absence hs, ?_⟩, ?_⟩
  · intro file d hfound
    refine ⟨compiled.head.due c ms function argument filter d, List.filter_sublist, fun e => ?_,
      hhead.reports_due hfound, RuleHead.nodup_messages hfound,
      RuleHead.due_lines (EnumDef.of_firstIn? hfound).2⟩
    rw [RuleHead.mem_due, hpasses]
    constructor
    · intro hdue
      obtain ⟨he, hpass, hmention⟩ := hdue
      exact ⟨he, hpass, hmention⟩
    · intro hdue
      obtain ⟨he, hpass, hmention⟩ := hdue
      exact ⟨he, hpass, hmention⟩
  · intro c c' hc hfirst fs fs' hfs hfs'
    obtain rfl := CheckResult.found.inj ((hcheck c).symm.trans hfs)
    obtain rfl := CheckResult.found.inj ((hcheck c').symm.trans hfs')
    exact RuleHead.checkCoverage_anti hc (EnumDef.firstIn?_congr hfirst)

/-- The larger corpus has a macro that passes one of the two values, on an excused line. -/
theorem Rule.coverage_shrinks_by_one_file :
    ∃ (s : RuleSpec) (r : Rule) (scope enumScope : FileScope) (c c' : Corpus)
      (fs fs' : List Finding),
      s.kind = .enumCoverage "E" ["a.h"] "f" 0 none ∧ Rule.ofSpec s = .ok r ∧
        FileScope.compile s.files = .ok scope ∧ FileScope.compile ["a.h"] = .ok enumScope ∧
        c.files ⊆ c'.files ∧
        (EnumDef.firstIn? c' enumScope "E" Markers.standard).map (·.1) =
          (EnumDef.firstIn? c enumScope "E" Markers.standard).map (·.1) ∧
        r.check c Markers.standard = .found fs ∧ r.check c' Markers.standard = .found fs' ∧
        fs.map (·.line) = [some 2, some 3] ∧ fs'.map (·.line) = [some 3] ∧ fs'.Sublist fs := by
  let s : RuleSpec :=
    { id := "R", name := "r", files := ["*.c"], kind := .enumCoverage "E" ["a.h"] "f" 0 none }
  let header : SourceFile := ⟨"a.h", "enum E \x7b\n  A,\n  B,\n\x7d;\n".toList⟩
  let source : SourceFile := ⟨"a.c", "void g(void) \x7b\n  h(B);\n\x7d\n".toList⟩
  let extra : SourceFile := ⟨"b.c", "#define RUN() f(A) // EXCEPTION: once\n".toList⟩
  let c : Corpus := ⟨[source, header], []⟩
  let c' : Corpus := ⟨[source, header, extra], []⟩
  have hscoped : (FileScope.compile s.files).toOption.isSome = true := by decide +kernel
  obtain ⟨scope, hscope⟩ := Option.isSome_iff_exists.mp hscoped
  have hfirst : (FileScope.compile ["a.h"]).toOption.map (fun enumScope =>
      ((EnumDef.firstIn? c' enumScope "E" Markers.standard).map (·.1),
        (EnumDef.firstIn? c enumScope "E" Markers.standard).map (·.1))) =
      some (some header, some header) := by decide +kernel
  obtain ⟨enumScope, henumScope, hfirst⟩ := Option.map_eq_some_iff.mp hfirst
  obtain ⟨hfirst', hfirst⟩ := Prod.mk.inj hfirst
  let v : Finding :=
    { path := "a.h", line := some 2, severity := .fail, ruleId := "R", check := some "coverage"
      message := "E::A is never passed to f()", snippet := some "A," }
  let w : Finding :=
    { v with line := some 3, message := "E::B is never passed to f()", snippet := some "B," }
  have hrun : (Rule.ofSpec s).toOption.map (fun r =>
      (r.check c Markers.standard, r.check c' Markers.standard)) =
      some (.found [v, w], .found [w]) := by decide +kernel
  obtain ⟨r, hr, hrun⟩ := Option.map_eq_some_iff.mp hrun
  obtain ⟨hcheck, hcheck'⟩ := Prod.mk.inj hrun
  obtain ⟨-, hgrow⟩ := Rule.coverage_shrinks_as_corpus_grows (ok_of_toOption hr) rfl
    (ok_of_toOption hscope) (ok_of_toOption henumScope) Markers.standard
  have hfiles : c.files ⊆ c'.files := by simp [c, c']
  have hsame := hfirst'.trans hfirst.symm
  exact ⟨s, r, scope, enumScope, c, c', [v, w], [w], rfl, ok_of_toOption hr, ok_of_toOption hscope,
    ok_of_toOption henumScope, hfiles, hsame, hcheck, hcheck', rfl, rfl,
    hgrow c c' hfiles hsame _ _ hcheck hcheck'⟩

end StructuralRules
