import StructuralRules.Proofs.Rule.LineSites
import StructuralRules.Proofs.Rule.Places
import StructuralRules.Proofs.Source.Arguments

/-!
# Which enumerators are covered

A value of an enum is covered when a call of the watched function mentions it in
the watched argument. Calls are found in the masked text, but what an argument
says is read from the file, so a value that is only named in a comment or a
literal inside a call is covered too. Where every mention is in code, the values
reported are those without a mention in code.
-/

set_option autoImplicit false

namespace StructuralRules

open Text

/-- A call of the function in a file in scope mentions the word in the argument. -/
structure Corpus.MentionedAt (c : Corpus) (scope : FileScope) (ms : Markers) (function : String)
    (argument : Nat) (w : Text) (f : SourceFile) (off : Nat) : Prop where
  inScope : f ∈ c.inScope scope
  call : ∃ call ∈ Call.all f function ms, call.Mentions f.text argument w off

/-- Masking keeps the word at byte `off`. -/
def Text.Kept (t w : Text) (off : Nat) : Prop :=
  slice? t.masked off (off + byteLength w) = some w

/-- The name matches the declared pattern, if one is declared. -/
def Pattern.Passes (filter : Option String) (name : Text) : Prop :=
  ∀ source, filter = some source →
    ∃ p, Pattern.compile source = .ok p ∧ p.isMatch name = true

/-- What is said about a value that no call mentions. -/
def Enumerator.uncovered (enum function : String) (v : Enumerator) : String :=
  enum ++ "::" ++ String.ofList v.name ++ " is never passed to " ++ function ++ "()"

/-- Where a finding is, which check it comes from, and what it says. -/
def Finding.report (v : Finding) : String × Option Nat × Option String × String :=
  (v.path, v.line, v.check, v.message)

namespace RuleHead

variable {h : RuleHead} {c : Corpus} {ms : Markers} {function : String} {argument : Nat}

theorem mem_coveredNames_iff {w : Text} :
    w ∈ h.coveredNames c ms function argument ↔
      ∃ f off, c.MentionedAt h.scope ms function argument w f off := by
  simp only [coveredNames, List.mem_flatMap]
  constructor
  · rintro ⟨f, hf, call, hcall, hw⟩
    split at hw
    · next arg harg =>
      obtain ⟨off, hmention⟩ := (Call.token_of_argument_iff hcall).mp ⟨arg, harg, hw⟩
      exact ⟨f, off, hf, call, hcall, hmention⟩
    · cases hw
  · rintro ⟨f, off, hf, call, hcall, hmention⟩
    obtain ⟨arg, harg, hw⟩ := (Call.token_of_argument_iff hcall).mpr ⟨off, hmention⟩
    refine ⟨f, hf, call, hcall, ?_⟩
    rw [harg]
    exact hw

theorem finding_report (h : RuleHead) (file : SourceFile) (n : Nat) (check message : String) :
    (h.finding file n check message).report = (file.path, some n, some check, message) := by
  simp [Finding.report, finding]

/-- The values reported are those that pass the filter and that no call mentions. -/
theorem checkCoverage_eq_map {enum : String} {enumScope : FileScope} {file : SourceFile}
    {d : EnumDef} (hfound : EnumDef.firstIn? c enumScope enum ms = some (file, d))
    (h : RuleHead) (function : String) (argument : Nat) (filter : Option Pattern) :
    ∃ due : List Enumerator, due.Sublist d.values ∧
      (h.checkCoverage c ms enum enumScope function argument filter).map Finding.report =
        due.map (fun v =>
          (file.path, some v.line, some "coverage", v.uncovered enum function)) ∧
      ∀ v ∈ d.values, v ∈ due ↔ filter.all (·.isMatch v.name) = true ∧
        ¬ ∃ f off, c.MentionedAt h.scope ms function argument v.name f off := by
  refine ⟨d.values.filter fun v => filter.all (·.isMatch v.name) &&
    !(h.coveredNames c ms function argument).contains v.name, List.filter_sublist, ?_, ?_⟩
  · rw [checkCoverage, hfound]
    simp only [List.map_map]
    refine List.map_congr_left fun v _ => ?_
    exact finding_report h file v.line "coverage" _
  · intro v hv
    rw [List.mem_filter, Bool.and_eq_true, Bool.not_eq_true', ← Bool.not_eq_true,
      List.contains_iff_mem, mem_coveredNames_iff]
    exact and_iff_right hv

end RuleHead

/-- What a declared rule about the values of an enum compiles to. -/
theorem CompiledRule.ofSpec_enumCoverage {s : RuleSpec} {r : CompiledRule} (hr : ofSpec s = .ok r)
    {enum function : String} {enumFiles : List String} {argument : Nat}
    {valueFilter : Option String}
    (hs : s.kind = .enumCoverage enum enumFiles function argument valueFilter) :
    r.head.Follows s ∧ ∃ enumScope filter, FileScope.compile enumFiles = .ok enumScope ∧
      r.checker = .enumCoverage enum enumScope function argument filter ∧
      ∀ name, filter.all (·.isMatch name) = true ↔ Pattern.Passes valueFilter name := by
  obtain ⟨head, hhead, hr⟩ := bind_eq_ok.mp hr
  obtain ⟨checker, hchecker, hr⟩ := bind_eq_ok.mp hr
  obtain rfl := pure_eq_ok.mp hr
  rw [hs] at hchecker
  obtain ⟨enumScope, hscope, hchecker⟩ := bind_eq_ok.mp hchecker
  obtain ⟨filter, hfilter, hchecker⟩ := bind_eq_ok.mp hchecker
  obtain rfl := pure_eq_ok.mp hchecker
  refine ⟨RuleHead.ofSpec_follows hhead, enumScope, filter, mapError_eq_ok.mp hscope, rfl, ?_⟩
  intro name
  cases valueFilter with
  | none =>
    obtain rfl : none = filter := pure_eq_ok.mp hfilter
    simp [Pattern.Passes]
  | some source =>
    obtain ⟨p, hp, rfl⟩ := map_eq_ok.mp hfilter
    have hp := mapError_eq_ok.mp hp
    simp [Pattern.Passes, hp]

/-- **A value is reported when no call mentions it at all.** The mention may stand in code, in a
comment or in a literal between the ends of the argument. So no reported value has a mention in
code, and a value all of whose mentions are in code is reported just when it has none. -/
theorem Rule.coverage_reports_unmentioned {s : RuleSpec} {r : Rule} (hr : Rule.ofSpec s = .ok r)
    {enum function : String} {enumFiles : List String} {argument : Nat}
    {valueFilter : Option String}
    (hs : s.kind = .enumCoverage enum enumFiles function argument valueFilter)
    {scope enumScope : FileScope} (hscope : FileScope.compile s.files = .ok scope)
    (henumScope : FileScope.compile enumFiles = .ok enumScope) {c : Corpus} {ms : Markers}
    {file : SourceFile} {d : EnumDef}
    (hfound : EnumDef.firstIn? c enumScope enum ms = some (file, d)) :
    ∃ (due : List Enumerator) (fs : List Finding), r.check c ms = .found fs ∧
      due.Sublist d.values ∧
      fs.map Finding.report =
        due.map (fun v =>
          (file.path, some v.line, some "coverage", v.uncovered enum function)) ∧
      ∀ v ∈ d.values, Pattern.Passes valueFilter v.name →
        let mentioned := c.MentionedAt scope ms function argument v.name
        (v ∈ due ↔ ¬ ∃ f off, mentioned f off) ∧
        (v ∈ due → ¬ ∃ f off, mentioned f off ∧ f.text.Kept v.name off) ∧
        ((∀ f off, mentioned f off → f.text.Kept v.name off) →
          (v ∈ due ↔ ¬ ∃ f off, mentioned f off ∧ f.text.Kept v.name off)) := by
  obtain ⟨compiled, hcompiled, hr⟩ := bind_eq_ok.mp hr
  obtain rfl := pure_eq_ok.mp hr
  obtain ⟨hhead, scope', filter, henum, hchecker, hpasses⟩ :=
    CompiledRule.ofSpec_enumCoverage hcompiled hs
  obtain rfl := Except.ok.inj (hscope.symm.trans hhead.compiled)
  obtain rfl := Except.ok.inj (henumScope.symm.trans henum)
  have hfindings : compiled.findings c ms =
      .ok (compiled.head.checkCoverage c ms enum enumScope function argument filter) := by
    rw [CompiledRule.findings, hchecker]
  obtain ⟨due, hdue, hreports, hmem⟩ :=
    RuleHead.checkCoverage_eq_map hfound compiled.head function argument filter
  refine ⟨due, _, CompiledRule.check_eq_found.mpr hfindings, hdue, hreports, ?_⟩
  intro v hv hpass mentioned
  have hiff : v ∈ due ↔ ¬ ∃ f off, mentioned f off := by
    rw [hmem v hv, hpasses]
    exact and_iff_right hpass
  refine ⟨hiff, ?_, ?_⟩
  · rintro hreported ⟨f, off, hmention, -⟩
    exact hiff.mp hreported ⟨f, off, hmention⟩
  · intro hkept
    rw [hiff]
    refine not_congr ⟨?_, ?_⟩
    · rintro ⟨f, off, hmention⟩
      exact ⟨f, off, hmention, hkept f off hmention⟩
    · rintro ⟨f, off, hmention, -⟩
      exact ⟨f, off, hmention⟩

/-- Neither the call in the comment nor the one in the literal covers the first value. -/
theorem Rule.commented_out_calls_do_not_cover :
    ∃ (s : RuleSpec) (r : Rule) (c : Corpus) (scope enumScope : FileScope) (file : SourceFile)
      (d : EnumDef) (fs : List Finding),
      s.kind = .enumCoverage "E" ["a.h"] "f" 0 none ∧ Rule.ofSpec s = .ok r ∧
        FileScope.compile s.files = .ok scope ∧ FileScope.compile ["a.h"] = .ok enumScope ∧
        EnumDef.firstIn? c enumScope "E" [] = some (file, d) ∧ r.check c [] = .found fs ∧
        fs.map Finding.report =
          [("a.h", some 2, some "coverage", "E::A is never passed to f()")] := by
  let s : RuleSpec :=
    { id := "R", name := "r", files := ["a.c"], kind := .enumCoverage "E" ["a.h"] "f" 0 none }
  let header : SourceFile := ⟨"a.h", "enum E \x7b\n  A,\n  B,\n\x7d;\n".toList⟩
  let source : SourceFile :=
    ⟨"a.c", "void g(void) \x7b\n  f(B);\n  /* f(A); */\n  puts(\"f(A)\");\n\x7d\n".toList⟩
  let c : Corpus := ⟨[source, header], []⟩
  let d : EnumDef :=
    ⟨"E", 1, 4, "enum E \x7b\n  A,\n  B,\n\x7d".toList, [⟨['A'], 2⟩, ⟨['B'], 3⟩]⟩
  let call : Call := ⟨"f", 2, 17, [['B']], .code⟩
  have hcompiled : (Rule.ofSpec s).toOption.isSome = true := by decide +kernel
  obtain ⟨r, hr⟩ := Option.isSome_iff_exists.mp hcompiled
  have hr := ok_of_toOption hr
  have hscoped : (FileScope.compile s.files).toOption.map c.inScope = some [source] := by
    decide +kernel
  obtain ⟨scope, hscope, hfiles⟩ := Option.map_eq_some_iff.mp hscoped
  have henum : (FileScope.compile ["a.h"]).toOption.map (EnumDef.firstIn? c · "E" []) =
      some (some (header, d)) := by decide +kernel
  obtain ⟨enumScope, henumScope, hfound⟩ := Option.map_eq_some_iff.mp henum
  have hcalls : Call.all source "f" [] = [call] := by decide +kernel
  obtain ⟨due, fs, hcheck, hdue, hreports, hmem⟩ :=
    Rule.coverage_reports_unmentioned hr rfl (ok_of_toOption hscope) (ok_of_toOption henumScope)
      hfound
  -- The one call passes the second value and nothing else.
  have hmentioned : ∀ w, (∃ f off, c.MentionedAt scope [] "f" 0 w f off) ↔ w = ['B'] := by
    intro w
    have htokens : tokens ['B'] = [['B']] := by decide +kernel
    constructor
    · rintro ⟨f, off, hf, call', hcall', hmention⟩
      rw [hfiles, List.mem_singleton] at hf
      subst hf
      obtain ⟨arg, harg, hw⟩ := (Call.token_of_argument_iff hcall').mpr ⟨off, hmention⟩
      rw [hcalls, List.mem_singleton] at hcall'
      subst hcall'
      rw [← Option.some.inj harg, htokens] at hw
      exact List.mem_singleton.mp hw
    · rintro rfl
      have hcall : call ∈ Call.all source "f" [] := by simp [hcalls]
      obtain ⟨off, hmention⟩ := (Call.token_of_argument_iff (k := 0) (w := ['B']) hcall).mp
        ⟨['B'], rfl, by simp [htokens]⟩
      exact ⟨source, off, by simp [hfiles], call, hcall, hmention⟩
  refine ⟨s, r, c, scope, enumScope, header, d, fs, rfl, hr, ok_of_toOption hscope,
    ok_of_toOption henumScope, hfound, hcheck, ?_⟩
  have hpasses : ∀ name, Pattern.Passes none name := by
    rintro name source ⟨⟩
  have hreported : ∀ v ∈ d.values, (v ∈ due ↔ v.name ≠ ['B']) := by
    intro v hv
    rw [(hmem v hv (hpasses v.name)).1, hmentioned]
  have hlist : due = [⟨['A'], 2⟩] := by
    have hfirst := (hreported ⟨['A'], 2⟩ (by simp [d])).mpr (by decide)
    have hsecond := mt (hreported ⟨['B'], 3⟩ (by simp [d])).mp (by simp)
    rcases List.sublist_cons_iff.mp hdue with h | ⟨rest, rfl, h⟩
    · simpa using h.subset hfirst
    · rcases List.sublist_cons_iff.mp h with h | ⟨rest', rfl, h⟩
      · rw [List.sublist_nil.mp h]
      · simp at hsecond
  rw [hreports, hlist]
  rfl

/-- The value is named in a comment inside a call and nowhere in code. The rule takes the comment
for a mention and reports nothing. -/
theorem Rule.comment_in_call_covers :
    ∃ (s : RuleSpec) (r : Rule) (c : Corpus) (scope enumScope : FileScope) (file : SourceFile)
      (d : EnumDef) (v : Enumerator),
      s.kind = .enumCoverage "E" ["a.h"] "f" 0 none ∧ Rule.ofSpec s = .ok r ∧
        FileScope.compile s.files = .ok scope ∧ FileScope.compile ["a.h"] = .ok enumScope ∧
        EnumDef.firstIn? c enumScope "E" Markers.standard = some (file, d) ∧
        v ∈ d.values ∧ Pattern.Passes none v.name ∧
        (∀ f off, c.MentionedAt scope Markers.standard "f" 0 v.name f off →
          ¬ f.text.Kept v.name off) ∧
        r.check c Markers.standard = .found [] := by
  let s : RuleSpec :=
    { id := "R", name := "r", files := ["a.c"], kind := .enumCoverage "E" ["a.h"] "f" 0 none }
  let header : SourceFile := ⟨"a.h", "enum E \x7b\n  A,\n  B,\n\x7d;\n".toList⟩
  let source : SourceFile :=
    ⟨"a.c", "void g(void) \x7b\n  f(B /* was A */);\n\x7d\n".toList⟩
  let c : Corpus := ⟨[source, header], []⟩
  let d : EnumDef :=
    ⟨"E", 1, 4, "enum E \x7b\n  A,\n  B,\n\x7d".toList, [⟨['A'], 2⟩, ⟨['B'], 3⟩]⟩
  have hrun : (Rule.ofSpec s).toOption.map (·.check c Markers.standard) = some (.found []) := by
    decide +kernel
  obtain ⟨r, hr, hcheck⟩ := Option.map_eq_some_iff.mp hrun
  have hscoped : (FileScope.compile s.files).toOption.map c.inScope = some [source] := by
    decide +kernel
  obtain ⟨scope, hscope, hfiles⟩ := Option.map_eq_some_iff.mp hscoped
  have henum : (FileScope.compile ["a.h"]).toOption.map
      (EnumDef.firstIn? c · "E" Markers.standard) = some (some (header, d)) := by decide +kernel
  obtain ⟨enumScope, henumScope, hfound⟩ := Option.map_eq_some_iff.mp henum
  have hmasked : 'A' ∉ source.text.masked := by decide +kernel
  refine ⟨s, r, c, scope, enumScope, header, d, ⟨['A'], 2⟩, rfl, ok_of_toOption hr,
    ok_of_toOption hscope, ok_of_toOption henumScope, hfound, by simp [d], ?_, ?_, hcheck⟩
  · rintro name ⟨⟩
  · rintro f off ⟨hf, -⟩ hkept
    rw [hfiles, List.mem_singleton] at hf
    subst hf
    obtain ⟨p, q, htext, -, -⟩ := slice?_eq_some.mp hkept
    apply hmasked
    rw [htext]
    simp

end StructuralRules
