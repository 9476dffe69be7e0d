import Mathlib.Data.List.Flatten
import StructuralRules.Proofs.Rule.LineSites
import StructuralRules.Proofs.Source.Shapes

/-!
# What markers excuse

More markers turn code into excused lines and change no other class. Rules about
lines and rules about pairs of calls report code only, so more markers take
findings away; a pair may then be reported at a later call. The other kinds do
not look at the class of a line that they report: their findings are the same for
all markers.
-/

set_option autoImplicit false

namespace StructuralRules

open Text

/-! ## Rules about lines -/

theorem SourceFile.excused_codeRow {ms ms' : Markers} (h : ms ⊆ ms') (f : SourceFile) (n : Nat) :
    LineClass.Excused (f.codeRow ms n).lineClass (f.codeRow ms' n).lineClass :=
  LineClass.excused_getD (f.excused_classes h) (n - 1)

/-- The class that is looked up for a line is its class. -/
theorem SourceFile.classes_eq_some_code {f : SourceFile} {ms : Markers} {n : Nat}
    (hline : f.HasLine n) (h : (((f.classes ms)[n - 1]?).getD .code).isCode = true) :
    (f.classes ms)[n - 1]? = some .code := by
  obtain ⟨cls, hcls⟩ := f.classes_getElem? ms hline
  rw [hcls, Option.getD_some] at h
  rw [hcls, eq_of_beq h]

/-- The finding is about a line of class code in a file of the corpus. -/
def Finding.AtCode (v : Finding) (c : Corpus) (ms : Markers) : Prop :=
  ∀ n, v.line = some n → ∃ f ∈ c.files, f.path = v.path ∧ (f.classes ms)[n - 1]? = some .code

namespace SiteRule

variable {ms ms' : Markers}

/-- An excused line still is part of the surroundings of a place. -/
theorem withContext_markers (h : ms ⊆ ms') (q : SiteRule) (file : SourceFile)
    (region : Option Region) :
    q.withContext (file.codeRows ms') region = q.withContext (file.codeRows ms) region := by
  funext s
  have hexecutable : ∀ n, (file.codeRow ms' n).lineClass.isExecutable =
      (file.codeRow ms n).lineClass.isExecutable :=
    fun n => (file.excused_codeRow h n).isExecutable_eq
  simp only [withContext, SourceFile.codeRows_eq_map, List.filter_map, List.map_map,
    Function.comp_def, hexecutable]
  rfl

theorem lineSites_sublist (h : ms ⊆ ms') (q : SiteRule) (p : Pattern) (file : SourceFile)
    (region : Option Region) :
    (q.lineSites p ms' file region).Sublist (q.lineSites p ms file region) := by
  have hcode : ∀ n, (inRegion region n && (file.codeRow ms' n).lineClass.isCode) = true →
      (inRegion region n && (file.codeRow ms n).lineClass.isCode) = true := by
    intro n hn
    obtain ⟨hregion, hcls⟩ := Bool.and_eq_true_iff.mp hn
    exact Bool.and_eq_true_iff.mpr ⟨hregion, (file.excused_codeRow h n).isCode_of_isCode hcls⟩
  unfold lineSites
  rw [withContext_markers h]
  simp only [SourceFile.codeRows_eq_map, List.filter_map, List.filterMap_map]
  -- The place of a row does not depend on its class.
  exact ((List.monotone_filter_right _ hcode).filterMap _).map _

theorem reportedIn_sublist (h : ms ⊆ ms') (q : SiteRule) (p : Pattern) (file : SourceFile) :
    (q.reportedIn p ms' file).Sublist (q.reportedIn p ms file) := by
  unfold reportedIn
  cases q.region? file with
  | none => exact .slnil
  | some region => exact (lineSites_sublist h q p file region).filter _

theorem found_sublist (h : ms ⊆ ms') {q : SiteRule} {p : Pattern} (hq : q.locator = .lines p)
    (c : Corpus) : (q.found c ms').Sublist (q.found c ms) := by
  rw [found_lines hq, found_lines hq]
  refine List.Sublist.append (List.Sublist.map _ ?_) (.refl _)
  exact List.Sublist.flatMap_right _ fun f _ => reportedIn_sublist h q p f

theorem found_atCode {q : SiteRule} {p : Pattern} (hq : q.ReadsLines p) {c : Corpus}
    {v : Finding} (hv : v ∈ q.found c ms) : v.AtCode c ms := by
  intro n hn
  have hline := (exists_mem_found_iff hq).mp ⟨v, hv, rfl, hn⟩
  obtain ⟨f, hf, hpath, hreports⟩ := mem_reportedLines.mp hline
  exact ⟨f, (Corpus.mem_inScope.mp hf).1, hpath, Pattern.code_of_hits (hits_of_reports hreports)⟩

end SiteRule

/-! ## Pairs of calls -/

/-- A finding without its line. -/
def Finding.gist (v : Finding) : String × Option String × String × Severity :=
  (v.path, v.check, v.message, v.severity)

/-- With more markers fewer calls are code. -/
theorem Call.exists_code_of_excused {calls calls' : List Call}
    (h : List.Forall₂ Excused calls calls') {call' : Call}
    (hcall : calls'.find? (·.lineClass.isCode) = some call') :
    ∃ call, calls.find? (·.lineClass.isCode) = some call := by
  induction h with
  | nil => cases hcall
  | @cons a a' calls calls' ha _ ih =>
    rw [List.find?_cons] at hcall ⊢
    cases hcode : a.lineClass.isCode with
    | true => exact ⟨a, rfl⟩
    | false =>
      cases hcode' : a'.lineClass.isCode with
      | true =>
        rw [ha.lineClass.isCode_of_isCode hcode'] at hcode
        cases hcode
      | false =>
        rw [hcode'] at hcall
        exact ih hcall

theorem filterMap_sublist_filterMap {α β : Type} {g g' : α → Option β}
    (h : ∀ a b, g' a = some b → g a = some b) (l : List α) :
    (l.filterMap g').Sublist (l.filterMap g) := by
  induction l with
  | nil => exact .slnil
  | cons a l ih =>
    rw [List.filterMap_cons, List.filterMap_cons]
    cases ha' : g' a with
    | none =>
      cases g a with
      | none => exact ih
      | some b => exact ih.cons b
    | some b =>
      rw [h a b ha']
      exact ih.cons_cons b

namespace RuleHead

variable {ms ms' : Markers}

theorem gist_finding (h : RuleHead) (file : SourceFile) (n : Nat) (check message : String) :
    (h.finding file n check message).gist = (file.path, some check, message, h.severity) := by
  simp [Finding.gist, finding]

/-- Without the line a report of a pair says which pair it is. -/
theorem checkPair_gist (hms : ms ⊆ ms') (h : RuleHead) (file : SourceFile) (p : CallPair)
    {g : String × Option String × String × Severity}
    (hg : (h.checkPair file ms' p).map Finding.gist = some g) :
    (h.checkPair file ms p).map Finding.gist = some g := by
  unfold checkPair at hg ⊢
  have hopening := Call.excused_all hms file p.opening
  have hclosing : (Call.all file p.closing ms').isEmpty = (Call.all file p.closing ms).isEmpty := by
    rw [Bool.eq_iff_iff, List.isEmpty_iff_length_eq_zero, List.isEmpty_iff_length_eq_zero,
      (Call.excused_all hms file p.closing).length_eq]
  cases hcall' : (Call.all file p.opening ms').find? (·.lineClass.isCode) with
  | none => simp [hcall'] at hg
  | some call' =>
    obtain ⟨call, hcall⟩ := Call.exists_code_of_excused hopening hcall'
    simp only [hcall', hcall, hclosing, Option.bind_eq_bind, Option.bind_some] at hg ⊢
    split_ifs at hg ⊢ with hempty
    · simpa only [Option.map_some, gist_finding] using hg
    · cases hg

theorem checkPairs_gist (hms : ms ⊆ ms') (h : RuleHead) (c : Corpus) (pairs : List CallPair) :
    ((h.checkPairs c ms' pairs).map Finding.gist).Sublist
      ((h.checkPairs c ms pairs).map Finding.gist) := by
  unfold checkPairs
  rw [List.map_flatMap, List.map_flatMap]
  refine List.Sublist.flatMap_right _ fun f _ => ?_
  rw [List.map_filterMap, List.map_filterMap]
  exact filterMap_sublist_filterMap (fun p _ => checkPair_gist hms h f p) pairs

theorem checkPairs_atCode {h : RuleHead} {c : Corpus} {pairs : List CallPair} {v : Finding}
    (hv : v ∈ h.checkPairs c ms pairs) : v.AtCode c ms := by
  intro n hn
  obtain ⟨f, hf, hv⟩ := List.mem_flatMap.mp hv
  obtain ⟨p, -, hv⟩ := List.mem_filterMap.mp hv
  obtain ⟨call, hcall, hv⟩ := Option.bind_eq_some_iff.mp hv
  split_ifs at hv
  obtain rfl := Option.some.inj hv
  obtain rfl : call.line = n := by simpa [finding] using hn
  have hmem := List.mem_of_find?_eq_some hcall
  have hcode := List.find?_some hcall
  refine ⟨f, (Corpus.mem_inScope.mp hf).1, by simp [finding], ?_⟩
  refine SourceFile.classes_eq_some_code (Call.all_hasLine hmem) ?_
  rw [← Call.lineClass_of_mem_all hmem]
  exact hcode

/-! ## Rules about members and bodies -/

theorem coveredNames_markers (h : RuleHead) (c : Corpus) (ms ms' : Markers) (function : String)
    (argument : Nat) :
    h.coveredNames c ms function argument = h.coveredNames c ms' function argument := by
  have hbare : ∀ ms : Markers,
      h.coveredNames c [] function argument = h.coveredNames c ms function argument := by
    intro ms
    unfold coveredNames
    refine List.flatMap_congr fun f _ => ?_
    refine flatMap_eq_of_forall₂ (Call.excused_all (List.nil_subset ms) f function) ?_
    intro call call' hcall
    have hargs : call'.args = call.args := by rw [hcall.eq]
    rw [hargs]
  rw [← hbare ms, hbare ms']

theorem checkCoverage_markers (h : RuleHead) (c : Corpus) (ms ms' : Markers) (enum : String)
    (scope : FileScope) (function : String) (argument : Nat) (filter : Option Pattern) :
    h.checkCoverage c ms enum scope function argument filter =
      h.checkCoverage c ms' enum scope function argument filter := by
  have hfirst : EnumDef.firstIn? c scope enum ms = EnumDef.firstIn? c scope enum ms' := by
    simp only [EnumDef.firstIn?, EnumDef.find?_markers _ enum ms ms']
  simp only [checkCoverage, hfirst, coveredNames_markers h c ms ms']

theorem checkField_markers (h : RuleHead) (c : Corpus) (ms ms' : Markers)
    (struct field : String) (type : Option String) :
    h.checkField c ms struct field type = h.checkField c ms' struct field type := by
  have hfirst : ∀ files, StructDef.firstOf? struct ms files =
      StructDef.firstOf? struct ms' files := by
    intro files
    induction files with
    | nil => rfl
    | cons f files ih =>
      rw [StructDef.firstOf?, StructDef.firstOf?, StructDef.find?_markers f struct ms ms', ih]
  rw [checkField, checkField, hfirst]

end RuleHead

namespace CompiledRule

variable {kind : RuleKind} {checker : Checker}

/-- Rules of three kinds find the same for all markers. -/
theorem findings_markers (hc : Checker.Compiled kind checker)
    (hk : kind.name ∈ ["enum-coverage", "struct-field", "function-body"]) (head : RuleHead)
    (c : Corpus) (ms ms' : Markers) :
    findings ⟨head, checker⟩ c ms = findings ⟨head, checker⟩ c ms' := by
  cases hc with
  | forbidden => simp [RuleKind.name] at hk
  | window => simp [RuleKind.name] at hk
  | pairedCalls => simp [RuleKind.name] at hk
  | enumCoverage enum files function argument source scope filter =>
    exact congrArg Except.ok
      (head.checkCoverage_markers c ms ms' enum scope function argument filter)
  | functionBody => rfl
  | structField struct field type => exact head.checkField_markers c ms ms' struct field type

theorem sites_atCode {head : RuleHead} {rules : List SiteRule}
    (reads : ∀ q ∈ rules, ∃ p, q.ReadsLines p) {c : Corpus} {ms : Markers} {fs : List Finding}
    (h : findings ⟨head, .sites rules⟩ c ms = .ok fs) : ∀ v ∈ fs, v.AtCode c ms := by
  rw [findings_sites head reads] at h
  obtain rfl := Except.ok.inj h
  intro v hv
  obtain ⟨q, hq, hv⟩ := List.mem_flatMap.mp hv
  obtain ⟨p, hp⟩ := reads q hq
  exact SiteRule.found_atCode hp hv

theorem sites_sublist (head : RuleHead) {rules : List SiteRule}
    (reads : ∀ q ∈ rules, ∃ p, q.ReadsLines p) (c : Corpus) {ms ms' : Markers} (h : ms ⊆ ms') :
    ∃ fs fs', findings ⟨head, .sites rules⟩ c ms = .ok fs ∧
      findings ⟨head, .sites rules⟩ c ms' = .ok fs' ∧ fs'.Sublist fs := by
  refine ⟨_, _, findings_sites head reads c ms, findings_sites head reads c ms', ?_⟩
  refine List.Sublist.flatMap_right _ fun q hq => ?_
  obtain ⟨p, hp⟩ := reads q hq
  exact SiteRule.found_sublist h hp.locator_eq c

/-- Rules of the other three kinds look at the class of the line that they report. -/
theorem findings_atCode (hc : Checker.Compiled kind checker)
    (hk : kind.name ∈ ["forbidden", "window", "paired-calls"]) {head : RuleHead} {c : Corpus}
    {ms : Markers} {fs : List Finding} (h : findings ⟨head, checker⟩ c ms = .ok fs) :
    ∀ v ∈ fs, v.AtCode c ms := by
  cases hc with
  | forbidden patterns reads => exact sites_atCode reads h
  | window function anchor required before after message reads => exact sites_atCode reads h
  | enumCoverage => simp [RuleKind.name] at hk
  | functionBody => simp [RuleKind.name] at hk
  | structField => simp [RuleKind.name] at hk
  | pairedCalls pairs =>
    obtain rfl := Except.ok.inj h
    exact fun v hv => RuleHead.checkPairs_atCode hv

/-- With more markers they find less. -/
theorem findings_sublist (hc : Checker.Compiled kind checker)
    (hk : kind.name ∈ ["forbidden", "window", "paired-calls"]) (head : RuleHead) (c : Corpus)
    {ms ms' : Markers} (h : ms ⊆ ms') :
    ∃ fs fs', findings ⟨head, checker⟩ c ms = .ok fs ∧ findings ⟨head, checker⟩ c ms' = .ok fs' ∧
      (fs'.map Finding.gist).Sublist (fs.map Finding.gist) ∧
      (kind.name ≠ "paired-calls" → fs'.Sublist fs) := by
  cases hc with
  | forbidden patterns reads =>
    obtain ⟨fs, fs', hfs, hfs', hsub⟩ := sites_sublist head reads c h
    exact ⟨fs, fs', hfs, hfs', hsub.map _, fun _ => hsub⟩
  | window function anchor required before after message reads =>
    obtain ⟨fs, fs', hfs, hfs', hsub⟩ := sites_sublist head reads c h
    exact ⟨fs, fs', hfs, hfs', hsub.map _, fun _ => hsub⟩
  | enumCoverage => simp [RuleKind.name] at hk
  | functionBody => simp [RuleKind.name] at hk
  | structField => simp [RuleKind.name] at hk
  | pairedCalls pairs =>
    exact ⟨_, _, rfl, rfl, head.checkPairs_gist h c pairs, fun hne => absurd rfl hne⟩

end CompiledRule

theorem RuleKind.name_cases (k : RuleKind) :
    k.name ∈ ["forbidden", "window", "paired-calls"] ∨
      k.name ∈ ["enum-coverage", "struct-field", "function-body"] := by
  cases k <;> simp [name]

/-! ## Main statements -/

namespace Rule

variable {s : RuleSpec} {r : Rule}

/-- **More markers never add a finding.** Each path, check, message and severity that is
reported with more markers is reported with fewer, and except for pairs of calls so is the
whole finding. Three kinds of rules find the same. -/
theorem more_markers_find_less (hr : ofSpec s = .ok r) {ms ms' : Markers} (h : ms ⊆ ms')
    (c : Corpus) :
    (∀ fs', r.check c ms' = .found fs' → ∃ fs, r.check c ms = .found fs ∧
      (fs'.map Finding.gist).Sublist (fs.map Finding.gist) ∧
      (s.kind.name ≠ "paired-calls" → fs'.Sublist fs) ∧
      (s.kind.name ∈ ["enum-coverage", "struct-field", "function-body"] → fs' = fs)) ∧
    ∀ fs, r.check c ms = .found fs → ∃ fs', r.check c ms' = .found fs' := by
  obtain ⟨compiled, hcompiled, hr⟩ := bind_eq_ok.mp hr
  obtain rfl := pure_eq_ok.mp hr
  have hc := CompiledRule.ofSpec_compiled hcompiled
  simp only [CompiledRule.check_eq_found]
  rcases s.kind.name_cases with hk | hk
  · obtain ⟨fs, fs', hfs, hfs', hgist, hsub⟩ :=
      CompiledRule.findings_sublist hc hk compiled.head c h
    have hother : s.kind.name ∉ ["enum-coverage", "struct-field", "function-body"] := by
      intro hk'
      cases hkind : s.kind <;> simp [hkind, RuleKind.name] at hk hk'
    refine ⟨fun found hfound => ⟨fs, hfs, ?_⟩, fun _ _ => ⟨fs', hfs'⟩⟩
    obtain rfl := Except.ok.inj (hfs'.symm.trans hfound)
    exact ⟨hgist, hsub, fun hk' => absurd hk' hother⟩
  · have hsame := CompiledRule.findings_markers hc hk compiled.head c ms ms'
    refine ⟨fun fs' hfs' => ⟨fs', hsame.trans hfs', .refl _, fun _ => .refl _, fun _ => rfl⟩, ?_⟩
    exact fun fs hfs => ⟨fs, hsame.symm.trans hfs⟩

/-- With the marker the first call of the pair is excused, and the report moves to the last. -/
theorem more_markers_move_pair :
    ∃ (s : RuleSpec) (r : Rule) (c : Corpus) (fs fs' : List Finding),
      ofSpec s = .ok r ∧ r.check c ["KEEP"] = .found fs' ∧ r.check c [] = .found fs ∧
        fs.map (·.line) = [some 1] ∧ fs'.map (·.line) = [some 3] ∧
        (fs'.map Finding.gist).Sublist (fs.map Finding.gist) := by
  let s : RuleSpec :=
    { id := "R", name := "r", files := ["a.c"], kind := .pairedCalls [⟨"lock", "unlock"⟩] }
  let c : Corpus := ⟨[⟨"a.c", "lock(a); // KEEP\nx = 1;\nlock(b);\n".toList⟩], []⟩
  have hrun : (ofSpec s).toOption.map (·.check c ["KEEP"]) = some (.found
      [{ path := "a.c", line := some 3, severity := .fail, ruleId := "R", check := some "lock",
         message := "lock() is called without a matching unlock()",
         snippet := some "lock(b);" }]) := by decide +kernel
  have hrun' : (ofSpec s).toOption.map (·.check c []) = some (.found
      [{ path := "a.c", line := some 1, severity := .fail, ruleId := "R", check := some "lock",
         message := "lock() is called without a matching unlock()",
         snippet := some "lock(a); // KEEP" }]) := by decide +kernel
  obtain ⟨r, hr, hcheck⟩ := Option.map_eq_some_iff.mp hrun
  rw [hr] at hrun'
  have hr : ofSpec s = .ok r := ok_of_toOption hr
  obtain ⟨fs, hfs, hgist, -⟩ := (more_markers_find_less hr (List.nil_subset ["KEEP"]) c).1 _ hcheck
  obtain rfl := CheckResult.found.inj (hfs.symm.trans (Option.some.inj hrun'))
  exact ⟨s, r, c, _, _, hr, hcheck, hfs, rfl, rfl, hgist⟩

/-- **Rules about lines and about pairs of calls report code lines only.** The findings of all
other rules are the same for all markers. -/
theorem findings_at_code_or_unmarked (hr : ofSpec s = .ok r) {c : Corpus} {ms : Markers}
    {fs : List Finding} (h : r.check c ms = .found fs) :
    (s.kind.name ∈ ["forbidden", "window", "paired-calls"] →
      ∀ v ∈ fs, ∀ n, v.line = some n →
        ∃ f ∈ c.files, f.path = v.path ∧ (f.classes ms)[n - 1]? = some .code) ∧
    (s.kind.name ∈ ["enum-coverage", "struct-field", "function-body"] →
      ∀ ms', r.check c ms' = .found fs) := by
  obtain ⟨compiled, hcompiled, hr⟩ := bind_eq_ok.mp hr
  obtain rfl := pure_eq_ok.mp hr
  have hc := CompiledRule.ofSpec_compiled hcompiled
  have hfs := CompiledRule.check_eq_found.mp h
  refine ⟨fun hk => CompiledRule.findings_atCode hc hk hfs, fun hk ms' => ?_⟩
  exact CompiledRule.check_eq_found.mpr
    ((CompiledRule.findings_markers hc hk compiled.head c ms' ms).trans hfs)

/-- Of three lines that call the function one is code. -/
theorem one_of_three_lines_reported :
    ∃ (s : RuleSpec) (r : Rule) (c : Corpus) (fs : List Finding) (f : SourceFile),
      ofSpec s = .ok r ∧ r.check c Markers.standard = .found fs ∧
        fs.map (·.line) = [some 1] ∧ f ∈ c.files ∧
        f.classes Markers.standard = [.code, .exceptionMarked, .exceptionMarked] ∧
        (f.classes Markers.standard)[1 - 1]? = some .code := by
  let s : RuleSpec :=
    { id := "R", name := "r", files := ["a.c"], kind := .forbidden [⟨"gets", "no"⟩] }
  let f : SourceFile := ⟨"a.c", "gets(a);\ngets(b); // FFI: kept\ngets(c);\n".toList⟩
  let c : Corpus := ⟨[f], []⟩
  have hrun : (ofSpec s).toOption.map (·.check c Markers.standard) = some (.found
      [{ path := "a.c", line := some 1, severity := .fail, ruleId := "R", message := "no",
         snippet := some "gets(a);" }]) := by decide +kernel
  obtain ⟨r, hr, hcheck⟩ := Option.map_eq_some_iff.mp hrun
  have hr : ofSpec s = .ok r := ok_of_toOption hr
  obtain ⟨f', hf', -, hcode⟩ := (findings_at_code_or_unmarked hr hcheck).1 (by decide) _
    List.mem_cons_self 1 rfl
  obtain rfl := List.mem_singleton.mp hf'
  exact ⟨s, r, c, _, f, hr, hcheck, rfl, hf', by decide +kernel, hcode⟩

/-- An enumerator that no call covers is reported although its line is excused. -/
theorem excused_enumerator_reported :
    ∃ (s : RuleSpec) (r : Rule) (c : Corpus) (fs : List Finding) (f : SourceFile),
      ofSpec s = .ok r ∧ r.check c Markers.standard = .found fs ∧
        fs.map (·.line) = [some 2] ∧ c.files = [f] ∧
        (f.classes Markers.standard)[2 - 1]? = some .exceptionMarked := by
  let s : RuleSpec :=
    { id := "R", name := "r", kind := .enumCoverage "E" ["a.h"] "f" 0 none }
  let f : SourceFile := ⟨"a.h", "enum E \x7b\n  A, // EXCEPTION: never passed\n\x7d;\n".toList⟩
  have hrun : (ofSpec s).toOption.map (·.check ⟨[f], []⟩ Markers.standard) = some (.found
      [{ path := "a.h", line := some 2, severity := .fail, ruleId := "R",
         check := some "coverage", message := "E::A is never passed to f()",
         snippet := some "A, // EXCEPTION: never passed" }]) := by decide +kernel
  obtain ⟨r, hr, hcheck⟩ := Option.map_eq_some_iff.mp hrun
  exact ⟨s, r, _, _, f, ok_of_toOption hr, hcheck, rfl, rfl, by decide +kernel⟩

end Rule
end StructuralRules
