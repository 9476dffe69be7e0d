import StructuralRules.Proofs.Report.Order
import StructuralRules.Proofs.Rule.LineSites
import StructuralRules.Proofs.Settings.Gate

/-!
# Which lines are reported

A rule about lines reports a line once, if it reports it at all. With forbidden
patterns these are the code lines that match outside comments and literals, one
pattern at a time. With a window they are the code lines that match the anchor
and have no line with the required pattern close to them, so a wider window
leaves fewer of them.
-/

set_option autoImplicit false

namespace StructuralRules

/-- Where a finding is, and which part of the rule found it. -/
def Finding.spot (v : Finding) : String × Option Nat × Option String :=
  (v.path, v.line, v.check)

namespace SiteRule

variable {q : SiteRule} {p : Pattern} {ms : Markers} {files : List SourceFile}
  {warnings : List Finding}

/-! ## Each line once -/

/-- Files have distinct paths, so no line is reported twice. -/
theorem nodup_reportedLines (q : SiteRule) (p : Pattern) (ms : Markers) (files : List SourceFile)
    (warnings : List Finding) : (q.reportedLines p (Corpus.ofFiles files warnings) ms).Nodup := by
  unfold reportedLines
  rw [List.nodup_flatMap]
  constructor
  · intro f _
    refine List.Nodup.map ?_ ((List.nodup_range' 1).filter _)
    exact fun _ _ h => (Prod.mk.inj h).2
  · have hpaths := List.pairwise_map.mp (Corpus.nodup_paths files warnings)
    refine (hpaths.sublist List.filter_sublist).imp ?_
    intro f g hne
    apply List.disjoint_left.mpr
    intro l hf hg
    obtain ⟨n, -, rfl⟩ := List.mem_map.mp hf
    obtain ⟨k, -, heq⟩ := List.mem_map.mp hg
    exact hne (congrArg Prod.fst heq).symm

theorem mem_reportedLines_iff {f : SourceFile} (hf : f ∈ (Corpus.ofFiles files warnings).files)
    {n : Nat} : (f.path, n) ∈ q.reportedLines p (Corpus.ofFiles files warnings) ms ↔
      q.scope.isMatch f.path = true ∧ q.reports p ms f n = true := by
  rw [mem_reportedLines]
  constructor
  · rintro ⟨g, hg, hpath, hreports⟩
    obtain ⟨hg, hmatch⟩ := Corpus.mem_inScope.mp hg
    obtain rfl := Corpus.eq_of_path_eq hg hf hpath
    exact ⟨hmatch, hreports⟩
  · rintro ⟨hmatch, hreports⟩
    exact ⟨f, Corpus.mem_inScope.mpr ⟨hf, hmatch⟩, rfl, hreports⟩

end SiteRule

/-! ## Forbidden patterns -/

namespace ForbiddenPattern

/-- The check of what the pattern with number `n` finds. A single pattern has none. -/
def check? (count n : Nat) : Option String :=
  if 1 < count then some ("pattern-" ++ toString n) else none

theorem check?_inj {count m n : Nat} (hm : m ∈ List.range' 1 count)
    (hn : n ∈ List.range' 1 count) (h : check? count m = check? count n) : m = n := by
  unfold check? at h
  split_ifs at h with hcount
  · have htext := congrArg String.toList (Option.some.inj h)
    rw [String.toList_append, String.toList_append, List.append_cancel_left_eq] at htext
    have hdigits : Nat.toDigits 10 m = Nat.toDigits 10 n :=
      Nat.toList_repr.symm.trans (htext.trans Nat.toList_repr)
    have hread := congrArg (Nat.ofDigitChars 10 · 0) hdigits
    rwa [Nat.ofDigitChars_toDigits (by decide) (by decide),
      Nat.ofDigitChars_toDigits (by decide) (by decide)] at hread
  · rw [List.mem_range'_1] at hm hn
    omega

end ForbiddenPattern

namespace RuleHead

variable {h : RuleHead} {patterns : List ForbiddenPattern} {rules : List SiteRule}

namespace Forbids

variable {check : Option String} {p : ForbiddenPattern} {q : SiteRule} {pattern : Pattern}

theorem reports_eq (hq : h.Forbids check p q pattern) (ms : Markers) (f : SourceFile) (n : Nat) :
    q.reports pattern ms f n = pattern.hits LineClass.isCode ms f n := by
  rw [SiteRule.reports, SiteRule.region?, hq.within_eq]
  simp [SiteRule.inRegion, hq.condition_eq]

theorem found_spots (hq : h.Forbids check p q pattern) (c : Corpus) (ms : Markers) :
    (q.found c ms).map Finding.spot =
      (q.reportedLines pattern c ms).map fun l => (l.1, some l.2, check) := by
  have hnone : q.absences c = [] := by rw [SiteRule.absences, hq.within_eq]
  have hplaces := SiteRule.found_places hq.toReadsLines c ms
  rw [hnone, List.map_nil, List.append_nil, hq.check_eq] at hplaces
  have hspots := congrArg (List.map fun place => (place.1, place.2.1, place.2.2.2)) hplaces
  rwa [List.map_map, List.map_map] at hspots

/-- A line of a file in scope is found if it is code and matches. -/
theorem mem_found_spots_iff (hq : h.Forbids check p q pattern) {files : List SourceFile}
    {warnings : List Finding} {f : SourceFile} (hf : f ∈ (Corpus.ofFiles files warnings).files)
    {ms : Markers} {n : Nat} :
    (f.path, some n, check) ∈ (q.found (Corpus.ofFiles files warnings) ms).map Finding.spot ↔
      h.scope.isMatch f.path = true ∧ pattern.hits LineClass.isCode ms f n = true := by
  rw [hq.found_spots, ← hq.scope_eq, ← hq.reports_eq, ← SiteRule.mem_reportedLines_iff hf]
  constructor
  · intro hspot
    obtain ⟨⟨path, k⟩, hl, heq⟩ := List.mem_map.mp hspot
    simp only [Prod.mk.injEq, Option.some.injEq] at heq
    obtain ⟨rfl, rfl, -⟩ := heq
    exact hl
  · intro hl
    exact List.mem_map.mpr ⟨_, hl, rfl⟩

end Forbids

/-- Each rule is about the pattern with its number. -/
theorem mem_forbidAll (hrules : h.forbidAll patterns = .ok rules) {q : SiteRule}
    (hq : q ∈ rules) : ∃ i p pattern, patterns[i]? = some p ∧
      h.Forbids (ForbiddenPattern.check? patterns.length (i + 1)) p q pattern := by
  obtain ⟨⟨p, n⟩, hmem, hq⟩ := mem_of_mapM_eq_ok hrules hq
  obtain ⟨pattern, hforbids⟩ := forbid_forbids hq
  obtain ⟨hpos, hp⟩ := List.mk_mem_zipIdx_iff_le_and_getElem?_sub.mp hmem
  refine ⟨n - 1, p, pattern, hp, ?_⟩
  rw [Nat.sub_add_cancel hpos]
  exact hforbids

/-- Each pattern has a rule. -/
theorem exists_mem_forbidAll (hrules : h.forbidAll patterns = .ok rules) {i : Nat}
    {p : ForbiddenPattern} (hp : patterns[i]? = some p) : ∃ q ∈ rules, ∃ pattern,
      h.Forbids (ForbiddenPattern.check? patterns.length (i + 1)) p q pattern := by
  have hmem : (p, i + 1) ∈ patterns.zipIdx 1 :=
    List.mk_mem_zipIdx_iff_le_and_getElem?_sub.mpr ⟨Nat.succ_pos i, hp⟩
  obtain ⟨q, hq, hforbid⟩ := exists_mem_of_mapM_eq_ok hrules hmem
  exact ⟨q, hq, forbid_forbids hforbid⟩

/-- The rules are told apart by their checks. -/
theorem nodup_forbidAll_checks (hrules : h.forbidAll patterns = .ok rules) :
    (rules.map (·.check)).Nodup := by
  have hchecks : rules.map (·.check) = (patterns.zipIdx 1).map fun x =>
      ForbiddenPattern.check? patterns.length x.2 := by
    refine map_eq_of_mapM_eq_ok ?_ hrules
    intro x q hq
    obtain ⟨pattern, hforbids⟩ := forbid_forbids hq
    exact hforbids.check_eq
  have hnumbers : (patterns.zipIdx 1).map (fun x =>
      ForbiddenPattern.check? patterns.length x.2) =
        (List.range' 1 patterns.length).map (ForbiddenPattern.check? patterns.length) := by
    rw [← List.zipIdx_map_snd 1 patterns, List.map_map]
    rfl
  rw [hchecks, hnumbers]
  exact (List.nodup_range' 1).map_on fun _ hm _ hn => ForbiddenPattern.check?_inj hm hn

/-- No two findings have the same spot. -/
theorem nodup_forbidAll_spots (hrules : h.forbidAll patterns = .ok rules)
    (files : List SourceFile) (warnings : List Finding) (ms : Markers) :
    ((rules.flatMap fun q => q.found (Corpus.ofFiles files warnings) ms).map
      Finding.spot).Nodup := by
  have hspots : ∀ q ∈ rules, ∃ pattern,
      (q.found (Corpus.ofFiles files warnings) ms).map Finding.spot =
        (q.reportedLines pattern (Corpus.ofFiles files warnings) ms).map
          fun l => (l.1, some l.2, q.check) := by
    intro q hq
    obtain ⟨i, p, pattern, -, hforbids⟩ := mem_forbidAll hrules hq
    rw [hforbids.check_eq]
    exact ⟨pattern, hforbids.found_spots _ ms⟩
  rw [List.map_flatMap, List.nodup_flatMap]
  constructor
  · intro q hq
    obtain ⟨pattern, hfound⟩ := hspots q hq
    rw [hfound]
    refine List.Nodup.map ?_ (SiteRule.nodup_reportedLines q pattern ms files warnings)
    rintro ⟨path, n⟩ ⟨path', n'⟩ heq
    simp only [Prod.mk.injEq, Option.some.injEq] at heq
    exact Prod.ext heq.1 heq.2.1
  · refine (List.pairwise_map.mp (nodup_forbidAll_checks hrules)).imp_of_mem ?_
    intro q q' hq hq' hne
    obtain ⟨pattern, hfound⟩ := hspots q hq
    obtain ⟨pattern', hfound'⟩ := hspots q' hq'
    show List.Disjoint ((q.found _ ms).map Finding.spot) ((q'.found _ ms).map Finding.spot)
    rw [hfound, hfound']
    apply List.disjoint_left.mpr
    intro spot hl hl'
    obtain ⟨l, -, rfl⟩ := List.mem_map.mp hl
    obtain ⟨l', -, heq⟩ := List.mem_map.mp hl'
    exact hne (congrArg (·.2.2) heq).symm

/-- What is found about a pattern is found by its rule. -/
theorem mem_forbidAll_spots_iff (hrules : h.forbidAll patterns = .ok rules)
    {check : Option String} {p : ForbiddenPattern} {q : SiteRule} {pattern : Pattern}
    (hq : q ∈ rules) (hforbids : h.Forbids check p q pattern) {files : List SourceFile}
    {warnings : List Finding} {f : SourceFile} (hf : f ∈ (Corpus.ofFiles files warnings).files)
    {ms : Markers} {n : Nat} :
    (f.path, some n, check) ∈ (rules.flatMap fun q =>
        q.found (Corpus.ofFiles files warnings) ms).map Finding.spot ↔
      h.scope.isMatch f.path = true ∧ pattern.hits LineClass.isCode ms f n = true := by
  rw [← hforbids.mem_found_spots_iff hf, List.map_flatMap, List.mem_flatMap]
  constructor
  · rintro ⟨q', hq', hspot⟩
    obtain ⟨i, p', pattern', -, hforbids'⟩ := mem_forbidAll hrules hq'
    have hfound := hspot
    rw [hforbids'.found_spots] at hfound
    obtain ⟨l, -, heq⟩ := List.mem_map.mp hfound
    have hcheck : q'.check = q.check := by
      rw [hforbids'.check_eq, hforbids.check_eq]
      exact congrArg (·.2.2) heq
    obtain rfl := List.inj_on_of_nodup_map (nodup_forbidAll_checks hrules) hq' hq hcheck
    exact hspot
  · intro hspot
    exact ⟨q, hq, hspot⟩

/-- Each finding stands on a line of a file in the corpus. -/
theorem exists_spot_of_mem_forbidAll (hrules : h.forbidAll patterns = .ok rules) {c : Corpus}
    {ms : Markers} {v : Finding} (hv : v ∈ rules.flatMap fun q => q.found c ms) :
    ∃ i < patterns.length, ∃ f ∈ c.files, ∃ n,
      v.spot = (f.path, some n, ForbiddenPattern.check? patterns.length (i + 1)) := by
  obtain ⟨q, hq, hv⟩ := List.mem_flatMap.mp hv
  obtain ⟨i, p, pattern, hp, hforbids⟩ := mem_forbidAll hrules hq
  have hspot : v.spot ∈ (q.found c ms).map Finding.spot := List.mem_map_of_mem hv
  rw [hforbids.found_spots] at hspot
  obtain ⟨⟨path, n⟩, hl, heq⟩ := List.mem_map.mp hspot
  obtain ⟨f, hf, rfl, -⟩ := SiteRule.mem_reportedLines.mp hl
  have hi : i < patterns.length := (List.getElem?_eq_some_iff.mp hp).1
  exact ⟨i, hi, f, (Corpus.mem_inScope.mp hf).1, n, heq.symm⟩

end RuleHead

/-- What a declared rule with forbidden patterns compiles to. -/
theorem CompiledRule.ofSpec_forbidden {s : RuleSpec} {r : CompiledRule} (hr : ofSpec s = .ok r)
    {patterns : List ForbiddenPattern} (hs : s.kind = .forbidden patterns) :
    r.head.Follows s ∧ ∃ rules, r.head.forbidAll patterns = .ok rules ∧
      ∀ c ms, r.findings c ms = .ok (rules.flatMap fun q => q.found c ms) := by
  obtain ⟨head, hhead, hr⟩ := bind_eq_ok.mp hr
  obtain ⟨checker, hchecker, hr⟩ := bind_eq_ok.mp hr
  obtain rfl := pure_eq_ok.mp hr
  rw [hs] at hchecker
  obtain ⟨rules, hrules, rfl⟩ := map_eq_ok.mp hchecker
  refine ⟨RuleHead.ofSpec_follows hhead, rules, hrules, ?_⟩
  refine findings_sites head ?_
  intro q hq
  obtain ⟨i, p, pattern, -, hforbids⟩ := RuleHead.mem_forbidAll hrules hq
  exact ⟨pattern, hforbids.toReadsLines⟩

/-- **A rule with forbidden patterns reports the code lines that match, each once.** For each
pattern there is one finding about a line of a file if the path of the file is in scope, the line
is code, and what it says outside comments and literals matches; otherwise there is none. The
check of a finding says which pattern it is about, unless there is only one. -/
theorem Rule.forbidden_reports_matching_code {s : RuleSpec} {r : Rule}
    (hr : Rule.ofSpec s = .ok r) {patterns : List ForbiddenPattern}
    (hs : s.kind = .forbidden patterns) (files : List SourceFile) (warnings : List Finding)
    (ms : Markers) :
    ∃ scope fs, FileScope.compile s.files = .ok scope ∧
      r.check (Corpus.ofFiles files warnings) ms = .found fs ∧
      (∀ i p, patterns[i]? = some p → ∃ pattern, Pattern.compile p.regex = .ok pattern ∧
        ∀ f ∈ (Corpus.ofFiles files warnings).files, ∀ n,
          (fs.map Finding.spot).count
              (f.path, some n, ForbiddenPattern.check? patterns.length (i + 1)) =
            if scope.isMatch f.path && pattern.hits LineClass.isCode ms f n then 1 else 0) ∧
      ∀ v ∈ fs, ∃ i < patterns.length, ∃ f ∈ (Corpus.ofFiles files warnings).files, ∃ n,
        v.spot = (f.path, some n, ForbiddenPattern.check? patterns.length (i + 1)) := by
  obtain ⟨compiled, hcompiled, hr⟩ := bind_eq_ok.mp hr
  obtain rfl := pure_eq_ok.mp hr
  obtain ⟨hhead, rules, hrules, hfindings⟩ := CompiledRule.ofSpec_forbidden hcompiled hs
  refine ⟨compiled.head.scope, _, hhead.compiled, CompiledRule.check_eq_found.mpr (hfindings _ ms),
    ?_, fun v => RuleHead.exists_spot_of_mem_forbidAll hrules⟩
  intro i p hp
  obtain ⟨q, hq, pattern, hforbids⟩ := RuleHead.exists_mem_forbidAll hrules hp
  refine ⟨pattern, hforbids.compiled, fun f hf n => ?_⟩
  rw [(RuleHead.nodup_forbidAll_spots hrules files warnings ms).count]
  refine if_congr ?_ rfl rfl
  rw [RuleHead.mem_forbidAll_spots_iff hrules hq hforbids hf, Bool.and_eq_true]

/-- Two matches on one line are one finding. A match in a comment or a literal is none. -/
theorem Rule.forbidden_reports_beside_masked_text :
    ∃ (s : RuleSpec) (r : Rule) (f : SourceFile) (fs : List Finding) (pattern : Pattern),
      Rule.ofSpec s = .ok r ∧ r.check (Corpus.ofFiles [f] []) [] = .found fs ∧
        fs.map Finding.spot =
          [("a.c", some 1, some "pattern-1"), ("a.c", some 4, some "pattern-2")] ∧
        Pattern.compile "gets" = .ok pattern ∧ pattern.isMatch ((f.line? 2).getD []) = true ∧
        pattern.hits LineClass.isCode [] f 1 = true ∧
        pattern.hits LineClass.isCode [] f 2 = false := by
  let s : RuleSpec :=
    { id := "R", name := "r", files := ["a.c"]
      kind := .forbidden [⟨"gets", "unbounded"⟩, ⟨"strcpy", "unbounded"⟩] }
  let f : SourceFile :=
    ⟨"a.c", ("gets(a); gets(b); // strcpy\r\nputs(\"gets\"); /* strcpy\r\n*/\r\n" ++
      "strcpy(c, d);").toList⟩
  have hfiles := Corpus.ofFiles_singleton f []
  let v : Finding :=
    { path := "a.c", line := some 1, severity := .fail, ruleId := "R", check := some "pattern-1"
      message := "unbounded", snippet := some "gets(a); gets(b); // strcpy" }
  let w : Finding :=
    { v with line := some 4, check := some "pattern-2", snippet := some "strcpy(c, d);" }
  have hrun : (Rule.ofSpec s).toOption.map (·.check ⟨[f], []⟩ []) = some (.found [v, w]) := by
    decide +kernel
  rw [← hfiles] at hrun
  obtain ⟨r, hr, hcheck⟩ := Option.map_eq_some_iff.mp hrun
  have hr := ok_of_toOption hr
  obtain ⟨scope, fs, hscope, hfs, hcount, -⟩ :=
    Rule.forbidden_reports_matching_code hr rfl [f] [] []
  obtain rfl := CheckResult.found.inj (hfs.symm.trans hcheck)
  obtain ⟨pattern, hpattern, hcount⟩ := hcount 0 _ rfl
  have hraw : (Pattern.compile "gets").toOption.map (·.isMatch ((f.line? 2).getD [])) =
      some true := by decide +kernel
  rw [hpattern] at hraw
  have hf : f ∈ (Corpus.ofFiles [f] []).files := by rw [hfiles]; exact List.mem_singleton_self f
  -- The first line is found once and the second one is not, in a file that is in scope.
  have hfirst := hcount f hf 1
  have hsecond := hcount f hf 2
  have hone : ([v, w].map Finding.spot).count ("a.c", some 1, some "pattern-1") = 1 := by
    decide +kernel
  have hzero : ([v, w].map Finding.spot).count ("a.c", some 2, some "pattern-1") = 0 := by
    decide +kernel
  have hfirst := hone.symm.trans hfirst
  have hsecond := hzero.symm.trans hsecond
  split_ifs at hfirst with hhit
  split_ifs at hsecond with hmiss
  obtain ⟨hinScope, hhit⟩ := Bool.and_eq_true_iff.mp hhit
  rw [hinScope, Bool.true_and, Bool.not_eq_true] at hmiss
  exact ⟨s, r, f, [v, w], pattern, hr, hcheck, rfl, hpattern, Option.some.inj hraw, hhit, hmiss⟩

/-! ## Windows -/

/-- The first and the last line of the function, or of the whole file. -/
def SourceFile.span? (f : SourceFile) (function : Option String) : Option Region :=
  match function with
  | none => some (1, f.lineCount)
  | some name => (FunctionDef.find? f name).map fun d => (d.startLine, d.endLine)

/-- Line `n` of the span is code that matches the anchor, and no executable line of the span
that is at most so many lines before or behind it matches what is needed. -/
structure SourceFile.Unmet (f : SourceFile) (ms : Markers) (anchor needed : Pattern)
    (before after : Nat) (span : Region) (n : Nat) : Prop where
  first_le : span.1 ≤ n
  le_last : n ≤ span.2
  anchored : anchor.hits LineClass.isCode ms f n = true
  alone : ∀ k, max span.1 (n - before) ≤ k → k ≤ min span.2 (n + after) →
    needed.hits LineClass.isExecutable ms f k = false

/-- With a wider window more lines may match what is needed. -/
theorem SourceFile.Unmet.anti {f : SourceFile} {ms : Markers} {anchor needed : Pattern}
    {before before' after after' : Nat} {span : Region} {n : Nat} (hbefore : before ≤ before')
    (hafter : after ≤ after') (h : f.Unmet ms anchor needed before' after' span n) :
    f.Unmet ms anchor needed before after span n := by
  refine ⟨h.first_le, h.le_last, h.anchored, fun k hlo hhi => h.alone k ?_ ?_⟩
  · omega
  · omega

namespace SiteRule

/-- The surroundings match if an executable line within their extent does. -/
theorem contextMatches_iff {q : SiteRule} {ms : Markers} {region : Option Region} {s : Site}
    {pattern : Pattern} :
    (q.withContext (s.file.codeRows ms) region s).contextMatches pattern = true ↔
      ∃ k, (q.extent s region).1 ≤ k ∧ k ≤ (q.extent s region).2 ∧
        pattern.hits LineClass.isExecutable ms s.file k = true := by
  unfold withContext Site.contextMatches
  dsimp only
  rw [List.any_map, List.any_filter, SourceFile.codeRows_eq_map, List.any_map, List.any_eq_true]
  refine exists_congr fun k => ?_
  constructor
  · rintro ⟨hk, h⟩
    rw [Pattern.hits_codeRow (Checked.hasLine_of_mem_range' hk)]
    simp only [Function.comp_apply, Bool.and_eq_true, decide_eq_true_eq, and_assoc] at h ⊢
    exact h
  · rintro ⟨hlo, hhi, h⟩
    have hline := Pattern.hasLine_of_hits h
    rw [Pattern.hits_codeRow hline] at h
    have hle := hline.le_count
    refine ⟨List.mem_range'_1.mpr ⟨hline.pos, by omega⟩, ?_⟩
    simp only [Function.comp_apply, Bool.and_eq_true, decide_eq_true_eq, and_assoc] at h ⊢
    exact ⟨hlo, hhi, h⟩

/-- Without a function the span is the whole file. -/
theorem span?_within (q : SiteRule) (f : SourceFile) :
    f.span? q.within = (q.region? f).map fun region => region.getD (1, f.lineCount) := by
  unfold SourceFile.span? region?
  cases q.within with
  | none => rfl
  | some name =>
    dsimp only
    rw [Option.map_map]
    rfl

theorem inRegion_iff {f : SourceFile} {n : Nat} (h : f.HasLine n) (region : Option Region) :
    inRegion region n = true ↔ (region.getD (1, f.lineCount)).1 ≤ n ∧
      n ≤ (region.getD (1, f.lineCount)).2 := by
  cases region with
  | none => exact iff_of_true rfl ⟨h.pos, h.le_count⟩
  | some span => simp [inRegion]

end SiteRule

namespace RuleHead

variable {h : RuleHead} {function : Option String} {before after : Nat} {q : SiteRule}

namespace Watches

variable {anchor needed : Pattern} {ms : Markers} {f : SourceFile} {n : Nat}

/-- The lines of the file in the extent of a place are those of the span close to it. -/
theorem extent_iff (hq : h.Watches function anchor needed before after q)
    (region : Option Region) {s : Site} {k : Nat} (hk : s.file.HasLine k) :
    ((q.extent s region).1 ≤ k ∧ k ≤ (q.extent s region).2) ↔
      max (region.getD (1, s.file.lineCount)).1 (s.line - before) ≤ k ∧
        k ≤ min (region.getD (1, s.file.lineCount)).2 (s.line + after) := by
  have hpos := hk.pos
  have hle := hk.le_count
  unfold SiteRule.extent
  rw [hq.neighborhood_eq]
  cases region with
  | none =>
    dsimp only [Option.getD_none]
    omega
  | some span =>
    dsimp only [Option.getD_some]
    omega

/-- The condition fails just when no line close to the place matches. -/
theorem condition_eq_false_iff (hq : h.Watches function anchor needed before after q)
    (region : Option Region) (s : Site) :
    q.condition (q.withContext (s.file.codeRows ms) region s) = false ↔
      ∀ k, max (region.getD (1, s.file.lineCount)).1 (s.line - before) ≤ k →
        k ≤ min (region.getD (1, s.file.lineCount)).2 (s.line + after) →
          needed.hits LineClass.isExecutable ms s.file k = false := by
  rw [hq.condition_eq, ← Bool.not_eq_true, SiteRule.contextMatches_iff]
  constructor
  · intro hnone k hlo hhi
    rw [← Bool.not_eq_true]
    intro hhits
    have hextent := (hq.extent_iff region (Pattern.hasLine_of_hits hhits)).mpr ⟨hlo, hhi⟩
    exact hnone ⟨k, hextent.1, hextent.2, hhits⟩
  · rintro halone ⟨k, hlo, hhi, hhits⟩
    have hclose := (hq.extent_iff region (Pattern.hasLine_of_hits hhits)).mp ⟨hlo, hhi⟩
    rw [halone k hclose.1 hclose.2] at hhits
    cases hhits

theorem reports_iff (hq : h.Watches function anchor needed before after q) :
    q.reports anchor ms f n = true ↔
      ∃ span, f.span? function = some span ∧ f.Unmet ms anchor needed before after span n := by
  rw [← hq.within_eq, SiteRule.span?_within, SiteRule.reports, Option.any_eq_true]
  constructor
  · rintro ⟨region, hregion, hreports⟩
    rw [Bool.and_eq_true, Bool.and_eq_true, Bool.not_eq_true'] at hreports
    obtain ⟨⟨hin, hhits⟩, hcondition⟩ := hreports
    obtain ⟨hfirst, hlast⟩ := (SiteRule.inRegion_iff (Pattern.hasLine_of_hits hhits) region).mp hin
    refine ⟨_, by rw [hregion, Option.map_some], hfirst, hlast, hhits, ?_⟩
    exact (hq.condition_eq_false_iff region _).mp hcondition
  · rintro ⟨span, hspan, hunmet⟩
    obtain ⟨region, hregion, rfl⟩ := Option.map_eq_some_iff.mp hspan
    refine ⟨region, hregion, ?_⟩
    have hline := Pattern.hasLine_of_hits hunmet.anchored
    have hin := (SiteRule.inRegion_iff hline region).mpr ⟨hunmet.first_le, hunmet.le_last⟩
    rw [Bool.and_eq_true, Bool.and_eq_true, Bool.not_eq_true']
    exact ⟨⟨hin, hunmet.anchored⟩, (hq.condition_eq_false_iff region _).mpr hunmet.alone⟩

/-- What is absent does not depend on the window. -/
theorem absences_eq {anchor' needed' : Pattern} {before' after' : Nat} {q' : SiteRule}
    (hq : h.Watches function anchor needed before after q)
    (hq' : h.Watches function anchor' needed' before' after' q') (c : Corpus) :
    q'.absences c = q.absences c := by
  unfold SiteRule.absences SiteRule.region?
  rw [hq.within_eq, hq'.within_eq, hq.scope_eq, hq'.scope_eq, hq.id_eq, hq'.id_eq,
    hq.onMissing_eq, hq'.onMissing_eq]

/-- A wider window finds nothing at a place where a narrower one finds nothing. -/
theorem found_anti {before' after' : Nat} {q' : SiteRule}
    (hq : h.Watches function anchor needed before after q)
    (hq' : h.Watches function anchor needed before' after' q') (hbefore : before ≤ before')
    (hafter : after ≤ after') {c : Corpus} {v' : Finding} (hv' : v' ∈ q'.found c ms) :
    ∃ v ∈ q.found c ms, v.path = v'.path ∧ v.line = v'.line := by
  cases hline : v'.line with
  | none =>
    have habsent := (SiteRule.mem_absences_iff hq'.toReadsLines).mpr ⟨hv', hline⟩
    rw [hq.absences_eq hq'] at habsent
    exact ⟨v', ((SiteRule.mem_absences_iff hq.toReadsLines).mp habsent).1, rfl, hline⟩
  | some n =>
    have hreported := (SiteRule.exists_mem_found_iff hq'.toReadsLines).mp ⟨v', hv', rfl, hline⟩
    obtain ⟨f, hf, hpath, hreports⟩ := SiteRule.mem_reportedLines.mp hreported
    obtain ⟨span, hspan, hunmet⟩ := hq'.reports_iff.mp hreports
    have hreports := hq.reports_iff.mpr ⟨span, hspan, hunmet.anti hbefore hafter⟩
    rw [hq'.scope_eq, ← hq.scope_eq] at hf
    apply (SiteRule.exists_mem_found_iff hq.toReadsLines).mpr
    exact SiteRule.mem_reportedLines.mpr ⟨f, hf, hpath, hreports⟩

end Watches
end RuleHead

namespace CompiledRule

variable {s : RuleSpec} {r : CompiledRule} {function : Option String} {anchor required : String}
  {before after : Nat} {message : Option String}

/-- What a declared rule with a window compiles to. -/
theorem ofSpec_window (hr : ofSpec s = .ok r)
    (hs : s.kind = .window function anchor required before after message) :
    RuleHead.ofSpec s = .ok r.head ∧ ∃ a b q, Pattern.compile anchor = .ok a ∧
      Pattern.compile required = .ok b ∧ r.head.Watches function a b before after q ∧
      ∀ c ms, r.findings c ms = .ok (q.found c ms) := by
  obtain ⟨head, hhead, hr⟩ := bind_eq_ok.mp hr
  obtain ⟨checker, hchecker, hr⟩ := bind_eq_ok.mp hr
  obtain rfl := pure_eq_ok.mp hr
  rw [hs] at hchecker
  obtain ⟨q, hq, hchecker⟩ := bind_eq_ok.mp hchecker
  obtain rfl := pure_eq_ok.mp hchecker
  obtain ⟨a, b, ha, hb, hwatches⟩ := RuleHead.window_watches hq
  refine ⟨hhead, a, b, q, ha, hb, hwatches, fun c ms => ?_⟩
  have hreads : ∀ q' ∈ [q], ∃ p, q'.ReadsLines p := by
    intro q' hq'
    obtain rfl := List.mem_singleton.mp hq'
    exact ⟨a, hwatches.toReadsLines⟩
  rw [findings_sites head hreads, List.flatMap_cons, List.flatMap_nil, List.append_nil]

/-- Whether a rule with a window compiles does not depend on the window. -/
theorem exists_ofSpec_window (hr : ofSpec s = .ok r)
    (hs : s.kind = .window function anchor required before after message) (before' after' : Nat)
    (message' : Option String) :
    ∃ r', ofSpec { s with kind := .window function anchor required before' after' message' } =
      .ok r' := by
  obtain ⟨hfiles, -, -, hpatterns⟩ := exists_ofSpec.mp ⟨r, hr⟩
  rw [hs] at hpatterns
  exact exists_ofSpec.mpr ⟨hfiles, trivial, by simp [RuleKind.globs], hpatterns⟩

end CompiledRule

/-- **A rule with a window reports the anchors that have nothing of what is needed close to
them.** A line of a file is reported if the path of the file is in scope and the line is an unmet
anchor of the span, which is the function or the whole file. So what the rule finds with a wider
window it finds with a narrower one. -/
theorem Rule.window_reports_unmet_anchors {s : RuleSpec} {r : Rule} (hr : Rule.ofSpec s = .ok r)
    {function : Option String} {anchor required : String} {before after : Nat}
    {message : Option String}
    (hs : s.kind = .window function anchor required before after message)
    (files : List SourceFile) (warnings : List Finding) (ms : Markers) :
    ∃ scope a b fs, FileScope.compile s.files = .ok scope ∧ Pattern.compile anchor = .ok a ∧
      Pattern.compile required = .ok b ∧
      r.check (Corpus.ofFiles files warnings) ms = .found fs ∧
      (∀ f ∈ (Corpus.ofFiles files warnings).files, ∀ n,
        (∃ v ∈ fs, v.path = f.path ∧ v.line = some n) ↔
          scope.isMatch f.path = true ∧
            ∃ span, f.span? function = some span ∧ f.Unmet ms a b before after span n) ∧
      ∀ before' after' message', before ≤ before' → after ≤ after' →
        ∃ r' fs', Rule.ofSpec
            { s with kind := .window function anchor required before' after' message' } = .ok r' ∧
          r'.check (Corpus.ofFiles files warnings) ms = .found fs' ∧
          ∀ v' ∈ fs', ∃ v ∈ fs, v.path = v'.path ∧ v.line = v'.line := by
  obtain ⟨compiled, hcompiled, hr⟩ := bind_eq_ok.mp hr
  obtain rfl := pure_eq_ok.mp hr
  obtain ⟨hhead, a, b, q, ha, hb, hq, hfindings⟩ := CompiledRule.ofSpec_window hcompiled hs
  refine ⟨compiled.head.scope, a, b, _, (RuleHead.ofSpec_follows hhead).compiled, ha, hb,
    CompiledRule.check_eq_found.mpr (hfindings _ ms), ?_, ?_⟩
  · intro f hf n
    rw [SiteRule.exists_mem_found_iff hq.toReadsLines, SiteRule.mem_reportedLines_iff hf,
      hq.scope_eq, hq.reports_iff]
  · intro before' after' message' hbefore hafter
    obtain ⟨compiled', hcompiled'⟩ :=
      CompiledRule.exists_ofSpec_window hcompiled hs before' after' message'
    obtain ⟨hhead', a', b', q', ha', hb', hq', hfindings'⟩ :=
      CompiledRule.ofSpec_window hcompiled' rfl
    have hsame : compiled'.head = compiled.head := Except.ok.inj (hhead'.symm.trans hhead)
    obtain rfl := Except.ok.inj (ha'.symm.trans ha)
    obtain rfl := Except.ok.inj (hb'.symm.trans hb)
    rw [hsame] at hq'
    refine ⟨compiled'.toRule, _, bind_eq_ok.mpr ⟨compiled', hcompiled', rfl⟩,
      CompiledRule.check_eq_found.mpr (hfindings' _ ms), fun v' hv' => ?_⟩
    exact hq.found_anti hq' hbefore hafter hv'

/-- The second anchor has what it needs two lines before it. What the first one would need stands
in a comment, and outside the function. -/
theorem Rule.window_reports_two_anchors :
    ∃ (s : RuleSpec) (r r' : Rule) (f : SourceFile) (fs fs' : List Finding) (a b : Pattern),
      Rule.ofSpec s = .ok r ∧ r.check (Corpus.ofFiles [f] []) [] = .found fs ∧
        fs.map (·.line) = [some 3, some 7] ∧ f.Unmet [] a b 1 1 (2, 8) 7 ∧
        Rule.ofSpec { s with kind := .window (some "pay") "gold" "apply" 2 1 none } = .ok r' ∧
        r'.check (Corpus.ofFiles [f] []) [] = .found fs' ∧ fs'.map (·.line) = [some 3] ∧
        ∀ v' ∈ fs', ∃ v ∈ fs, v.path = v'.path ∧ v.line = v'.line := by
  let s : RuleSpec :=
    { id := "R", name := "r", files := ["a.c"]
      kind := .window (some "pay") "gold" "apply" 1 1 none }
  let f : SourceFile :=
    ⟨"a.c", ("apply(a);\nvoid pay(int a) \x7b\n  gold(a);\n  // apply(a);\n  apply(b);\n" ++
      "  y();\n  gold(b);\n\x7d\napply(b);\n").toList⟩
  have hfiles := Corpus.ofFiles_singleton f []
  let v : Finding :=
    { path := "a.c", line := some 3, severity := .fail, ruleId := "R", check := some "window"
      message := "'gold' without 'apply' within 1 lines before or 1 after"
      snippet := some "gold(a);" }
  let w : Finding := { v with line := some 7, snippet := some "gold(b);" }
  let v' : Finding :=
    { v with message := "'gold' without 'apply' within 2 lines before or 1 after" }
  have hrun : (Rule.ofSpec s).toOption.map (·.check ⟨[f], []⟩ []) = some (.found [v, w]) := by
    decide +kernel
  have hwide : (Rule.ofSpec { s with kind := .window (some "pay") "gold" "apply" 2 1 none
      }).toOption.map (·.check ⟨[f], []⟩ []) = some (.found [v']) := by decide +kernel
  have hspan : f.span? (some "pay") = some (2, 8) := by decide +kernel
  rw [← hfiles] at hrun hwide
  obtain ⟨r, hr, hcheck⟩ := Option.map_eq_some_iff.mp hrun
  have hr := ok_of_toOption hr
  obtain ⟨scope, a, b, fs, -, -, -, hfs, hiff, hwider⟩ :=
    Rule.window_reports_unmet_anchors hr rfl [f] [] []
  obtain rfl := CheckResult.found.inj (hfs.symm.trans hcheck)
  obtain ⟨r', fs', hr', hfs', hfewer⟩ := hwider 2 1 none (by omega) (le_refl 1)
  rw [hr'] at hwide
  obtain rfl := CheckResult.found.inj (hfs'.symm.trans (Option.some.inj hwide))
  have hf : f ∈ (Corpus.ofFiles [f] []).files := by rw [hfiles]; exact List.mem_singleton_self f
  obtain ⟨-, span, hfound, hunmet⟩ := (hiff f hf 7).mp ⟨w, by simp, rfl, rfl⟩
  obtain rfl := Option.some.inj (hspan.symm.trans hfound)
  exact ⟨s, r, r', f, [v, w], [v'], a, b, hr, hcheck, rfl, hunmet, hr', hfs', rfl, hfewer⟩

end StructuralRules
