import Mathlib.Data.List.Perm.Basic
import StructuralRules.Proofs.Report.Order
import StructuralRules.Proofs.Rule.LineSites

/-!
# Rules that look at one file at a time

Rules about lines that are not confined to a function, and rules about pairs of
calls, find in a corpus what they find in each of its files alone. Their findings
on a corpus are, up to the order in which they are found, those on its parts, and
what they find in one file does not depend on the others.
-/

set_option autoImplicit false

namespace StructuralRules

/-- The kinds of rules that look at one file at a time. -/
def RuleKind.isFileLocal : RuleKind → Bool
  | .forbidden _ | .pairedCalls _ => true
  | .window function .. => function.isNone
  | _ => false

namespace Corpus

/-- The corpus of a single file. -/
def single (f : SourceFile) : Corpus :=
  ⟨[f], []⟩

theorem flatMap_inScope {α : Type} (c : Corpus) (scope : FileScope) (g : SourceFile → List α) :
    (c.inScope scope).flatMap g =
      c.files.flatMap fun f => ((single f).inScope scope).flatMap g := by
  unfold inScope
  generalize c.files = files
  induction files with
  | nil => rfl
  | cons f files ih =>
    rw [List.flatMap_cons, ← ih]
    simp only [single, List.filter_cons]
    split <;> simp

end Corpus

/-! ## What is found file by file -/

namespace SiteRule

variable {q : SiteRule} {p : Pattern} {ms : Markers}

theorem found_unconfined (hq : q.locator = .lines p) (hwithin : q.within = none) (c : Corpus) :
    q.found c ms = (c.inScope q.scope).flatMap fun f => (q.reportedIn p ms f).map q.finding := by
  have hnothing : q.absences c = [] := by
    unfold absences
    rw [hwithin]
  rw [found_lines hq, hnothing, List.append_nil, List.map_flatMap]

theorem found_flatMap (hq : q.locator = .lines p) (hwithin : q.within = none) (c : Corpus) :
    q.found c ms = c.files.flatMap fun f => q.found (.single f) ms := by
  simp only [found_unconfined hq hwithin]
  exact c.flatMap_inScope q.scope _

theorem path_of_mem_found (hq : q.locator = .lines p) (hwithin : q.within = none) {f : SourceFile}
    {v : Finding} (hv : v ∈ q.found (.single f) ms) : v.path = f.path := by
  rw [found_unconfined hq hwithin] at hv
  obtain ⟨g, hg, hv⟩ := List.mem_flatMap.mp hv
  obtain ⟨site, hsite, rfl⟩ := List.mem_map.mp hv
  obtain rfl : g = f := List.mem_singleton.mp (Corpus.mem_inScope.mp hg).1
  rw [← file_of_mem_reportedIn hsite]
  simp [finding]

end SiteRule

namespace RuleHead

theorem checkPairs_flatMap (h : RuleHead) (c : Corpus) (ms : Markers) (pairs : List CallPair) :
    h.checkPairs c ms pairs = c.files.flatMap fun f => h.checkPairs (.single f) ms pairs :=
  c.flatMap_inScope h.scope _

theorem path_of_mem_checkPairs {h : RuleHead} {ms : Markers} {pairs : List CallPair}
    {f : SourceFile} {v : Finding} (hv : v ∈ h.checkPairs (.single f) ms pairs) :
    v.path = f.path := by
  obtain ⟨g, hg, hv⟩ := List.mem_flatMap.mp hv
  obtain ⟨pair, -, hv⟩ := List.mem_filterMap.mp hv
  obtain ⟨call, -, hv⟩ := Option.bind_eq_some_iff.mp hv
  split_ifs at hv
  obtain rfl := Option.some.inj hv
  obtain rfl : g = f := List.mem_singleton.mp (Corpus.mem_inScope.mp hg).1
  simp [finding]

end RuleHead

/-- The findings of the rule are put together from what each of `parts` finds in each file. -/
structure CompiledRule.FileLocal (r : CompiledRule) (ms : Markers)
    (parts : List (SourceFile → List Finding)) : Prop where
  findings_eq : ∀ c, r.findings c ms = .ok (parts.flatMap fun part => c.files.flatMap part)
  path_eq : ∀ part ∈ parts, ∀ f, ∀ v ∈ part f, v.path = f.path

namespace CompiledRule

theorem sites_fileLocal (head : RuleHead) {rules : List SiteRule}
    (reads : ∀ q ∈ rules, ∃ p, q.ReadsLines p) (hwithin : ∀ q ∈ rules, q.within = none)
    (ms : Markers) :
    FileLocal ⟨head, .sites rules⟩ ms (rules.map fun q f => q.found (.single f) ms) := by
  constructor
  · intro c
    rw [findings_sites head reads, List.flatMap_map]
    congr 1
    refine List.flatMap_congr fun q hq => ?_
    obtain ⟨p, hp⟩ := reads q hq
    exact SiteRule.found_flatMap hp.locator_eq (hwithin q hq) c
  · intro part hpart f v hv
    obtain ⟨q, hq, rfl⟩ := List.mem_map.mp hpart
    obtain ⟨p, hp⟩ := reads q hq
    exact SiteRule.path_of_mem_found hp.locator_eq (hwithin q hq) hv

/-- A rule of one of the kinds looks at one file at a time. -/
theorem exists_fileLocal {s : RuleSpec} {r : CompiledRule} (hr : ofSpec s = .ok r)
    (hk : s.kind.isFileLocal = true) (ms : Markers) : ∃ parts, r.FileLocal ms parts := by
  have hcompiled := ofSpec_compiled hr
  obtain ⟨head, -, hr⟩ := bind_eq_ok.mp hr
  obtain ⟨checker, hchecker, hr⟩ := bind_eq_ok.mp hr
  obtain rfl := pure_eq_ok.mp hr
  generalize s.kind = kind at hk hchecker hcompiled
  cases hcompiled with
  | forbidden patterns reads =>
    obtain ⟨rules, hrules, heq⟩ := map_eq_ok.mp hchecker
    obtain rfl := Checker.sites.inj heq
    refine ⟨_, sites_fileLocal head reads (fun q hq => ?_) ms⟩
    obtain ⟨x, -, hforbid⟩ := mem_of_mapM_eq_ok hrules hq
    obtain ⟨p, hforbids⟩ := RuleHead.forbid_forbids hforbid
    exact hforbids.within_eq
  | window function anchor required before after message reads =>
    obtain ⟨q, hq, heq⟩ := bind_eq_ok.mp hchecker
    obtain rfl := Checker.sites.inj (pure_eq_ok.mp heq)
    refine ⟨_, sites_fileLocal head reads (fun q' hq' => ?_) ms⟩
    obtain rfl := List.mem_singleton.mp hq'
    obtain ⟨a, b, -, -, hwatches⟩ := RuleHead.window_watches hq
    rw [hwatches.within_eq]
    exact Option.isNone_iff_eq_none.mp hk
  | enumCoverage => cases hk
  | functionBody => cases hk
  | structField => cases hk
  | pairedCalls pairs =>
    refine ⟨[fun f => head.checkPairs (.single f) ms pairs], ?_, ?_⟩
    · intro c
      rw [List.flatMap_singleton, ← head.checkPairs_flatMap]
      rfl
    · intro part hpart f v hv
      obtain rfl := List.mem_singleton.mp hpart
      exact RuleHead.path_of_mem_checkPairs hv

/-! ## Parts of a corpus -/

/-- With one file for each path, what a part finds is kept apart by path. -/
theorem filter_flatMap_path {part : SourceFile → List Finding} {files : List SourceFile}
    (hpath : ∀ g, ∀ v ∈ part g, v.path = g.path) (hpaths : (files.map (·.path)).Nodup)
    {f : SourceFile} (hf : f ∈ files) :
    (files.flatMap part).filter (·.path = f.path) = part f := by
  have hother : ∀ g : SourceFile, g.path ≠ f.path → (part g).filter (·.path = f.path) = [] := by
    intro g hg
    refine List.filter_eq_nil_iff.mpr fun v hv => ?_
    simpa [hpath g v hv] using hg
  induction files with
  | nil => cases hf
  | cons g files ih =>
    obtain ⟨hg, hpaths⟩ := List.nodup_cons.mp hpaths
    rw [List.flatMap_cons, List.filter_append]
    rcases List.mem_cons.mp hf with rfl | hf
    · have hself : (part f).filter (·.path = f.path) = part f :=
        List.filter_eq_self.mpr fun v hv => by simpa using hpath f v hv
      have hrest : (files.flatMap part).filter (·.path = f.path) = [] := by
        rw [List.filter_flatMap, List.flatMap_eq_nil_iff]
        intro g' hg'
        exact hother g' fun heq => hg (List.mem_map.mpr ⟨g', hg', heq⟩)
      rw [hself, hrest, List.append_nil]
    · have hne : g.path ≠ f.path := fun heq => hg (List.mem_map.mpr ⟨f, hf, heq.symm⟩)
      rw [hother g hne, ih hpaths hf, List.nil_append]

namespace FileLocal

variable {r : CompiledRule} {ms : Markers} {parts : List (SourceFile → List Finding)}

/-- The findings on a corpus are those on its parts. -/
theorem perm (h : r.FileLocal ms parts) {c c₁ c₂ : Corpus}
    (hsplit : c.files.Perm (c₁.files ++ c₂.files)) {fs fs₁ fs₂ : List Finding}
    (hfs : r.findings c ms = .ok fs) (hfs₁ : r.findings c₁ ms = .ok fs₁)
    (hfs₂ : r.findings c₂ ms = .ok fs₂) : fs.Perm (fs₁ ++ fs₂) := by
  obtain rfl := Except.ok.inj ((h.findings_eq c).symm.trans hfs)
  obtain rfl := Except.ok.inj ((h.findings_eq c₁).symm.trans hfs₁)
  obtain rfl := Except.ok.inj ((h.findings_eq c₂).symm.trans hfs₂)
  have hparts : (parts.flatMap fun part => c.files.flatMap part).Perm
      (parts.flatMap fun part => c₁.files.flatMap part ++ c₂.files.flatMap part) := by
    refine List.Perm.flatMap_left parts fun part _ => ?_
    rw [← List.flatMap_append]
    exact hsplit.flatMap_right part
  exact hparts.trans (List.flatMap_append_perm parts _ _).symm

/-- What is found in a file does not depend on the other files. -/
theorem filter_path (h : r.FileLocal ms parts) {c : Corpus}
    (hpaths : (c.files.map (·.path)).Nodup) {f : SourceFile} (hf : f ∈ c.files)
    {fs : List Finding} (hfs : r.findings c ms = .ok fs) :
    fs.filter (·.path = f.path) = parts.flatMap fun part => part f := by
  obtain rfl := Except.ok.inj ((h.findings_eq c).symm.trans hfs)
  rw [List.filter_flatMap]
  exact List.flatMap_congr fun part hpart =>
    filter_flatMap_path (h.path_eq part hpart) hpaths hf

end FileLocal
end CompiledRule

/-- **File-local rules are compositional.** When the files of a corpus are split between two
corpora in any way, the findings on the whole, sorted, are the findings on the two, sorted
together. What is found in a file is the same in every corpus that has the file. -/
theorem Rule.file_local_findings_compose {s : RuleSpec} {r : Rule} (hr : Rule.ofSpec s = .ok r)
    (hk : s.kind.isFileLocal = true) (ms : Markers) :
    (∀ (files files₁ files₂ : List SourceFile) (warnings warnings₁ warnings₂ : List Finding),
      (Corpus.ofFiles files warnings).files.Perm
        ((Corpus.ofFiles files₁ warnings₁).files ++ (Corpus.ofFiles files₂ warnings₂).files) →
      ∃ fs fs₁ fs₂, r.check (Corpus.ofFiles files warnings) ms = .found fs ∧
        r.check (Corpus.ofFiles files₁ warnings₁) ms = .found fs₁ ∧
        r.check (Corpus.ofFiles files₂ warnings₂) ms = .found fs₂ ∧
        Finding.sort fs = Finding.sort (fs₁ ++ fs₂)) ∧
    ∀ (files files' : List SourceFile) (warnings warnings' : List Finding) (f : SourceFile),
      f ∈ (Corpus.ofFiles files warnings).files → f ∈ (Corpus.ofFiles files' warnings').files →
      ∃ fs fs', r.check (Corpus.ofFiles files warnings) ms = .found fs ∧
        r.check (Corpus.ofFiles files' warnings') ms = .found fs' ∧
        fs.filter (·.path = f.path) = fs'.filter (·.path = f.path) := by
  obtain ⟨compiled, hcompiled, hr⟩ := bind_eq_ok.mp hr
  obtain rfl := pure_eq_ok.mp hr
  obtain ⟨parts, hlocal⟩ := CompiledRule.exists_fileLocal hcompiled hk ms
  simp only [CompiledRule.check_eq_found]
  constructor
  · intro files files₁ files₂ warnings warnings₁ warnings₂ hsplit
    have hfs := hlocal.findings_eq (.ofFiles files warnings)
    have hfs₁ := hlocal.findings_eq (.ofFiles files₁ warnings₁)
    have hfs₂ := hlocal.findings_eq (.ofFiles files₂ warnings₂)
    refine ⟨_, _, _, hfs, hfs₁, hfs₂, ?_⟩
    have hplaced := CompiledRule.findings_placed hcompiled hfs
    exact (Finding.sort_perm (hlocal.perm hsplit hfs hfs₁ hfs₂).symm fun v hv w hw =>
      (hplaced v hv).eq_of_key_eq (hplaced w hw)).symm
  · intro files files' warnings warnings' f hf hf'
    have hfs := hlocal.findings_eq (.ofFiles files warnings)
    have hfs' := hlocal.findings_eq (.ofFiles files' warnings')
    refine ⟨_, _, hfs, hfs', ?_⟩
    rw [hlocal.filter_path (Corpus.nodup_paths files warnings) hf hfs,
      hlocal.filter_path (Corpus.nodup_paths files' warnings') hf' hfs']

/-- Two patterns and two files: the rule finds pattern by pattern, and the corpus is split into
its files, the last one first. -/
theorem Rule.findings_of_split_corpus :
    ∃ (s : RuleSpec) (r : Rule) (files files₁ files₂ : List SourceFile)
      (fs fs₁ fs₂ : List Finding),
      Rule.ofSpec s = .ok r ∧ s.kind.isFileLocal = true ∧
        r.check (Corpus.ofFiles files []) [] = .found fs ∧
        fs.map (fun v => (v.path, v.line)) = [("a.c", some 2), ("a.c", some 1), ("b.c", some 1)] ∧
        r.check (Corpus.ofFiles files₁ []) [] = .found fs₁ ∧
        r.check (Corpus.ofFiles files₂ []) [] = .found fs₂ ∧
        Finding.sort fs = Finding.sort (fs₁ ++ fs₂) := by
  let s : RuleSpec :=
    { id := "R", name := "r", files := ["*.c"], kind := .forbidden [⟨"gets", "g"⟩, ⟨"goto", "j"⟩] }
  let a : SourceFile := ⟨"a.c", "goto x;\ngets(y);\n".toList⟩
  let b : SourceFile := ⟨"b.c", "goto x; // gets\n".toList⟩
  let v : Finding :=
    { path := "a.c", line := some 1, severity := .fail, ruleId := "R", check := some "pattern-2"
      message := "j", snippet := some "goto x;" }
  have hwhole : Corpus.ofFiles [a, b] [] = ⟨[a, b], []⟩ := by
    rw [Corpus.ofFiles, List.mergeSort_of_pairwise (by decide)]
    rfl
  have hsingle : ∀ f : SourceFile, Corpus.ofFiles [f] [] = ⟨[f], []⟩ := by
    intro f
    rw [Corpus.ofFiles, List.mergeSort_singleton]
    rfl
  have hrun : (Rule.ofSpec s).toOption.map (·.check ⟨[a, b], []⟩ []) = some (.found
      [{ v with line := some 2, check := some "pattern-1", message := "g",
                snippet := some "gets(y);" }, v,
       { v with path := "b.c", snippet := some "goto x; // gets" }]) := by decide +kernel
  rw [← hwhole] at hrun
  obtain ⟨r, hr, hcheck⟩ := Option.map_eq_some_iff.mp hrun
  have hr : Rule.ofSpec s = .ok r := ok_of_toOption hr
  have hsplit : (Corpus.ofFiles [a, b] []).files.Perm
      ((Corpus.ofFiles [b] []).files ++ (Corpus.ofFiles [a] []).files) := by
    rw [hwhole, hsingle, hsingle]
    exact List.Perm.swap b a []
  obtain ⟨fs, fs₁, fs₂, hfs, hfs₁, hfs₂, hsort⟩ :=
    (Rule.file_local_findings_compose hr rfl []).1 [a, b] [b] [a] [] [] [] hsplit
  obtain rfl := CheckResult.found.inj (hcheck.symm.trans hfs)
  exact ⟨s, r, [a, b], [b], [a], _, fs₁, fs₂, hr, rfl, hcheck, rfl, hfs₁, hfs₂, hsort⟩

end StructuralRules
