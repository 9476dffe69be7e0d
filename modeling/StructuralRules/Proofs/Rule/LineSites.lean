import StructuralRules.Proofs.Checked.Rule

/-!
# Rules about lines

The site rules that declarations compile to look for lines. Such a rule cannot
break off, and what it finds is the report of each place whose surroundings do
not meet its condition, and of an absent function.
-/

set_option autoImplicit false

namespace StructuralRules

open Text

theorem flatMap_eq_of_forall₂ {α β γ : Type} {R : α → β → Prop} {l : List α} {l' : List β}
    (h : List.Forall₂ R l l') {g : α → List γ} {g' : β → List γ}
    (hg : ∀ a b, R a b → g a = g' b) : l.flatMap g = l'.flatMap g' := by
  induction h with
  | nil => rfl
  | cons hab _ ih => rw [List.flatMap_cons, List.flatMap_cons, hg _ _ hab, ih]

/-- Where a finding is, how much it matters, and which part of the rule found it. -/
def Finding.place (v : Finding) : String × Option Nat × Severity × Option String :=
  (v.path, v.line, v.severity, v.check)

namespace Pattern

/-- Line `n` has a class that is admitted, and outside comments and literals it matches. -/
def hits (p : Pattern) (admitted : LineClass → Bool) (ms : Markers) (f : SourceFile) (n : Nat) :
    Bool :=
  ((f.classes ms)[n - 1]?).any admitted && (f.masked.line? n).any p.isMatch

variable {p : Pattern} {admitted : LineClass → Bool} {ms : Markers} {f : SourceFile} {n : Nat}

theorem hasLine_of_hits (h : p.hits admitted ms f n = true) : f.HasLine n := by
  obtain ⟨l, hl, -⟩ := (Option.any_eq_true _ _).mp (Bool.and_eq_true_iff.mp h).2
  exact SourceFile.hasLine_masked.mp (SourceFile.hasLine_of_line? hl)

theorem hits_codeRow (h : f.HasLine n) : p.hits admitted ms f n =
    (admitted (f.codeRow ms n).lineClass && p.isMatch (f.codeRow ms n).masked) := by
  obtain ⟨l, hl⟩ := (SourceFile.hasLine_masked.mpr h).exists_line
  obtain ⟨cls, hcls⟩ := f.classes_getElem? ms h
  simp [hits, SourceFile.codeRow, hl, hcls]

theorem code_of_hits (h : p.hits LineClass.isCode ms f n = true) :
    (f.classes ms)[n - 1]? = some .code := by
  obtain ⟨cls, hcls, hcode⟩ := (Option.any_eq_true _ _).mp (Bool.and_eq_true_iff.mp h).1
  rw [hcls, eq_of_beq hcode]

end Pattern

namespace SiteRule

/-- The rule looks for lines, and its condition is about the surroundings of a place. -/
structure ReadsLines (q : SiteRule) (p : Pattern) : Prop where
  locator_eq : q.locator = .lines p
  condition_congr : ∀ s s' : Site, s.context = s'.context → q.condition s = q.condition s'

/-- The places in the region of a file that the pattern matches, with their surroundings. -/
def lineSites (q : SiteRule) (p : Pattern) (ms : Markers) (file : SourceFile)
    (region : Option Region) : List Site :=
  (((file.codeRows ms).filter fun row =>
      inRegion region row.number && row.lineClass.isCode).filterMap
    (lineSite? file file.lines p)).map (q.withContext (file.codeRows ms) region)

/-- The places of a file that are reported. -/
def reportedIn (q : SiteRule) (p : Pattern) (ms : Markers) (file : SourceFile) : List Site :=
  match q.region? file with
  | none => []
  | some region => (q.lineSites p ms file region).filter (!q.condition ·)

/-- What is said when no file has the function that the rule is confined to. -/
def absences (q : SiteRule) (c : Corpus) : List Finding :=
  match q.within with
  | none => []
  | some name =>
      if (c.inScope q.scope).all fun f => (q.region? f).isNone then
        (q.onMissing.finding? q.id q.scope.describe s!"function '{name}' not found").toList
      else []

variable {q : SiteRule} {p : Pattern}

theorem sitesIn_lines (hq : q.locator = .lines p) (ms : Markers) (file : SourceFile) :
    q.sitesIn file ms = .ok ((q.region? file).map (q.lineSites p ms file)) := by
  unfold sitesIn locate
  rw [hq]
  cases q.region? file with
  | none => rfl
  | some region => rfl

theorem sitesByFile_lines (hq : q.locator = .lines p) (c : Corpus) (ms : Markers) :
    q.sitesByFile c ms = .ok ((c.inScope q.scope).filterMap fun f =>
      (q.region? f).map (q.lineSites p ms f)) :=
  mapM_filterMap_eq_ok fun f _ => sitesIn_lines hq ms f

/-- With places that are lines only the function the rule is confined to can be absent. -/
theorem absent?_lines (hq : q.locator = .lines p) (c : Corpus) (ms : Markers) :
    ((q.absent? ((c.inScope q.scope).filterMap fun f =>
      (q.region? f).map (q.lineSites p ms f))).bind
        (q.onMissing.finding? q.id q.scope.describe ·)).toList = q.absences c := by
  have hconstruct : q.locator.construct? = none := by rw [hq]; rfl
  unfold absences absent?
  cases q.within with
  | none => simp only [hconstruct]; rfl
  | some name =>
    generalize hread : ((c.inScope q.scope).filterMap fun f =>
      (q.region? f).map (q.lineSites p ms f)) = read
    cases read with
    | nil =>
      have hall : ((c.inScope q.scope).all fun f => (q.region? f).isNone) = true := by
        simpa [List.filterMap_eq_nil_iff] using hread
      rw [hall]
      rfl
    | cons sites read =>
      have hall : ((c.inScope q.scope).all fun f => (q.region? f).isNone) = false := by
        rw [← Bool.not_eq_true]
        intro hall
        have hnil : ((c.inScope q.scope).filterMap fun f =>
            (q.region? f).map (q.lineSites p ms f)) = [] := by
          simpa [List.filterMap_eq_nil_iff] using hall
        rw [hnil] at hread
        cases hread
      rw [hall]
      simp only [hconstruct]
      rfl

theorem filter_flatten_read (files : List SourceFile) (ms : Markers) :
    ((files.filterMap fun f => (q.region? f).map (q.lineSites p ms f)).flatten.filter
      (!q.condition ·)) = files.flatMap (q.reportedIn p ms) := by
  induction files with
  | nil => rfl
  | cons f files ih =>
    rw [List.flatMap_cons, ← ih, List.filterMap_cons, reportedIn]
    cases q.region? f with
    | none => rfl
    | some region =>
      rw [Option.map_some, List.flatten_cons, List.filter_append]

/-- What a rule about lines finds. -/
theorem findings_lines (hq : q.locator = .lines p) (c : Corpus) (ms : Markers) :
    q.findings c ms =
      .ok (((c.inScope q.scope).flatMap (q.reportedIn p ms)).map q.finding ++ q.absences c) := by
  rw [findings, sitesByFile_lines hq, ok_bind]
  dsimp only
  rw [filter_flatten_read, absent?_lines hq]
  rfl

/-- What the rule finds, if it does not break off. -/
def found (q : SiteRule) (c : Corpus) (ms : Markers) : List Finding :=
  (q.findings c ms).toOption.getD []

theorem found_lines (hq : q.locator = .lines p) (c : Corpus) (ms : Markers) :
    q.found c ms =
      ((c.inScope q.scope).flatMap (q.reportedIn p ms)).map q.finding ++ q.absences c := by
  rw [found, findings_lines hq]
  rfl

/-- Line `n` of the file is reported. -/
def reports (q : SiteRule) (p : Pattern) (ms : Markers) (file : SourceFile) (n : Nat) : Bool :=
  (q.region? file).any fun region =>
    inRegion region n && p.hits LineClass.isCode ms file n &&
      !q.condition (q.withContext (file.codeRows ms) region { file, line := n, matched := [] })

theorem hits_of_reports {ms : Markers} {file : SourceFile} {n : Nat}
    (h : q.reports p ms file n = true) : p.hits LineClass.isCode ms file n = true := by
  obtain ⟨region, -, h⟩ := (Option.any_eq_true _ _).mp h
  exact (Bool.and_eq_true_iff.mp (Bool.and_eq_true_iff.mp h).1).2

/-- The surroundings of a place depend on its line, its construct and the length of its file. -/
theorem context_congr {s s' : Site} (q : SiteRule) (rows : List CodeRow) (region : Option Region)
    (hline : s.line = s'.line) (hconstruct : s.construct = s'.construct)
    (hcount : s.file.lineCount = s'.file.lineCount) :
    (q.withContext rows region s).context = (q.withContext rows region s').context := by
  have hextent : q.extent s region = q.extent s' region := by
    unfold extent
    rw [hline, hconstruct, hcount]
  unfold withContext
  rw [hextent]

theorem isSome_lineSite? (file : SourceFile) (lines : List Text) (p : Pattern) (row : CodeRow) :
    (lineSite? file lines p row).isSome = p.isMatch row.masked := by
  rw [lineSite?, Option.isSome_map]
  rfl

theorem lineSite?_eq_some {file : SourceFile} {lines : List Text} {row : CodeRow} {site : Site}
    (h : lineSite? file lines p row = some site) :
    site.file = file ∧ site.line = row.number ∧ site.construct = none := by
  obtain ⟨span, -, rfl⟩ := Option.map_eq_some_iff.mp h
  exact ⟨rfl, rfl, rfl⟩

theorem file_of_mem_reportedIn {ms : Markers} {file : SourceFile} {site : Site}
    (h : site ∈ q.reportedIn p ms file) : site.file = file := by
  unfold reportedIn at h
  split at h
  · cases h
  · obtain ⟨place, hplace, rfl⟩ := List.mem_map.mp (List.mem_filter.mp h).1
    obtain ⟨row, -, hsite⟩ := List.mem_filterMap.mp hplace
    exact (lineSite?_eq_some hsite).1

theorem lineSites_eq (q : SiteRule) (p : Pattern) (ms : Markers) (file : SourceFile)
    (region : Option Region) :
    q.lineSites p ms file region = (List.range' 1 file.lineCount).filterMap fun n =>
      if inRegion region n && (file.codeRow ms n).lineClass.isCode then
        (lineSite? file file.lines p (file.codeRow ms n)).map
          (q.withContext (file.codeRows ms) region)
      else none := by
  have hsites : ∀ rows, (((file.codeRows ms).filter fun row =>
      inRegion region row.number && row.lineClass.isCode).filterMap
        (lineSite? file file.lines p)).map (q.withContext rows region) =
      (List.range' 1 file.lineCount).filterMap fun n =>
        if inRegion region n && (file.codeRow ms n).lineClass.isCode then
          (lineSite? file file.lines p (file.codeRow ms n)).map (q.withContext rows region)
        else none := by
    intro rows
    rw [file.codeRows_eq_map ms, List.filter_map, List.filterMap_map, List.map_filterMap,
      List.filterMap_filter]
    rfl
  exact hsites _

/-- The lines of the places that are reported, in order and each once. -/
theorem reportedIn_lines (hq : q.ReadsLines p) (ms : Markers) (file : SourceFile) :
    (q.reportedIn p ms file).map (·.line) =
      (List.range' 1 file.lineCount).filter (q.reports p ms file) := by
  unfold reportedIn reports
  cases q.region? file with
  | none => simp
  | some region =>
    dsimp only
    rw [lineSites_eq, List.filter_filterMap, List.map_filterMap, ← List.filterMap_eq_filter]
    refine List.filterMap_congr fun n hn => ?_
    have hn := Checked.hasLine_of_mem_range' hn
    let bare : Site := { file, line := n, matched := [] }
    show _ = if (inRegion region n && p.hits LineClass.isCode ms file n &&
      !q.condition (q.withContext (file.codeRows ms) region bare)) = true then some n else none
    rw [Pattern.hits_codeRow hn, ← Bool.and_assoc]
    cases inRegion region n && (file.codeRow ms n).lineClass.isCode with
    | false => rfl
    | true =>
      rw [if_pos rfl, Bool.true_and, ← isSome_lineSite? file file.lines]
      cases hsite : lineSite? file file.lines p (file.codeRow ms n) with
      | none => rfl
      | some site =>
        obtain ⟨hfile, hline, hconstruct⟩ := lineSite?_eq_some hsite
        have hcontext : (q.withContext (file.codeRows ms) region site).context =
            (q.withContext (file.codeRows ms) region bare).context :=
          context_congr q _ region hline hconstruct (congrArg SourceFile.lineCount hfile)
        rw [Option.map_some, Option.filter_some, hq.condition_congr _ _ hcontext]
        cases q.condition (q.withContext (file.codeRows ms) region bare) with
        | false => exact congrArg some hline
        | true => rfl

/-- The lines that are reported, with the paths of their files. -/
def reportedLines (q : SiteRule) (p : Pattern) (c : Corpus) (ms : Markers) :
    List (String × Nat) :=
  (c.inScope q.scope).flatMap fun f =>
    ((List.range' 1 f.lineCount).filter (q.reports p ms f)).map (f.path, ·)

/-- The findings stand on the lines that are reported, apart from what is absent. -/
theorem found_places (hq : q.ReadsLines p) (c : Corpus) (ms : Markers) :
    (q.found c ms).map Finding.place =
      (q.reportedLines p c ms).map (fun l => (l.1, some l.2, q.severity, q.check)) ++
        (q.absences c).map Finding.place := by
  rw [found_lines hq.locator_eq, List.map_append]
  congr 1
  rw [reportedLines, List.map_flatMap, List.map_flatMap, List.map_flatMap]
  refine List.flatMap_congr fun f _ => ?_
  rw [← reportedIn_lines hq, List.map_map, List.map_map, List.map_map]
  refine List.map_congr_left fun site hsite => ?_
  obtain rfl := file_of_mem_reportedIn hsite
  simp [Finding.place, finding]

/-- What is absent has no line. -/
theorem line_of_mem_absences {q : SiteRule} {c : Corpus} {v : Finding} (h : v ∈ q.absences c) :
    v.line = none := by
  unfold absences at h
  split at h
  · cases h
  · split_ifs at h
    · obtain ⟨severity, -, rfl⟩ := Option.map_eq_some_iff.mp (Option.mem_toList.mp h)
      rfl
    · cases h

theorem mem_reportedLines {c : Corpus} {ms : Markers} {path : String} {n : Nat} :
    (path, n) ∈ q.reportedLines p c ms ↔
      ∃ f ∈ c.inScope q.scope, f.path = path ∧ q.reports p ms f n = true := by
  unfold reportedLines
  rw [List.mem_flatMap]
  refine exists_congr fun f => and_congr_right fun _ => ?_
  constructor
  · intro h
    obtain ⟨k, hk, heq⟩ := List.mem_map.mp h
    obtain ⟨rfl, rfl⟩ := Prod.mk.inj heq
    exact ⟨rfl, (List.mem_filter.mp hk).2⟩
  · rintro ⟨rfl, h⟩
    have hline := Pattern.hasLine_of_hits (hits_of_reports h)
    have hrange : n ∈ List.range' 1 f.lineCount :=
      List.mem_range'_1.mpr ⟨hline.pos, by have := hline.le_count; omega⟩
    exact List.mem_map_of_mem (List.mem_filter.mpr ⟨hrange, h⟩)

/-- The findings with a line are about the lines that are reported. -/
theorem exists_mem_found_iff (hq : q.ReadsLines p) {c : Corpus} {ms : Markers} {path : String}
    {n : Nat} : (∃ v ∈ q.found c ms, v.path = path ∧ v.line = some n) ↔
      (path, n) ∈ q.reportedLines p c ms := by
  have hplaces := found_places hq c ms
  constructor
  · rintro ⟨v, hv, rfl, hline⟩
    have hplace : v.place ∈ (q.found c ms).map Finding.place := List.mem_map_of_mem hv
    rw [hplaces, List.mem_append] at hplace
    rcases hplace with hplace | hplace
    · obtain ⟨l, hl, heq⟩ := List.mem_map.mp hplace
      have hpath : l.1 = v.path := congrArg (·.1) heq
      have hsome : some l.2 = v.line := congrArg (·.2.1) heq
      rw [hline, Option.some.injEq] at hsome
      rwa [← hpath, ← hsome]
    · obtain ⟨w, hw, heq⟩ := List.mem_map.mp hplace
      have hnone : w.line = v.line := congrArg (·.2.1) heq
      rw [line_of_mem_absences hw, hline] at hnone
      cases hnone
  · intro h
    have hplace : (path, some n, q.severity, q.check) ∈ (q.found c ms).map Finding.place := by
      rw [hplaces]
      exact List.mem_append_left _ (List.mem_map_of_mem h)
    obtain ⟨v, hv, heq⟩ := List.mem_map.mp hplace
    exact ⟨v, hv, congrArg (·.1) heq, congrArg (·.2.1) heq⟩

/-- What is absent are the findings without a line. -/
theorem mem_absences_iff (hq : q.ReadsLines p) {c : Corpus} {ms : Markers} {v : Finding} :
    v ∈ q.absences c ↔ v ∈ q.found c ms ∧ v.line = none := by
  rw [found_lines hq.locator_eq, List.mem_append]
  constructor
  · intro hv
    exact ⟨Or.inr hv, line_of_mem_absences hv⟩
  · rintro ⟨hv | hv, hline⟩
    · obtain ⟨site, -, rfl⟩ := List.mem_map.mp hv
      rw [finding, Finding.withSnippet_line] at hline
      cases hline
    · exact hv

end SiteRule

theorem CompiledRule.findings_sites (head : RuleHead) {rules : List SiteRule}
    (reads : ∀ q ∈ rules, ∃ p, q.ReadsLines p) (c : Corpus) (ms : Markers) :
    findings ⟨head, .sites rules⟩ c ms = .ok (rules.flatMap fun q => q.found c ms) := by
  refine mapM_flatten_eq_ok fun q hq => ?_
  obtain ⟨p, hp⟩ := reads q hq
  rw [SiteRule.found_lines hp.locator_eq, SiteRule.findings_lines hp.locator_eq]

/-! ## What declarations compile to -/

namespace RuleHead

variable {h : RuleHead} {q : SiteRule}

/-- The rule about a forbidden pattern, which reports each line that it finds. -/
structure Forbids (h : RuleHead) (check : Option String) (p : ForbiddenPattern) (q : SiteRule)
    (pattern : Pattern) : Prop extends q.ReadsLines pattern where
  compiled : Pattern.compile p.regex = .ok pattern
  within_eq : q.within = none
  condition_eq : ∀ s, q.condition s = false
  scope_eq : q.scope = h.scope
  check_eq : q.check = check

theorem forbid_forbids {check : Option String} {p : ForbiddenPattern} {q : SiteRule}
    (hq : h.forbid check p = .ok q) : ∃ pattern, h.Forbids check p q pattern := by
  obtain ⟨pattern, hpattern, hq⟩ := bind_eq_ok.mp hq
  obtain rfl := pure_eq_ok.mp hq
  exact ⟨pattern, ⟨rfl, fun _ _ _ => rfl⟩, mapError_eq_ok.mp hpattern, rfl, fun _ => rfl, rfl, rfl⟩

/-- The rule about anchors that have nothing of what is needed close to them. -/
structure Watches (h : RuleHead) (function : Option String) (anchor needed : Pattern)
    (before after : Nat) (q : SiteRule) : Prop extends q.ReadsLines anchor where
  within_eq : q.within = function
  neighborhood_eq : q.neighborhood = .window before after
  condition_eq : ∀ s, q.condition s = s.contextMatches needed
  scope_eq : q.scope = h.scope
  id_eq : q.id = h.id
  onMissing_eq : q.onMissing = h.onMissing

theorem window_watches {function : Option String} {anchor required : String}
    {before after : Nat} {message : Option String}
    (hq : h.window function anchor required before after message = .ok q) :
    ∃ a b, Pattern.compile anchor = .ok a ∧ Pattern.compile required = .ok b ∧
      h.Watches function a b before after q := by
  obtain ⟨a, ha, hq⟩ := bind_eq_ok.mp hq
  obtain ⟨b, hb, hq⟩ := bind_eq_ok.mp hq
  obtain rfl := pure_eq_ok.mp hq
  refine ⟨a, b, mapError_eq_ok.mp ha, mapError_eq_ok.mp hb, ⟨rfl, ?_⟩, rfl, rfl, fun _ => rfl,
    rfl, rfl, rfl⟩
  intro s s' hcontext
  show s.contextMatches b = s'.contextMatches b
  rw [Site.contextMatches, Site.contextMatches, hcontext]

end RuleHead

/-- What a rule of each kind compiles to. -/
inductive Checker.Compiled : RuleKind → Checker → Prop
  | forbidden (patterns : List ForbiddenPattern) {rules : List SiteRule}
      (reads : ∀ q ∈ rules, ∃ p, q.ReadsLines p) : Compiled (.forbidden patterns) (.sites rules)
  | window (function : Option String) (anchor required : String) (before after : Nat)
      (message : Option String) {rules : List SiteRule}
      (reads : ∀ q ∈ rules, ∃ p, q.ReadsLines p) :
      Compiled (.window function anchor required before after message) (.sites rules)
  | enumCoverage (enum : String) (files : List String) (function : String) (argument : Nat)
      (source : Option String) (scope : FileScope) (filter : Option Pattern) :
      Compiled (.enumCoverage enum files function argument source)
        (.enumCoverage enum scope function argument filter)
  | functionBody (function : String) (requirements : List BodyRequirement)
      (names : List (String × String)) (rs : List Requirement)
      (order : List (Requirement × Requirement)) :
      Compiled (.functionBody function requirements names) (.functionBody function rs order)
  | structField (struct field : String) (type : Option String) :
      Compiled (.structField struct field type) (.structField struct field type)
  | pairedCalls (pairs : List CallPair) : Compiled (.pairedCalls pairs) (.pairedCalls pairs)

theorem CompiledRule.ofSpec_compiled {s : RuleSpec} {r : CompiledRule} (hr : ofSpec s = .ok r) :
    Checker.Compiled s.kind r.checker := by
  obtain ⟨head, -, hr⟩ := bind_eq_ok.mp hr
  obtain ⟨checker, hchecker, hr⟩ := bind_eq_ok.mp hr
  obtain rfl := pure_eq_ok.mp hr
  cases hs : s.kind with
  | forbidden patterns =>
    rw [hs] at hchecker
    obtain ⟨rules, hrules, rfl⟩ := map_eq_ok.mp hchecker
    refine .forbidden patterns fun q hq => ?_
    obtain ⟨x, -, hforbid⟩ := mem_of_mapM_eq_ok hrules hq
    obtain ⟨p, hforbids⟩ := RuleHead.forbid_forbids hforbid
    exact ⟨p, hforbids.toReadsLines⟩
  | window function anchor required before after message =>
    rw [hs] at hchecker
    obtain ⟨q, hq, hchecker⟩ := bind_eq_ok.mp hchecker
    obtain rfl := pure_eq_ok.mp hchecker
    obtain ⟨p, needed, -, -, hwatches⟩ := RuleHead.window_watches hq
    refine .window function anchor required before after message fun q' hq' => ?_
    obtain rfl := List.mem_singleton.mp hq'
    exact ⟨p, hwatches.toReadsLines⟩
  | enumCoverage enum enumFiles function argument source =>
    rw [hs] at hchecker
    obtain ⟨scope, -, hchecker⟩ := bind_eq_ok.mp hchecker
    obtain ⟨filter, -, hchecker⟩ := bind_eq_ok.mp hchecker
    obtain rfl := pure_eq_ok.mp hchecker
    exact .enumCoverage enum enumFiles function argument source scope filter
  | functionBody function requirements names =>
    rw [hs] at hchecker
    obtain ⟨rs, -, hchecker⟩ := bind_eq_ok.mp hchecker
    obtain ⟨order, -, hchecker⟩ := bind_eq_ok.mp hchecker
    obtain rfl := pure_eq_ok.mp hchecker
    exact .functionBody function requirements names rs order
  | structField struct field type =>
    rw [hs] at hchecker
    obtain rfl := pure_eq_ok.mp hchecker
    exact .structField struct field type
  | pairedCalls pairs =>
    rw [hs] at hchecker
    obtain rfl := pure_eq_ok.mp hchecker
    exact .pairedCalls pairs

end StructuralRules
