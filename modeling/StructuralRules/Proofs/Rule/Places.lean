import StructuralRules.Proofs.Source.Calls
import StructuralRules.Proofs.Text.Search
import StructuralRules.Rule.Basic

/-!
# Where findings point

A finding with a line shows a line that exists, in a file that the rule looks
at. A finding without one reports an absent construct. Each kind of rule gets
its line numbers in its own way: from the rows of a file, from the offset of a
call, from a definition and its members, or from a match inside a function.
-/

set_option autoImplicit false

namespace StructuralRules

open Text

/-! ## What findings point at -/

/-- The globs of the files that findings with a line are about. -/
def RuleSpec.placeFiles (s : RuleSpec) : List String :=
  match s.kind with
  | .enumCoverage _ enumFiles .. => enumFiles
  | _ => s.files

/-- Kind and name of the construct without which the rule has nothing to look at. -/
def RuleKind.construct? : RuleKind → Option (String × String)
  | .forbidden _ | .pairedCalls _ => none
  | .window function .. => function.map ("function", ·)
  | .enumCoverage enum .. => some ("enum", enum)
  | .functionBody function .. => some ("function", function)
  | .structField struct .. => some ("struct", struct)

/-- `v` is about line `n` of `f`, which it shows unless it is blank. The rest is as `s` says. -/
structure Finding.PointsAt (v : Finding) (s : RuleSpec) (f : SourceFile) (n : Nat) : Prop where
  ruleId_eq : v.ruleId = s.id
  path_eq : v.path = f.path
  line_eq : v.line = some n
  hasLine : f.HasLine n
  severity_eq : v.severity = s.severity
  fix_eq : v.fix = s.fix
  shows : ∃ l, f.line? n = some l ∧ (v.snippet = none ↔ ∀ ch ∈ l, isBlank ch = true) ∧
    ∀ shown, v.snippet = some shown → shown.toList = trim l

/-- `v` reports that the construct `s` is about does not exist. -/
def Finding.ReportsAbsence (v : Finding) (s : RuleSpec) : Prop :=
  ∃ scope kind name, FileScope.compile s.files = .ok scope ∧
    s.kind.construct? = some (kind, name) ∧
    s.onMissing.finding? s.id scope.describe s!"{kind} '{name}' not found" = some v

/-- The two things that a finding of `s` can be. -/
inductive Finding.Placed (s : RuleSpec) (c : Corpus) (v : Finding) : Prop
  | at_line {scope : FileScope} {f : SourceFile} {n : Nat}
      (compiled : FileScope.compile s.placeFiles = .ok scope) (inScope : f ∈ c.inScope scope)
      (points : v.PointsAt s f n)
  | absent (reports : v.ReportsAbsence s)

namespace Finding

theorem withSnippet_eq (v : Finding) (l : Text) :
    v.withSnippet l =
      { v with snippet := if trim l = [] then v.snippet else some (String.ofList (trim l)) } := by
  unfold withSnippet
  split
  · next h => rw [if_pos h]
  · next c t h =>
    rw [h, if_neg (List.cons_ne_nil c t)]

@[simp] theorem withSnippet_path (v : Finding) (l : Text) :
    (v.withSnippet l).path = v.path := by
  rw [withSnippet_eq]

@[simp] theorem withSnippet_line (v : Finding) (l : Text) :
    (v.withSnippet l).line = v.line := by
  rw [withSnippet_eq]

@[simp] theorem withSnippet_severity (v : Finding) (l : Text) :
    (v.withSnippet l).severity = v.severity := by
  rw [withSnippet_eq]

@[simp] theorem withSnippet_check (v : Finding) (l : Text) :
    (v.withSnippet l).check = v.check := by
  rw [withSnippet_eq]

@[simp] theorem withSnippet_message (v : Finding) (l : Text) :
    (v.withSnippet l).message = v.message := by
  rw [withSnippet_eq]

theorem pointsAt_withSnippet {v : Finding} {s : RuleSpec} {f : SourceFile} {n : Nat}
    (hid : v.ruleId = s.id) (hpath : v.path = f.path) (hline : v.line = some n)
    (hn : f.HasLine n) (hseverity : v.severity = s.severity) (hfix : v.fix = s.fix)
    (hsnippet : v.snippet = none) :
    (v.withSnippet ((f.line? n).getD [])).PointsAt s f n := by
  obtain ⟨l, hl⟩ := hn.exists_line
  rw [withSnippet_eq, hl, Option.getD_some]
  refine ⟨hid, hpath, hline, hn, hseverity, hfix, l, hl, ?_, ?_⟩
  · rw [← trim_eq_nil]
    split_ifs with hblank
    · simp [hsnippet, hblank]
    · simp [hblank]
  · intro shown hshown
    dsimp only at hshown
    split_ifs at hshown with hblank
    · rw [hsnippet] at hshown
      cases hshown
    · rw [← Option.some.inj hshown, String.toList_ofList]

theorem ReportsAbsence.line_eq {v : Finding} {s : RuleSpec} (h : v.ReportsAbsence s) :
    v.ruleId = s.id ∧ v.line = none := by
  obtain ⟨scope, kind, name, -, -, h⟩ := h
  obtain ⟨severity, -, rfl⟩ := Option.map_eq_some_iff.mp h
  exact ⟨rfl, rfl⟩

end Finding

/-! ## Site rules -/

theorem SourceFile.codeRows_hasLine {f : SourceFile} {ms : Markers} {row : CodeRow}
    (h : row ∈ f.codeRows ms) : f.HasLine row.number := by
  obtain ⟨⟨⟨n, l⟩, cls⟩, hmem, rfl⟩ := List.mem_map.mp h
  obtain ⟨⟨l', n'⟩, hl', hnl⟩ := List.mem_map.mp (List.of_mem_zip hmem).1
  obtain ⟨rfl, rfl⟩ := Prod.mk.inj hnl
  have hrange := List.mem_zipIdx hl'
  have hcount : f.masked.lines.length = f.lineCount := f.lineCount_masked
  exact ⟨hrange.1, by dsimp only; omega⟩

namespace SiteRule

variable {q : SiteRule} {c : Corpus} {ms : Markers}

/-- Whatever the rule looks for, it finds it on lines of the file. -/
theorem locate_hasLine {file : SourceFile} {region : Option Region} {sites : List Site}
    (h : q.locate file (file.codeRows ms) ms region = .ok sites) :
    ∀ p ∈ sites, p.file = file ∧ file.HasLine p.line := by
  intro p hp
  unfold locate at h
  split at h
  · obtain rfl := Except.ok.inj h
    obtain ⟨row, hrow, hsite⟩ := List.mem_filterMap.mp hp
    obtain ⟨span, -, rfl⟩ := Option.map_eq_some_iff.mp hsite
    exact ⟨rfl, SourceFile.codeRows_hasLine (List.mem_of_mem_filter hrow)⟩
  · obtain rfl := Except.ok.inj h
    obtain ⟨call, hcall, rfl⟩ := List.mem_map.mp hp
    exact ⟨rfl, Call.all_hasLine (List.mem_of_mem_filter hcall)⟩
  · obtain rfl := Except.ok.inj h
    obtain ⟨d, hd, rfl⟩ := Option.map_eq_some_iff.mp (Option.mem_toList.mp hp)
    exact ⟨rfl, FunctionDef.find?_hasLine hd (Nat.zero_le _)⟩
  · obtain ⟨d?, hd, h⟩ := bind_eq_ok.mp h
    obtain rfl := pure_eq_ok.mp h
    obtain ⟨d, rfl, rfl⟩ := Option.map_eq_some_iff.mp (Option.mem_toList.mp hp)
    exact ⟨rfl, (StructDef.find?_hasLine hd).1⟩
  · obtain rfl := Except.ok.inj h
    obtain ⟨d, hd, rfl⟩ := Option.map_eq_some_iff.mp (Option.mem_toList.mp hp)
    exact ⟨rfl, (EnumDef.find?_hasLine hd).1⟩

theorem sitesIn_hasLine {file : SourceFile} {sites : List Site}
    (h : q.sitesIn file ms = .ok (some sites)) :
    ∀ p ∈ sites, p.file = file ∧ file.HasLine p.line := by
  unfold sitesIn at h
  split at h
  · cases h
  · obtain ⟨bare, hbare, h⟩ := bind_eq_ok.mp h
    rw [pure_eq_ok, Option.some.injEq] at h
    subst h
    intro p hp
    obtain ⟨p', hp', rfl⟩ := List.mem_map.mp hp
    exact locate_hasLine hbare p' hp'

theorem sitesByFile_hasLine {read : List (List Site)} (h : q.sitesByFile c ms = .ok read) :
    ∀ p ∈ read.flatten, p.file ∈ c.inScope q.scope ∧ p.file.HasLine p.line := by
  obtain ⟨all, hall, h⟩ := bind_eq_ok.mp h
  obtain rfl := pure_eq_ok.mp h
  intro p hp
  obtain ⟨sites, hsites, hp⟩ := List.mem_flatten.mp hp
  obtain ⟨found, hfound, rfl⟩ := List.mem_filterMap.mp hsites
  obtain ⟨file, hfile, hread⟩ := mem_of_mapM_eq_ok hall hfound
  obtain ⟨rfl, hline⟩ := sitesIn_hasLine hread p hp
  exact ⟨hfile, hline⟩

/-- What a rule over sites takes over from the declaration it is compiled from. -/
structure Follows (q : SiteRule) (s : RuleSpec) : Prop where
  id_eq : q.id = s.id
  severity_eq : q.severity = s.severity
  fix_eq : q.fix = s.fix
  compiled : FileScope.compile s.placeFiles = .ok q.scope
  absent : ∀ read message v, q.absent? read = some message →
    q.onMissing.finding? q.id q.scope.describe message = some v → v.ReportsAbsence s

theorem Follows.placed {s : RuleSpec} (hq : q.Follows s) {fs : List Finding}
    (h : q.findings c ms = .ok fs) : ∀ v ∈ fs, v.Placed s c := by
  obtain ⟨read, hread, h⟩ := bind_eq_ok.mp h
  obtain rfl := pure_eq_ok.mp h
  intro v hv
  rcases List.mem_append.mp hv with hv | hv
  · obtain ⟨p, hp, rfl⟩ := List.mem_map.mp hv
    obtain ⟨hfile, hline⟩ := sitesByFile_hasLine hread p (List.mem_of_mem_filter hp)
    exact .at_line hq.compiled hfile
      (Finding.pointsAt_withSnippet hq.id_eq rfl rfl hline hq.severity_eq hq.fix_eq rfl)
  · obtain ⟨message, hmessage, hv⟩ := Option.bind_eq_some_iff.mp (Option.mem_toList.mp hv)
    exact .absent (hq.absent read message v hmessage hv)

end SiteRule

/-! ## The other kinds -/

theorem Text.newlines_slice_le (t : Text) (a b : Nat) : newlines (slice t a b) ≤ newlines t := by
  rw [slice]
  cases hcut : slice? t a b with
  | none => exact Nat.zero_le _
  | some u =>
    obtain ⟨p, r, rfl, -, -⟩ := slice?_eq_some.mp hcut
    simp only [newlines, List.count_append, Option.getD_some]
    omega

theorem Corpus.mem_inScope {c : Corpus} {scope : FileScope} {f : SourceFile} :
    f ∈ c.inScope scope ↔ f ∈ c.files ∧ scope.isMatch f.path = true :=
  List.mem_filter

/-- The first file in which something is found, and what is found in it. -/
theorem of_findSome?_pair {α β : Type} {find : α → Option β} {xs : List α} {x : α} {y : β}
    (h : xs.findSome? (fun x => (find x).map (x, ·)) = some (x, y)) : x ∈ xs ∧ find x = some y := by
  obtain ⟨x', hx', hfind⟩ := List.exists_of_findSome?_eq_some h
  obtain ⟨y', hy', hpair⟩ := Option.map_eq_some_iff.mp hfind
  obtain ⟨rfl, rfl⟩ := Prod.mk.inj hpair
  exact ⟨hx', hy'⟩

theorem FunctionDef.of_firstIn? {c : Corpus} {scope : FileScope} {name : String}
    {file : SourceFile} {f : FunctionDef} (h : firstIn? c scope name = some (file, f)) :
    file ∈ c.inScope scope ∧ find? file name = some f :=
  of_findSome?_pair h

theorem EnumDef.of_firstIn? {c : Corpus} {scope : FileScope} {name : String} {ms : Markers}
    {file : SourceFile} {d : EnumDef} (h : firstIn? c scope name ms = some (file, d)) :
    file ∈ c.inScope scope ∧ find? file name ms = some d :=
  of_findSome?_pair h

namespace RuleHead

/-- The head of a compiled rule says what the declaration says. -/
structure Follows (h : RuleHead) (s : RuleSpec) : Prop where
  id_eq : h.id = s.id
  severity_eq : h.severity = s.severity
  fix_eq : h.fix = s.fix
  onMissing_eq : h.onMissing = s.onMissing
  compiled : FileScope.compile s.files = .ok h.scope

theorem ofSpec_follows {s : RuleSpec} {h : RuleHead} (hs : RuleHead.ofSpec s = .ok h) :
    h.Follows s := by
  obtain ⟨scope, hscope, hh⟩ := bind_eq_ok.mp hs
  obtain rfl := pure_eq_ok.mp hh
  exact ⟨rfl, rfl, rfl, rfl, mapError_eq_ok.mp hscope⟩

namespace Follows

variable {h : RuleHead} {s : RuleSpec} {c : Corpus} {ms : Markers}

theorem points (hh : h.Follows s) {f : SourceFile} {n : Nat} (hn : f.HasLine n)
    (check message : String) : (h.finding f n check message).PointsAt s f n :=
  Finding.pointsAt_withSnippet hh.id_eq rfl rfl hn hh.severity_eq hh.fix_eq rfl

theorem missing_placed (hh : h.Follows s) {kind name : String}
    (hs : s.kind.construct? = some (kind, name)) : ∀ v ∈ h.missing kind name, v.Placed s c := by
  intro v hv
  have hfinding := Option.mem_toList.mp hv
  rw [hh.onMissing_eq, hh.id_eq] at hfinding
  exact .absent ⟨h.scope, kind, name, hh.compiled, hs, hfinding⟩

theorem forbid_follows (hh : h.Follows s) {patterns : List ForbiddenPattern}
    (hs : s.kind = .forbidden patterns) {check : Option String} {p : ForbiddenPattern}
    {q : SiteRule} (hq : h.forbid check p = .ok q) : q.Follows s := by
  obtain ⟨pattern, -, hq⟩ := bind_eq_ok.mp hq
  obtain rfl := pure_eq_ok.mp hq
  refine ⟨hh.id_eq, hh.severity_eq, hh.fix_eq, ?_, ?_⟩
  · rw [RuleSpec.placeFiles, hs]
    exact hh.compiled
  · intro read message v hmessage
    cases hmessage

theorem window_follows (hh : h.Follows s) {function : Option String} {anchor required : String}
    {before after : Nat} {message : Option String}
    (hs : s.kind = .window function anchor required before after message) {q : SiteRule}
    (hq : h.window function anchor required before after message = .ok q) : q.Follows s := by
  obtain ⟨anchored, -, hq⟩ := bind_eq_ok.mp hq
  obtain ⟨needed, -, hq⟩ := bind_eq_ok.mp hq
  obtain rfl := pure_eq_ok.mp hq
  refine ⟨hh.id_eq, hh.severity_eq, hh.fix_eq, ?_, ?_⟩
  · rw [RuleSpec.placeFiles, hs]
    exact hh.compiled
  · intro read text v htext hv
    unfold SiteRule.absent? at htext
    split at htext
    · next name hname =>
      dsimp only at hname hv
      rw [hh.onMissing_eq, hh.id_eq, ← Option.some.inj htext] at hv
      exact ⟨h.scope, "function", name, hh.compiled, by simp [hs, RuleKind.construct?, hname], hv⟩
    · cases htext

theorem checkCoverage_placed (hh : h.Follows s) {enum function : String} {enumFiles : List String}
    {argument : Nat} {valueFilter : Option String}
    (hs : s.kind = .enumCoverage enum enumFiles function argument valueFilter)
    {enumScope : FileScope} (hscope : FileScope.compile enumFiles = .ok enumScope)
    (filter : Option Pattern) :
    ∀ v ∈ h.checkCoverage c ms enum enumScope function argument filter, v.Placed s c := by
  intro v hv
  unfold checkCoverage at hv
  split at hv
  · exact hh.missing_placed (by rw [hs]; rfl) v hv
  · next file d hfirst =>
    obtain ⟨w, hw, rfl⟩ := List.mem_map.mp hv
    obtain ⟨hf, hd⟩ := EnumDef.of_firstIn? hfirst
    refine .at_line ?_ hf (hh.points ((EnumDef.find?_hasLine hd).2 w ?_) _ _)
    · rw [RuleSpec.placeFiles, hs]
      exact hscope
    · exact List.mem_of_mem_filter hw

theorem checkFunction_placed (hh : h.Follows s) {function : String}
    {requirements : List BodyRequirement} {names : List (String × String)}
    (hs : s.kind = .functionBody function requirements names) (rs : List Requirement)
    (order : List (Requirement × Requirement)) :
    ∀ v ∈ h.checkFunction c function rs order, v.Placed s c := by
  intro v hv
  have hcompiled : FileScope.compile s.placeFiles = .ok h.scope := by
    rw [RuleSpec.placeFiles, hs]
    exact hh.compiled
  unfold checkFunction at hv
  split at hv
  · exact hh.missing_placed (by rw [hs]; rfl) v hv
  · next file d hfirst =>
    obtain ⟨hf, hd⟩ := FunctionDef.of_firstIn? hfirst
    rcases List.mem_append.mp hv with hv | hv
    · obtain ⟨r, -, rfl⟩ := List.mem_map.mp hv
      exact .at_line hcompiled hf (hh.points (FunctionDef.find?_hasLine hd (Nat.zero_le _)) _ _)
    · obtain ⟨⟨first, second⟩, -, hv⟩ := List.mem_filterMap.mp hv
      dsimp only at hv
      split at hv
      · obtain rfl := Option.some.inj hv
        -- The match lies in the masked body, which has as many lines as the body.
        have hle : newlines (slice d.text.masked 0
            (((first.pattern.find? d.text.masked).map (·.start)).getD 0)) ≤ newlines d.text := by
          rw [← (blanked_masked d.text).newlines_eq]
          exact newlines_slice_le _ _ _
        exact .at_line hcompiled hf (hh.points (FunctionDef.find?_hasLine hd hle) _ _)
      · cases hv

theorem firstOf?_eq_ok {name : String} {files : List SourceFile} {found : SourceFile × StructDef}
    (hfound : StructDef.firstOf? name ms files = .ok (some found)) :
    found.1 ∈ files ∧ StructDef.find? found.1 name ms = .ok (some found.2) := by
  induction files with
  | nil => cases hfound
  | cons f fs ih =>
    rw [StructDef.firstOf?] at hfound
    obtain ⟨d?, hd, hfound⟩ := bind_eq_ok.mp hfound
    cases d? with
    | none =>
      obtain ⟨hmem, hfind⟩ := ih hfound
      exact ⟨List.mem_cons_of_mem f hmem, hfind⟩
    | some d =>
      rw [pure_eq_ok, Option.some.injEq] at hfound
      subst hfound
      exact ⟨List.mem_cons_self, hd⟩

theorem checkField_placed (hh : h.Follows s) {struct field : String} {type : Option String}
    (hs : s.kind = .structField struct field type) {fs : List Finding}
    (hfs : h.checkField c ms struct field type = .ok fs) : ∀ v ∈ fs, v.Placed s c := by
  have hcompiled : FileScope.compile s.placeFiles = .ok h.scope := by
    rw [RuleSpec.placeFiles, hs]
    exact hh.compiled
  intro v hv
  unfold checkField at hfs
  obtain ⟨found, hfound, hfs⟩ := bind_eq_ok.mp hfs
  dsimp only at hfs
  split at hfs
  · obtain rfl := pure_eq_ok.mp hfs
    exact hh.missing_placed (by rw [hs]; rfl) v hv
  · next file d =>
    obtain ⟨hfile, hd⟩ := firstOf?_eq_ok hfound
    obtain ⟨hstart, hfields⟩ := StructDef.find?_hasLine hd
    split at hfs
    · obtain rfl := pure_eq_ok.mp hfs
      obtain rfl := List.mem_singleton.mp hv
      exact .at_line hcompiled hfile (hh.points hstart _ _)
    · next f hf =>
      split at hfs
      · obtain rfl := pure_eq_ok.mp hfs
        cases hv
      · split at hfs
        · obtain rfl := pure_eq_ok.mp hfs
          cases hv
        · obtain rfl := pure_eq_ok.mp hfs
          obtain rfl := List.mem_singleton.mp hv
          exact .at_line hcompiled hfile
            (hh.points (hfields f (List.mem_of_find?_eq_some hf)) _ _)

theorem checkPairs_placed (hh : h.Follows s) {pairs : List CallPair}
    (hs : s.kind = .pairedCalls pairs) : ∀ v ∈ h.checkPairs c ms pairs, v.Placed s c := by
  intro v hv
  obtain ⟨f, hf, hv⟩ := List.mem_flatMap.mp hv
  obtain ⟨p, -, hv⟩ := List.mem_filterMap.mp hv
  obtain ⟨call, hcall, hv⟩ := Option.bind_eq_some_iff.mp hv
  split at hv
  · obtain rfl := Option.some.inj hv
    have hline := Call.all_hasLine (List.mem_of_find?_eq_some hcall)
    refine .at_line ?_ hf (hh.points hline _ _)
    rw [RuleSpec.placeFiles, hs]
    exact hh.compiled
  · cases hv

end Follows
end RuleHead

/-! ## All kinds -/

theorem CompiledRule.findings_placed {s : RuleSpec} {r : CompiledRule}
    (hr : CompiledRule.ofSpec s = .ok r) {c : Corpus} {ms : Markers} {fs : List Finding}
    (h : r.findings c ms = .ok fs) : ∀ v ∈ fs, v.Placed s c := by
  obtain ⟨head, hhead, hr⟩ := bind_eq_ok.mp hr
  obtain ⟨checker, hchecker, hr⟩ := bind_eq_ok.mp hr
  obtain rfl := pure_eq_ok.mp hr
  have hh := RuleHead.ofSpec_follows hhead
  cases hs : s.kind with
  | forbidden patterns =>
    rw [hs] at hchecker
    obtain ⟨rules, hrules, rfl⟩ := map_eq_ok.mp hchecker
    obtain ⟨found, hfound, h⟩ := bind_eq_ok.mp h
    obtain rfl := pure_eq_ok.mp h
    intro v hv
    obtain ⟨part, hpart, hv⟩ := List.mem_flatten.mp hv
    obtain ⟨q, hq, hpart⟩ := mem_of_mapM_eq_ok hfound hpart
    obtain ⟨p, -, hforbid⟩ := mem_of_mapM_eq_ok hrules hq
    exact (hh.forbid_follows hs hforbid).placed hpart v hv
  | window function anchor required before after message =>
    rw [hs] at hchecker
    obtain ⟨q, hq, hchecker⟩ := bind_eq_ok.mp hchecker
    obtain rfl := pure_eq_ok.mp hchecker
    obtain ⟨found, hfound, h⟩ := bind_eq_ok.mp h
    obtain rfl := pure_eq_ok.mp h
    intro v hv
    obtain ⟨part, hpart, hv⟩ := List.mem_flatten.mp hv
    obtain ⟨q', hq', hpart⟩ := mem_of_mapM_eq_ok hfound hpart
    obtain rfl := List.mem_singleton.mp hq'
    exact (hh.window_follows hs hq).placed hpart v hv
  | enumCoverage enum enumFiles function argument valueFilter =>
    rw [hs] at hchecker
    obtain ⟨scope, hscope, hchecker⟩ := bind_eq_ok.mp hchecker
    obtain ⟨filter, -, hchecker⟩ := bind_eq_ok.mp hchecker
    obtain rfl := pure_eq_ok.mp hchecker
    obtain rfl := Except.ok.inj h
    exact hh.checkCoverage_placed hs (mapError_eq_ok.mp hscope) filter
  | functionBody function requirements order =>
    rw [hs] at hchecker
    obtain ⟨rs, -, hchecker⟩ := bind_eq_ok.mp hchecker
    obtain ⟨pairs, -, hchecker⟩ := bind_eq_ok.mp hchecker
    obtain rfl := pure_eq_ok.mp hchecker
    obtain rfl := Except.ok.inj h
    exact hh.checkFunction_placed hs rs pairs
  | structField struct field type =>
    rw [hs] at hchecker
    obtain rfl := pure_eq_ok.mp hchecker
    exact hh.checkField_placed hs h
  | pairedCalls pairs =>
    rw [hs] at hchecker
    obtain rfl := pure_eq_ok.mp hchecker
    obtain rfl := Except.ok.inj h
    exact hh.checkPairs_placed hs

theorem CheckResult.ofFindings_eq_found {found : Except SplitCharacter (List Finding)}
    {fs : List Finding} : ofFindings found = .found fs ↔ found = .ok fs := by
  cases found with
  | ok found => simp [ofFindings]
  | error e => simp [ofFindings]

theorem CompiledRule.check_eq_found {r : CompiledRule} {c : Corpus} {ms : Markers}
    {fs : List Finding} : r.toRule.check c ms = .found fs ↔ r.findings c ms = .ok fs :=
  CheckResult.ofFindings_eq_found

theorem SiteRule.check_eq_found {q : SiteRule} {c : Corpus} {ms : Markers}
    {fs : List Finding} : q.toRule.check c ms = .found fs ↔ q.findings c ms = .ok fs :=
  CheckResult.ofFindings_eq_found

/-- **A finding with a line points at a line of a file that the rule looks at, and any other
finding reports an absent construct.** -/
theorem Rule.findings_point_at_places {s : RuleSpec} {r : Rule} (hr : Rule.ofSpec s = .ok r)
    {c : Corpus} {ms : Markers} {fs : List Finding} (hfs : r.check c ms = .found fs)
    {v : Finding} (hv : v ∈ fs) :
    v.ruleId = s.id ∧
      (∀ n, v.line = some n → ∃ scope f, FileScope.compile s.placeFiles = .ok scope ∧
        f ∈ c.files ∧ scope.isMatch f.path = true ∧ v.PointsAt s f n) ∧
      (v.line = none → v.ReportsAbsence s) := by
  obtain ⟨compiled, hcompiled, hr⟩ := bind_eq_ok.mp hr
  obtain rfl := pure_eq_ok.mp hr
  cases CompiledRule.findings_placed hcompiled (CompiledRule.check_eq_found.mp hfs) v hv with
  | @at_line scope f n hscope hf points =>
    refine ⟨points.ruleId_eq, ?_, ?_⟩
    · intro n' hn'
      obtain rfl : n = n' := Option.some.inj (points.line_eq.symm.trans hn')
      obtain ⟨hmem, hmatch⟩ := Corpus.mem_inScope.mp hf
      exact ⟨scope, f, hscope, hmem, hmatch, points⟩
    · intro hnone
      rw [points.line_eq] at hnone
      cases hnone
  | absent reports =>
    refine ⟨reports.line_eq.1, ?_, fun _ => reports⟩
    intro n hn
    rw [reports.line_eq.2] at hn
    cases hn

/-- The field of a struct whose brace is on a later line, in a file with carriage returns. -/
theorem Rule.findings_point_at_field :
    ∃ (s : RuleSpec) (r : Rule) (c : Corpus) (fs : List Finding) (v : Finding) (f : SourceFile),
      Rule.ofSpec s = .ok r ∧ r.check c [] = .found fs ∧ v ∈ fs ∧ f ∈ c.files ∧
        v.line = some 3 ∧ v.PointsAt s f 3 := by
  let s : RuleSpec :=
    { id := "R", name := "r", files := ["a.h"], kind := .structField "s" "b" (some "long") }
  let c : Corpus := ⟨[⟨"a.h", "struct s\r\n\x7b // \u00e9\r\n  int b;\r\n\x7d;\r\n".toList⟩], []⟩
  have hrun : (Rule.ofSpec s).toOption.map (·.check c []) = some (.found
      [{ path := "a.h", line := some 3, severity := .fail, ruleId := "R",
         check := some "field-type", message := "s.b has type 'int', expected 'long'",
         snippet := some "int b;" }]) := by decide +kernel
  obtain ⟨r, hr, hcheck⟩ := Option.map_eq_some_iff.mp hrun
  have hr : Rule.ofSpec s = .ok r := ok_of_toOption hr
  have hpoints := (Rule.findings_point_at_places hr hcheck List.mem_cons_self).2.1 3 rfl
  obtain ⟨scope, f, -, hf, -, hpoints⟩ := hpoints
  exact ⟨s, r, c, _, _, f, hr, hcheck, List.mem_cons_self, hf, rfl, hpoints⟩

end StructuralRules
