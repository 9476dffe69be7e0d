import StructuralRules.Proofs.Rule.LineSites
import StructuralRules.Proofs.Rule.Places
import StructuralRules.Proofs.Source.Declarations

/-!
# What is said about absent constructs

A rule may look for a function, a struct or an enum. When no file that it searches
has the construct, the rule says what its policy asks for and nothing else;
otherwise each of its findings has a line. A site rule may look for two: the
function it is confined to, and then what it locates in the files with that
function.
-/

set_option autoImplicit false

namespace StructuralRules

/-- A construct that a rule looks for. -/
inductive Wanted where
  | function (name : String)
  | struct (name : String)
  | enum (name : String)
  deriving DecidableEq, Repr

namespace Wanted

/-- Kind and name, as messages have them. -/
def label : Wanted → String × String
  | .function name => ("function", name)
  | .struct name => ("struct", name)
  | .enum name => ("enum", name)

def notFound (w : Wanted) : String :=
  s!"{w.label.1} '{w.label.2}' not found"

/-- Whether the file defines the construct. -/
def definedIn (f : SourceFile) : Wanted → Bool
  | .function name => (FunctionDef.find? f name).isSome
  | .struct name => (Aggregate.struct.body? f.text name).isSome
  | .enum name => (Aggregate.enum.body? f.text name).isSome

/-- None of the files defines the construct. -/
def AbsentFrom (w : Wanted) (files : List SourceFile) : Prop :=
  ∀ f ∈ files, w.definedIn f = false

end Wanted

/-- The construct that places are in. -/
def Locator.wanted? : Locator → Option Wanted
  | .lines _ | .calls _ => none
  | .function name => some (.function name)
  | .struct name => some (.struct name)
  | .enum name => some (.enum name)

/-- The construct without which the rule has nothing to look at. -/
def RuleKind.wanted? : RuleKind → Option Wanted
  | .forbidden _ | .pairedCalls _ => none
  | .window function .. => function.map .function
  | .enumCoverage enum .. => some (.enum enum)
  | .functionBody function .. => some (.function function)
  | .structField struct .. => some (.struct struct)

/-! ## Looking for a construct -/

theorem FunctionDef.find?_eq_none {f : SourceFile} {name : String} :
    find? f name = none ↔ (Wanted.function name).definedIn f = false := by
  simp [Wanted.definedIn]

theorem EnumDef.find?_eq_none {f : SourceFile} {name : String} {ms : Markers} :
    find? f name ms = none ↔ (Wanted.enum name).definedIn f = false := by
  simp [Wanted.definedIn, find?]

theorem StructDef.find?_eq_ok_none {f : SourceFile} {name : String} {ms : Markers}
    {d : Option StructDef} (h : find? f name ms = .ok d) :
    d = none ↔ (Wanted.struct name).definedIn f = false := by
  have hbody : (Wanted.struct name).definedIn f = false ↔ find? f name ms = .ok none := by
    rw [find?_eq_none_iff]
    exact Option.isSome_eq_false_iff.trans Option.isNone_iff_eq_none
  rw [hbody, h, Except.ok.injEq]

theorem FunctionDef.firstIn?_eq_none {c : Corpus} {scope : FileScope} {name : String} :
    firstIn? c scope name = none ↔ (Wanted.function name).AbsentFrom (c.inScope scope) := by
  simp [firstIn?, Wanted.AbsentFrom, find?_eq_none]

theorem EnumDef.firstIn?_eq_none {c : Corpus} {scope : FileScope} {name : String} {ms : Markers} :
    firstIn? c scope name ms = none ↔ (Wanted.enum name).AbsentFrom (c.inScope scope) := by
  simp [firstIn?, Wanted.AbsentFrom, find?_eq_none]

/-- Files behind the first one with the struct are not read, so they may be such that reading
breaks off. -/
theorem StructDef.firstOf?_eq_ok_none {files : List SourceFile} {name : String} {ms : Markers}
    {found : Option (SourceFile × StructDef)} (h : firstOf? name ms files = .ok found) :
    found = none ↔ (Wanted.struct name).AbsentFrom files := by
  unfold Wanted.AbsentFrom
  induction files with
  | nil =>
    obtain rfl := Except.ok.inj h
    simp
  | cons f files ih =>
    obtain ⟨d, hd, h⟩ := bind_eq_ok.mp h
    rw [List.forall_mem_cons, ← find?_eq_ok_none hd]
    cases d with
    | none => simpa using ih h
    | some d =>
      obtain rfl := pure_eq_ok.mp h
      simp

/-! ## Following a policy -/

theorem MissingPolicy.finding?_eq_some {p : MissingPolicy} {ruleId path message : String}
    {v : Finding} (h : p.finding? ruleId path message = some v) :
    p ≠ .skip ∧ v.line = none ∧ p.severity? = some v.severity ∧ v.check = some "missing" ∧
      v.message = message := by
  obtain ⟨severity, hseverity, rfl⟩ := Option.map_eq_some_iff.mp h
  refine ⟨?_, rfl, hseverity, rfl, rfl⟩
  rintro rfl
  cases hseverity

theorem MissingPolicy.finding?_isSome {p : MissingPolicy} (hp : p ≠ .skip)
    (ruleId path message : String) : ∃ v, p.finding? ruleId path message = some v := by
  cases p with
  | skip => exact absurd rfl hp
  | info => exact ⟨_, rfl⟩
  | warn => exact ⟨_, rfl⟩
  | fail => exact ⟨_, rfl⟩

namespace Finding

/-- What the findings of a rule that misses the constructs `missed` say about them. -/
structure TellAbsence (policy : MissingPolicy) (missed : Wanted → Prop) (fs : List Finding) :
    Prop where
  told_iff : (∃ v ∈ fs, v.line = none) ↔ policy ≠ .skip ∧ ∃ w, missed w
  alone : ∀ v ∈ fs, v.line = none → fs = [v] ∧ policy.severity? = some v.severity ∧
    v.check = some "missing" ∧ ∃ w, missed w ∧ v.message = w.notFound
  silent : policy = .skip → (∃ w, missed w) → fs = []

/-- The findings are what the policy says about a missed construct, or else all have a line. -/
structure FollowPolicy (policy : MissingPolicy) (ruleId path : String) (missed : Wanted → Prop)
    (fs : List Finding) : Prop where
  missing : ∀ w, missed w → fs = (policy.finding? ruleId path w.notFound).toList
  present : (∀ w, ¬ missed w) → ∀ v ∈ fs, v.line ≠ none

namespace FollowPolicy

variable {policy : MissingPolicy} {ruleId path : String} {missed : Wanted → Prop}
  {fs : List Finding}

theorem congr (h : FollowPolicy policy ruleId path missed fs) {missed' : Wanted → Prop}
    (hmissed : ∀ w, missed w ↔ missed' w) : FollowPolicy policy ruleId path missed' fs := by
  obtain rfl : missed = missed' := funext fun w => propext (hmissed w)
  exact h

theorem tellAbsence (h : FollowPolicy policy ruleId path missed fs) :
    TellAbsence policy missed fs := by
  have hline : ∀ v ∈ fs, v.line = none →
      ∃ w, missed w ∧ policy.finding? ruleId path w.notFound = some v ∧ fs = [v] := by
    intro v hv hnone
    have hmissed : ∃ w, missed w := by
      by_contra hnot
      exact h.present (not_exists.mp hnot) v hv hnone
    obtain ⟨w, hw⟩ := hmissed
    have hfs := h.missing w hw
    have hfinding := Option.mem_toList.mp (hfs ▸ hv)
    exact ⟨w, hw, hfinding, by rw [hfs, hfinding]; rfl⟩
  refine ⟨⟨?_, ?_⟩, ?_, ?_⟩
  · rintro ⟨v, hv, hnone⟩
    obtain ⟨w, hw, hfinding, -⟩ := hline v hv hnone
    exact ⟨(MissingPolicy.finding?_eq_some hfinding).1, w, hw⟩
  · rintro ⟨hpolicy, w, hw⟩
    obtain ⟨v, hv⟩ := MissingPolicy.finding?_isSome hpolicy ruleId path w.notFound
    refine ⟨v, ?_, (MissingPolicy.finding?_eq_some hv).2.1⟩
    rw [h.missing w hw, hv]
    exact List.mem_singleton_self v
  · intro v hv hnone
    obtain ⟨w, hw, hfinding, hfs⟩ := hline v hv hnone
    obtain ⟨-, -, hseverity, hcheck, hmessage⟩ := MissingPolicy.finding?_eq_some hfinding
    exact ⟨hfs, hseverity, hcheck, w, hw, hmessage⟩
  · rintro rfl ⟨w, hw⟩
    exact h.missing w hw

/-- A rule that looks for one construct. -/
theorem of_search {w : Wanted} {files : List SourceFile}
    (habsent : w.AbsentFrom files → fs = (policy.finding? ruleId path w.notFound).toList)
    (hpresent : ¬ w.AbsentFrom files → ∀ v ∈ fs, v.line ≠ none) :
    FollowPolicy policy ruleId path (fun w' => w = w' ∧ w'.AbsentFrom files) fs := by
  constructor
  · rintro w' ⟨rfl, hw⟩
    exact habsent hw
  · intro hnot
    exact hpresent fun hw => hnot w ⟨rfl, hw⟩

/-- A rule that looks for none. -/
theorem of_lines (hnothing : ∀ w, ¬ missed w) (hlines : ∀ v ∈ fs, v.line ≠ none) :
    FollowPolicy policy ruleId path missed fs :=
  ⟨fun w hw => absurd hw (hnothing w), fun _ => hlines⟩

end FollowPolicy
end Finding

/-! ## Site rules -/

namespace SiteRule

/-- The file has the function that the rule is confined to, if there is one. -/
def Reads (q : SiteRule) (f : SourceFile) : Prop :=
  ∀ name, q.within = some name → (Wanted.function name).definedIn f = true

/-- What the rule misses in the files of its scope: the function it is confined to, or else what
it locates in the files with that function. -/
inductive Misses (q : SiteRule) (files : List SourceFile) : Wanted → Prop
  | confining {name : String} (within : q.within = some name)
      (absent : (Wanted.function name).AbsentFrom files) : Misses q files (.function name)
  | located {w : Wanted} (wanted : q.locator.wanted? = some w)
      (confined : ∀ name, q.within = some name → ¬ (Wanted.function name).AbsentFrom files)
      (absent : ∀ f ∈ files, q.Reads f → w.definedIn f = false) : Misses q files w

variable {q : SiteRule} {c : Corpus} {ms : Markers}

theorem region?_isSome_iff (f : SourceFile) : (q.region? f).isSome = true ↔ q.Reads f := by
  unfold region? Reads
  cases q.within with
  | none => simp
  | some name => simp [Wanted.definedIn]

/-- The rule locates nothing in a file without the construct. -/
theorem locate_eq_nil_iff {w : Wanted} (hw : q.locator.wanted? = some w) {f : SourceFile}
    {rows : List CodeRow} {region : Option Region} {sites : List Site}
    (h : q.locate f rows ms region = .ok sites) : sites = [] ↔ w.definedIn f = false := by
  unfold locate at h
  cases hlocator : q.locator with
  | lines p =>
    rw [hlocator] at hw
    cases hw
  | calls name =>
    rw [hlocator] at hw
    cases hw
  | function name =>
    rw [hlocator] at h hw
    obtain rfl := Option.some.inj hw
    obtain rfl := Except.ok.inj h
    simp [FunctionDef.find?_eq_none]
  | struct name =>
    rw [hlocator] at h hw
    obtain rfl := Option.some.inj hw
    obtain ⟨d, hd, h⟩ := bind_eq_ok.mp h
    obtain rfl := pure_eq_ok.mp h
    simp [StructDef.find?_eq_ok_none hd]
  | enum name =>
    rw [hlocator] at h hw
    obtain rfl := Option.some.inj hw
    obtain rfl := Except.ok.inj h
    simp [EnumDef.find?_eq_none]

/-- A file that is not read has no places, not even none. -/
theorem sitesIn_cases {f : SourceFile} {sites : Option (List Site)}
    (h : q.sitesIn f ms = .ok sites) :
    (sites = none ∧ ¬ q.Reads f) ∨ ∃ found, sites = some found ∧ q.Reads f ∧
      ∀ w, q.locator.wanted? = some w → (found = [] ↔ w.definedIn f = false) := by
  rw [← region?_isSome_iff]
  unfold sitesIn at h
  cases hregion : q.region? f with
  | none =>
    rw [hregion] at h
    obtain rfl := Except.ok.inj h
    exact Or.inl ⟨rfl, Bool.false_ne_true⟩
  | some region =>
    rw [hregion] at h
    obtain ⟨bare, hbare, h⟩ := bind_eq_ok.mp h
    obtain rfl := pure_eq_ok.mp h
    refine Or.inr ⟨_, rfl, rfl, fun w hw => ?_⟩
    rw [List.map_eq_nil_iff]
    exact locate_eq_nil_iff hw hbare

variable {read : List (List Site)}

/-- Places are in a file that is read. -/
theorem reads_of_mem_sitesByFile (h : q.sitesByFile c ms = .ok read) {sites : List Site}
    (hsites : sites ∈ read) : ∃ f ∈ c.inScope q.scope, q.Reads f ∧
      ∀ w, q.locator.wanted? = some w → (sites = [] ↔ w.definedIn f = false) := by
  obtain ⟨all, hall, h⟩ := bind_eq_ok.mp h
  obtain rfl := pure_eq_ok.mp h
  obtain ⟨found, hfound, rfl⟩ := List.mem_filterMap.mp hsites
  obtain ⟨f, hf, hin⟩ := mem_of_mapM_eq_ok hall hfound
  rcases sitesIn_cases hin with ⟨hnone, -⟩ | ⟨found, hsome, hreads, hempty⟩
  · cases hnone
  · obtain rfl := Option.some.inj hsome
    exact ⟨f, hf, hreads, hempty⟩

theorem exists_mem_sitesByFile (h : q.sitesByFile c ms = .ok read) {f : SourceFile}
    (hf : f ∈ c.inScope q.scope) (hreads : q.Reads f) : ∃ sites ∈ read,
      ∀ w, q.locator.wanted? = some w → (sites = [] ↔ w.definedIn f = false) := by
  obtain ⟨all, hall, h⟩ := bind_eq_ok.mp h
  obtain rfl := pure_eq_ok.mp h
  obtain ⟨found, hfound, hin⟩ := exists_mem_of_mapM_eq_ok hall hf
  rcases sitesIn_cases hin with ⟨-, hnot⟩ | ⟨sites, rfl, -, hempty⟩
  · exact absurd hreads hnot
  · exact ⟨sites, List.mem_filterMap.mpr ⟨_, hfound, rfl⟩, hempty⟩

/-- No file is read just when all lack the function that the rule is confined to. -/
theorem sitesByFile_eq_nil_iff (h : q.sitesByFile c ms = .ok read) {name : String}
    (hname : q.within = some name) :
    read = [] ↔ (Wanted.function name).AbsentFrom (c.inScope q.scope) := by
  have hreads : ∀ f, q.Reads f ↔ (Wanted.function name).definedIn f = true := by
    intro f
    simp [Reads, hname]
  constructor
  · rintro rfl f hf
    rw [← Bool.not_eq_true, ← hreads]
    intro hread
    obtain ⟨sites, hsites, -⟩ := exists_mem_sitesByFile h hf hread
    cases hsites
  · intro habsent
    refine List.eq_nil_iff_forall_not_mem.mpr fun sites hsites => ?_
    obtain ⟨f, hf, hread, -⟩ := reads_of_mem_sitesByFile h hsites
    rw [hreads, habsent f hf] at hread
    cases hread

/-- No places are found just when all files that are read lack what the rule locates. -/
theorem sitesByFile_all_isEmpty_iff (h : q.sitesByFile c ms = .ok read) {w : Wanted}
    (hw : q.locator.wanted? = some w) :
    read.all List.isEmpty = true ↔ ∀ f ∈ c.inScope q.scope, q.Reads f → w.definedIn f = false := by
  simp only [List.all_eq_true, List.isEmpty_iff]
  constructor
  · intro hall f hf hread
    obtain ⟨sites, hsites, hempty⟩ := exists_mem_sitesByFile h hf hread
    exact (hempty w hw).mp (hall sites hsites)
  · intro habsent sites hsites
    obtain ⟨f, hf, hread, hempty⟩ := reads_of_mem_sitesByFile h hsites
    exact (hempty w hw).mpr (habsent f hf hread)

theorem Misses.flatten_eq_nil {w : Wanted} (hw : q.Misses (c.inScope q.scope) w)
    (h : q.sitesByFile c ms = .ok read) : read.flatten = [] := by
  cases hw with
  | confining within absent =>
    rw [(sitesByFile_eq_nil_iff h within).mpr absent]
    rfl
  | located wanted confined absent =>
    have hall := (sitesByFile_all_isEmpty_iff h wanted).mpr absent
    rw [List.all_eq_true] at hall
    exact List.flatten_eq_nil_iff.mpr fun sites hsites => List.isEmpty_iff.mp (hall sites hsites)

/-- Unless no file has the function that the rule is confined to, only what it locates can be
absent. -/
theorem absent?_eq_bind (hconfined : ∀ name, q.within = some name → read ≠ []) :
    q.absent? read = q.locator.wanted?.bind fun w =>
      if read.all List.isEmpty then some w.notFound else none := by
  unfold absent?
  split
  · next name hname => exact absurd rfl (hconfined name hname)
  · cases q.locator <;> rfl

/-- What the rule says to be absent is what it misses. -/
theorem absent?_eq_some_iff (h : q.sitesByFile c ms = .ok read) {message : String} :
    q.absent? read = some message ↔
      ∃ w, q.Misses (c.inScope q.scope) w ∧ w.notFound = message := by
  by_cases hconfined : ∀ name, q.within = some name → read ≠ []
  · have hfiles : ∀ name, q.within = some name →
        ¬ (Wanted.function name).AbsentFrom (c.inScope q.scope) := fun name hname =>
      (sitesByFile_eq_nil_iff h hname).not.mp (hconfined name hname)
    rw [absent?_eq_bind hconfined, Option.bind_eq_some_iff]
    refine exists_congr fun w => ?_
    constructor
    · rintro ⟨hw, hmessage⟩
      split_ifs at hmessage with hall
      exact ⟨.located hw hfiles ((sitesByFile_all_isEmpty_iff h hw).mp hall),
        Option.some.inj hmessage⟩
    · rintro ⟨hmisses, rfl⟩
      cases hmisses with
      | confining within absent => exact absurd absent (hfiles _ within)
      | located wanted _ absent =>
        exact ⟨wanted, if_pos ((sitesByFile_all_isEmpty_iff h wanted).mpr absent)⟩
  · obtain ⟨name, hname, rfl⟩ : ∃ name, q.within = some name ∧ read = [] := by
      simpa using hconfined
    have habsent := (sitesByFile_eq_nil_iff h hname).mp rfl
    have hmessage : q.absent? [] = some (Wanted.function name).notFound := by
      unfold absent?
      rw [hname]
      rfl
    rw [hmessage, Option.some.injEq]
    constructor
    · intro heq
      exact ⟨_, .confining hname habsent, heq⟩
    · rintro ⟨w, hmisses, rfl⟩
      cases hmisses with
      | confining within _ => rw [Option.some.inj (hname.symm.trans within)]
      | located _ confined _ => exact absurd habsent (confined name hname)

/-- A rule about lines misses at most the function that it is confined to. -/
theorem misses_lines_iff {p : Pattern} (hq : q.locator = .lines p) {files : List SourceFile}
    {w : Wanted} :
    q.Misses files w ↔ q.within.map .function = some w ∧ w.AbsentFrom files := by
  constructor
  · intro hmisses
    cases hmisses with
    | confining within absent => exact ⟨by rw [within]; rfl, absent⟩
    | located wanted _ _ =>
      rw [hq] at wanted
      cases wanted
  · rintro ⟨hw, habsent⟩
    obtain ⟨name, hname, rfl⟩ := Option.map_eq_some_iff.mp hw
    exact .confining hname habsent

/-- A site rule says about the construct that it misses what its policy asks for. -/
theorem followPolicy {fs : List Finding} (h : q.findings c ms = .ok fs) :
    Finding.FollowPolicy q.onMissing q.id q.scope.describe (q.Misses (c.inScope q.scope)) fs := by
  obtain ⟨read, hread, h⟩ := bind_eq_ok.mp h
  obtain rfl := pure_eq_ok.mp h
  constructor
  · intro w hw
    rw [hw.flatten_eq_nil hread, (absent?_eq_some_iff hread).mpr ⟨w, hw, rfl⟩]
    rfl
  · intro hnothing v hv
    have habsent : q.absent? read = none := by
      refine Option.eq_none_iff_forall_ne_some.mpr fun message hmessage => ?_
      obtain ⟨w, hw, -⟩ := (absent?_eq_some_iff hread).mp hmessage
      exact hnothing w hw
    rw [habsent] at hv
    rcases List.mem_append.mp hv with hv | hv
    · obtain ⟨site, -, rfl⟩ := List.mem_map.mp hv
      simp [finding]
    · cases hv

end SiteRule

/-! ## Compiled rules -/

/-- What the declared rule misses: the construct without which it has nothing to look at, in the
files where its findings would be. -/
def RuleSpec.Misses (s : RuleSpec) (c : Corpus) (w : Wanted) : Prop :=
  s.kind.wanted? = some w ∧
    ∃ scope, FileScope.compile s.placeFiles = .ok scope ∧ w.AbsentFrom (c.inScope scope)

theorem RuleSpec.not_misses {s : RuleSpec} (hs : s.kind.wanted? = none) (c : Corpus) :
    ∀ w, ¬ s.Misses c w := by
  rintro w ⟨hw, -⟩
  rw [hs] at hw
  cases hw

namespace RuleHead

variable (h : RuleHead) (c : Corpus) (ms : Markers)

@[simp] theorem finding_line (file : SourceFile) (line : Nat) (check message : String) :
    (h.finding file line check message).line = some line := by
  simp [finding]

theorem checkCoverage_followPolicy (enum : String) (scope : FileScope) (function : String)
    (argument : Nat) (filter : Option Pattern) :
    Finding.FollowPolicy h.onMissing h.id h.scope.describe
      (fun w => .enum enum = w ∧ w.AbsentFrom (c.inScope scope))
      (h.checkCoverage c ms enum scope function argument filter) := by
  refine .of_search (fun habsent => ?_) (fun hpresent v hv => ?_)
  · unfold checkCoverage
    rw [EnumDef.firstIn?_eq_none.mpr habsent]
    rfl
  · unfold checkCoverage at hv
    split at hv
    · next hnone => exact absurd (EnumDef.firstIn?_eq_none.mp hnone) hpresent
    · obtain ⟨value, -, rfl⟩ := List.mem_map.mp hv
      simp

theorem checkFunction_followPolicy (function : String) (rs : List Requirement)
    (order : List (Requirement × Requirement)) :
    Finding.FollowPolicy h.onMissing h.id h.scope.describe
      (fun w => .function function = w ∧ w.AbsentFrom (c.inScope h.scope))
      (h.checkFunction c function rs order) := by
  refine .of_search (fun habsent => ?_) (fun hpresent v hv => ?_)
  · unfold checkFunction
    rw [FunctionDef.firstIn?_eq_none.mpr habsent]
    rfl
  · unfold checkFunction at hv
    split at hv
    · next hnone => exact absurd (FunctionDef.firstIn?_eq_none.mp hnone) hpresent
    · rcases List.mem_append.mp hv with hv | hv
      · obtain ⟨r, -, rfl⟩ := List.mem_map.mp hv
        simp
      · obtain ⟨pair, -, hv⟩ := List.mem_filterMap.mp hv
        dsimp only at hv
        split_ifs at hv
        obtain rfl := Option.some.inj hv
        simp

variable {h c ms}

theorem forbid_line {check : Option String} {p : ForbiddenPattern} {q : SiteRule}
    (hq : h.forbid check p = .ok q) {fs : List Finding} (hfs : q.findings c ms = .ok fs)
    {v : Finding} (hv : v ∈ fs) : v.line ≠ none := by
  obtain ⟨pattern, hforbids⟩ := forbid_forbids hq
  refine (SiteRule.followPolicy hfs).present (fun w hw => ?_) v hv
  have hwithin := ((SiteRule.misses_lines_iff hforbids.locator_eq).mp hw).1
  rw [hforbids.within_eq] at hwithin
  cases hwithin

theorem window_followPolicy {function : Option String} {anchor required : String}
    {before after : Nat} {message : Option String} {q : SiteRule}
    (hq : h.window function anchor required before after message = .ok q) {fs : List Finding}
    (hfs : q.findings c ms = .ok fs) :
    Finding.FollowPolicy h.onMissing h.id h.scope.describe
      (fun w => function.map .function = some w ∧ w.AbsentFrom (c.inScope h.scope)) fs := by
  obtain ⟨a, b, -, -, hwatches⟩ := window_watches hq
  rw [← hwatches.onMissing_eq, ← hwatches.id_eq, ← hwatches.scope_eq, ← hwatches.within_eq]
  exact (SiteRule.followPolicy hfs).congr fun w =>
    SiteRule.misses_lines_iff hwatches.locator_eq

theorem checkField_followPolicy {struct field : String} {type : Option String} {fs : List Finding}
    (hfs : h.checkField c ms struct field type = .ok fs) :
    Finding.FollowPolicy h.onMissing h.id h.scope.describe
      (fun w => .struct struct = w ∧ w.AbsentFrom (c.inScope h.scope)) fs := by
  unfold checkField at hfs
  obtain ⟨found, hfound, hfs⟩ := bind_eq_ok.mp hfs
  have habsent_iff := StructDef.firstOf?_eq_ok_none hfound
  refine .of_search (fun habsent => ?_) (fun hpresent v hv => ?_)
  · obtain rfl := habsent_iff.mpr habsent
    exact (pure_eq_ok.mp hfs).symm
  · dsimp only at hfs
    split at hfs
    · exact absurd (habsent_iff.mp rfl) hpresent
    · split at hfs
      · obtain rfl := pure_eq_ok.mp hfs
        obtain rfl := List.mem_singleton.mp hv
        simp
      · split at hfs
        · obtain rfl := pure_eq_ok.mp hfs
          cases hv
        · split at hfs
          · obtain rfl := pure_eq_ok.mp hfs
            cases hv
          · obtain rfl := pure_eq_ok.mp hfs
            obtain rfl := List.mem_singleton.mp hv
            simp

theorem checkPairs_line {pairs : List CallPair} {v : Finding} (hv : v ∈ h.checkPairs c ms pairs) :
    v.line ≠ none := by
  obtain ⟨f, -, hv⟩ := List.mem_flatMap.mp hv
  obtain ⟨p, -, hv⟩ := List.mem_filterMap.mp hv
  obtain ⟨call, -, hv⟩ := Option.bind_eq_some_iff.mp hv
  split_ifs at hv
  obtain rfl := Option.some.inj hv
  simp

end RuleHead

namespace CompiledRule

/-- A compiled rule says about the construct that it misses what its policy asks for. -/
theorem followPolicy {s : RuleSpec} {r : CompiledRule} (hr : ofSpec s = .ok r) {c : Corpus}
    {ms : Markers} {fs : List Finding} (h : r.findings c ms = .ok fs) :
    Finding.FollowPolicy s.onMissing s.id r.head.scope.describe (s.Misses c) fs := by
  obtain ⟨head, hhead, hr⟩ := bind_eq_ok.mp hr
  obtain ⟨checker, hchecker, hr⟩ := bind_eq_ok.mp hr
  obtain rfl := pure_eq_ok.mp hr
  have hh := RuleHead.ofSpec_follows hhead
  rw [← hh.onMissing_eq, ← hh.id_eq]
  cases hs : s.kind with
  | forbidden patterns =>
    rw [hs] at hchecker
    obtain ⟨rules, hrules, rfl⟩ := map_eq_ok.mp hchecker
    obtain ⟨parts, hparts, h⟩ := bind_eq_ok.mp h
    obtain rfl := pure_eq_ok.mp h
    refine .of_lines (RuleSpec.not_misses (by rw [hs]; rfl) c) fun v hv => ?_
    obtain ⟨part, hpart, hv⟩ := List.mem_flatten.mp hv
    obtain ⟨q, hq, hpart⟩ := mem_of_mapM_eq_ok hparts hpart
    obtain ⟨p, -, hforbid⟩ := mem_of_mapM_eq_ok hrules hq
    exact RuleHead.forbid_line hforbid hpart hv
  | window function anchor required before after message =>
    rw [hs] at hchecker
    obtain ⟨q, hq, hchecker⟩ := bind_eq_ok.mp hchecker
    obtain rfl := pure_eq_ok.mp hchecker
    obtain ⟨parts, hparts, h⟩ := bind_eq_ok.mp h
    obtain rfl := pure_eq_ok.mp h
    obtain ⟨part, rest, hpart, hrest, rfl⟩ := List.forall₂_cons_left_iff.mp (mapM_eq_ok.mp hparts)
    obtain rfl := List.forall₂_nil_left_iff.mp hrest
    rw [List.flatten_singleton]
    refine (RuleHead.window_followPolicy hq hpart).congr fun w => ?_
    simp [RuleSpec.Misses, hs, RuleKind.wanted?, RuleSpec.placeFiles, hh.compiled]
  | enumCoverage enum enumFiles function argument valueFilter =>
    rw [hs] at hchecker
    obtain ⟨scope, hscope, hchecker⟩ := bind_eq_ok.mp hchecker
    obtain ⟨filter, -, hchecker⟩ := bind_eq_ok.mp hchecker
    obtain rfl := pure_eq_ok.mp hchecker
    obtain rfl := Except.ok.inj h
    have hpolicy := head.checkCoverage_followPolicy c ms enum scope function argument filter
    refine hpolicy.congr fun w => ?_
    simp [RuleSpec.Misses, hs, RuleKind.wanted?, RuleSpec.placeFiles, mapError_eq_ok.mp hscope]
  | functionBody function requirements order =>
    rw [hs] at hchecker
    obtain ⟨rs, -, hchecker⟩ := bind_eq_ok.mp hchecker
    obtain ⟨pairs, -, hchecker⟩ := bind_eq_ok.mp hchecker
    obtain rfl := pure_eq_ok.mp hchecker
    obtain rfl := Except.ok.inj h
    refine (head.checkFunction_followPolicy c function rs pairs).congr fun w => ?_
    simp [RuleSpec.Misses, hs, RuleKind.wanted?, RuleSpec.placeFiles, hh.compiled]
  | structField struct field type =>
    rw [hs] at hchecker
    obtain rfl := pure_eq_ok.mp hchecker
    refine (RuleHead.checkField_followPolicy h).congr fun w => ?_
    simp [RuleSpec.Misses, hs, RuleKind.wanted?, RuleSpec.placeFiles, hh.compiled]
  | pairedCalls pairs =>
    rw [hs] at hchecker
    obtain rfl := pure_eq_ok.mp hchecker
    obtain rfl := Except.ok.inj h
    exact .of_lines (RuleSpec.not_misses (by rw [hs]; rfl) c) fun v hv =>
      RuleHead.checkPairs_line hv

end CompiledRule

/-- **Absence follows the policy and nothing else.** A declared rule has a finding without a line
just when it looks for a construct that no file it searches defines and the policy is not to skip.
That finding is then the only one; with the policy to skip there is none at all. A site rule does
the same with the function it is confined to, and, where that exists, with what it locates. -/
theorem Rule.absence_follows_policy :
    (∀ (s : RuleSpec) (r : Rule) (c : Corpus) (ms : Markers) (fs : List Finding),
      Rule.ofSpec s = .ok r → r.check c ms = .found fs →
        Finding.TellAbsence s.onMissing (s.Misses c) fs ∧
        (s.kind.wanted? = none → ∀ v ∈ fs, v.line ≠ none)) ∧
    ∀ (q : SiteRule) (c : Corpus) (ms : Markers) (fs : List Finding),
      q.toRule.check c ms = .found fs →
        Finding.TellAbsence q.onMissing (q.Misses (c.inScope q.scope)) fs := by
  constructor
  · intro s r c ms fs hr hfs
    obtain ⟨compiled, hcompiled, hr⟩ := bind_eq_ok.mp hr
    obtain rfl := pure_eq_ok.mp hr
    have hpolicy := CompiledRule.followPolicy hcompiled (CompiledRule.check_eq_found.mp hfs)
    exact ⟨hpolicy.tellAbsence, fun hs => hpolicy.present (RuleSpec.not_misses hs c)⟩
  · intro q c ms fs hfs
    exact (SiteRule.followPolicy (SiteRule.check_eq_found.mp hfs)).tellAbsence

/-- The enum is in a file that is not searched for it, and the struct is in a file without the
function that the rule is confined to. -/
theorem Rule.absence_of_present_constructs :
    ∃ (s : RuleSpec) (r : Rule) (q : SiteRule) (c : Corpus) (v v' : Finding),
      Rule.ofSpec s = .ok r ∧ r.check c [] = .found [v] ∧ v.line = none ∧ v.severity = .warn ∧
        s.Misses c (.enum "e") ∧
        q.toRule.check c [] = .found [v'] ∧ v'.line = none ∧
        v'.message = "struct 't' not found" ∧
        ∃ w, q.Misses (c.inScope q.scope) w ∧ v'.message = w.notFound := by
  let s : RuleSpec :=
    { id := "R", name := "r", files := ["*.c"], onMissing := .warn
      kind := .enumCoverage "e" ["a.c"] "f" 0 none }
  let plan : SitePlan :=
    { id := "Q", name := "q", files := ["*.c"], onMissing := .fail
      locator := some (.struct "t"), within := some "f" }
  let c : Corpus :=
    ⟨[⟨"a.c", "void f(int x)\n\x7b\n\x7d\n".toList⟩,
      ⟨"b.c", "enum e \x7b A \x7d;\nstruct t \x7b int b; \x7d;\n".toList⟩], []⟩
  let v : Finding :=
    { path := "*.c", severity := .warn, ruleId := "R", check := some "missing"
      message := "enum 'e' not found" }
  let v' : Finding :=
    { v with severity := .fail, ruleId := "Q", message := "struct 't' not found" }
  have hrun : (Rule.ofSpec s).toOption.map (·.check c []) = some (.found [v]) := by decide +kernel
  have hrun' : plan.build.toOption.map (·.toRule.check c []) = some (.found [v']) := by
    decide +kernel
  obtain ⟨r, hr, hcheck⟩ := Option.map_eq_some_iff.mp hrun
  obtain ⟨q, -, hcheck'⟩ := Option.map_eq_some_iff.mp hrun'
  have hr : Rule.ofSpec s = .ok r := ok_of_toOption hr
  obtain ⟨htell, -⟩ := Rule.absence_follows_policy.1 s r c [] [v] hr hcheck
  have htell' := Rule.absence_follows_policy.2 q c [] [v'] hcheck'
  obtain ⟨-, w, hw⟩ := htell.told_iff.mp ⟨v, List.mem_singleton_self v, rfl⟩
  obtain rfl : Wanted.enum "e" = w := Option.some.inj hw.1
  obtain ⟨-, -, -, hmissed⟩ := htell'.alone v' (List.mem_singleton_self v') rfl
  exact ⟨s, r, q, c, v, v', hr, hcheck, rfl, rfl, hw, hcheck', rfl, rfl, hmissed⟩

end StructuralRules
