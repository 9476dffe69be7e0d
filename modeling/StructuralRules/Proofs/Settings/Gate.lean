import Mathlib.Data.List.Nodup
import StructuralRules.Files.Loader
import StructuralRules.Proofs.Failure
import StructuralRules.Proofs.Text.Search

/-!
# Validation is the only gate

What validation asks of settings, said without it: everything is named, told apart
and compiles. Settings that pass are compiled, loaded with and selected from
without a further refusal, because compiling a rule a second time asks for nothing
that validation has not asked for.
-/

set_option autoImplicit false

namespace StructuralRules

/-! ## Globs and patterns -/

def Glob.Compiles (source : String) : Prop :=
  ∃ g, Glob.compile source = .ok g

def Pattern.Compiles (source : String) : Prop :=
  ∃ p, Pattern.compile source = .ok p

theorem FileScope.exists_compileOrFail {sources : List String} :
    (∃ scope, compileOrFail sources = .ok scope) ↔ ∀ g ∈ sources, Glob.Compiles g := by
  simp only [compileOrFail, mapError_eq_ok, compile, exists_bind_pure_eq_ok, exists_mapM_eq_ok,
    Glob.Compiles]

theorem Pattern.exists_compileOrFail {source : String} :
    (∃ p, compileOrFail source = .ok p) ↔ Compiles source := by
  simp only [compileOrFail, mapError_eq_ok, Compiles]

/-! ## Rules that make sense -/

namespace RuleKind

/-- The patterns of a kind. -/
def patterns : RuleKind → List String
  | .forbidden ps => ps.map (·.regex)
  | .enumCoverage _ _ _ _ valueFilter => valueFilter.toList
  | .window _ anchor required .. => [anchor, required]
  | .functionBody _ requirements _ => requirements.map (·.pattern)
  | .structField .. | .pairedCalls _ => []

/-- The globs of a kind, beside the files that all rules have. -/
def globs : RuleKind → List String
  | .enumCoverage _ enumFiles .. => enumFiles
  | _ => []

/-- The kind has something to check. -/
def NotEmpty : RuleKind → Prop
  | .forbidden ps => ps ≠ []
  | .pairedCalls pairs => pairs ≠ []
  | _ => True

/-- The names that are ordered are names of requirements. -/
def OrderKnown : RuleKind → Prop
  | .functionBody _ requirements order =>
      ∀ pair ∈ order, pair.1 ∈ requirements.map (·.name) ∧ pair.2 ∈ requirements.map (·.name)
  | _ => True

end RuleKind

/-- A declared rule that makes sense. -/
structure RuleSpec.Valid (s : RuleSpec) : Prop where
  files : ∀ g ∈ s.files, Glob.Compiles g
  notEmpty : s.kind.NotEmpty
  orderKnown : s.kind.OrderKnown
  globs : ∀ g ∈ s.kind.globs, Glob.Compiles g
  patterns : ∀ p ∈ s.kind.patterns, Pattern.Compiles p

/-! ## Compiling -/

namespace RuleHead

theorem exists_ofSpec {s : RuleSpec} :
    (∃ h, RuleHead.ofSpec s = .ok h) ↔ ∀ g ∈ s.files, Glob.Compiles g :=
  exists_bind_pure_eq_ok.trans FileScope.exists_compileOrFail

variable (h : RuleHead)

theorem exists_forbid {check : Option String} {p : ForbiddenPattern} :
    (∃ q, h.forbid check p = .ok q) ↔ Pattern.Compiles p.regex :=
  exists_bind_pure_eq_ok.trans Pattern.exists_compileOrFail

theorem exists_forbidAll {ps : List ForbiddenPattern} :
    (∃ rules, h.forbidAll ps = .ok rules) ↔ ∀ p ∈ ps, Pattern.Compiles p.regex := by
  have hfst : (ps.zipIdx 1).map Prod.fst = ps := List.zipIdx_map_fst ..
  rw [forbidAll, exists_mapM_eq_ok]
  simp only [exists_forbid]
  rw [← hfst, List.forall_mem_map, hfst]

theorem exists_window {function : Option String} {anchor required : String} {before after : Nat}
    {message : Option String} :
    (∃ q, h.window function anchor required before after message = .ok q) ↔
      Pattern.Compiles anchor ∧ Pattern.Compiles required := by
  rw [window, exists_bind_eq_ok fun _ _ => exists_bind_pure_eq_ok, Pattern.exists_compileOrFail,
    Pattern.exists_compileOrFail]

end RuleHead

namespace Requirement

theorem exists_ofSpec {r : BodyRequirement} :
    (∃ q, Requirement.ofSpec r = .ok q) ↔ Pattern.Compiles r.pattern :=
  exists_bind_pure_eq_ok.trans Pattern.exists_compileOrFail

theorem ofSpec_name {r : BodyRequirement} {q : Requirement} (h : Requirement.ofSpec r = .ok q) :
    q.name = r.name := by
  obtain ⟨p, -, hq⟩ := bind_eq_ok.mp h
  obtain rfl := pure_eq_ok.mp hq
  rfl

theorem exists_named {id name : String} {rs : List Requirement} :
    (∃ r, named id rs name = .ok r) ↔ name ∈ rs.map (·.name) := by
  unfold named
  cases h : rs.find? (·.name == name) with
  | some r =>
    have hname : r.name = name := by simpa using List.find?_some h
    have hmem := List.mem_map_of_mem (f := Requirement.name) (List.mem_of_find?_eq_some h)
    exact iff_of_true ⟨r, rfl⟩ (hname ▸ hmem)
  | none =>
    refine iff_of_false (by simp) fun hname => ?_
    obtain ⟨r, hr, rfl⟩ := List.mem_map.mp hname
    simpa using List.find?_eq_none.mp h r hr

end Requirement

namespace Checker

variable (h : RuleHead)

theorem exists_ofSpec_functionBody {function : String} {requirements : List BodyRequirement}
    {order : List (String × String)} :
    (∃ c, Checker.ofSpec h (.functionBody function requirements order) = .ok c) ↔
      (∀ p ∈ requirements.map (·.pattern), Pattern.Compiles p) ∧
        ∀ pair ∈ order, pair.1 ∈ requirements.map (·.name) ∧
          pair.2 ∈ requirements.map (·.name) := by
  rw [List.forall_mem_map]
  refine (exists_bind_eq_ok fun rs hrs => ?_).trans (and_congr ?_ Iff.rfl)
  · have hnames : rs.map (·.name) = requirements.map (·.name) :=
      map_eq_of_mapM_eq_ok (fun _ _ => Requirement.ofSpec_name) hrs
    rw [exists_bind_pure_eq_ok, exists_mapM_eq_ok, ← hnames]
    refine forall₂_congr fun pair _ => ?_
    rw [exists_bind_eq_ok fun _ _ => exists_bind_pure_eq_ok, Requirement.exists_named,
      Requirement.exists_named]
  · rw [exists_mapM_eq_ok]
    exact forall₂_congr fun _ _ => Requirement.exists_ofSpec

/-- Compiling a kind asks for its globs, its patterns and the names that it orders. -/
theorem exists_ofSpec (k : RuleKind) :
    (∃ c, Checker.ofSpec h k = .ok c) ↔
      k.OrderKnown ∧ (∀ g ∈ k.globs, Glob.Compiles g) ∧ ∀ p ∈ k.patterns, Pattern.Compiles p := by
  cases k with
  | forbidden ps =>
    have hmap : (∃ c, Checker.ofSpec h (.forbidden ps) = .ok c) ↔
        ∃ rules, h.forbidAll ps = .ok rules := by
      simp [Checker.ofSpec, map_eq_ok]
    rw [hmap, h.exists_forbidAll]
    simp [RuleKind.OrderKnown, RuleKind.globs, RuleKind.patterns]
  | window function anchor required before after message =>
    rw [Checker.ofSpec, exists_bind_pure_eq_ok, h.exists_window]
    simp [RuleKind.OrderKnown, RuleKind.globs, RuleKind.patterns]
  | enumCoverage enum enumFiles function argument valueFilter =>
    rw [Checker.ofSpec, exists_bind_eq_ok fun _ _ => exists_bind_pure_eq_ok,
      FileScope.exists_compileOrFail, exists_option_mapM_eq_ok]
    simp [RuleKind.OrderKnown, RuleKind.globs, RuleKind.patterns, Pattern.exists_compileOrFail]
  | functionBody function requirements order =>
    rw [exists_ofSpec_functionBody, and_comm]
    simp only [RuleKind.OrderKnown, RuleKind.globs, RuleKind.patterns, List.not_mem_nil,
      false_imp_iff, implies_true, true_and]
  | structField struct field type =>
    simp [Checker.ofSpec, pure_eq_ok, RuleKind.OrderKnown, RuleKind.globs, RuleKind.patterns]
  | pairedCalls pairs =>
    simp [Checker.ofSpec, pure_eq_ok, RuleKind.OrderKnown, RuleKind.globs, RuleKind.patterns]

end Checker

/-- Compiling a rule asks for all that makes it a valid one, apart from having something to
check. -/
theorem CompiledRule.exists_ofSpec {s : RuleSpec} :
    (∃ r, CompiledRule.ofSpec s = .ok r) ↔
      (∀ g ∈ s.files, Glob.Compiles g) ∧ s.kind.OrderKnown ∧
        (∀ g ∈ s.kind.globs, Glob.Compiles g) ∧ ∀ p ∈ s.kind.patterns, Pattern.Compiles p := by
  refine (exists_bind_eq_ok fun head _ => ?_).trans (and_congr RuleHead.exists_ofSpec Iff.rfl)
  exact exists_bind_pure_eq_ok.trans (Checker.exists_ofSpec head s.kind)

theorem Rule.exists_ofSpec {s : RuleSpec} (h : s.Valid) : ∃ r, Rule.ofSpec s = .ok r :=
  exists_bind_pure_eq_ok.mpr
    (CompiledRule.exists_ofSpec.mpr ⟨h.files, h.orderKnown, h.globs, h.patterns⟩)

theorem Rule.ofSpec_id {s : RuleSpec} {r : Rule} (h : Rule.ofSpec s = .ok r) : r.id = s.id := by
  obtain ⟨compiled, hcompiled, hr⟩ := bind_eq_ok.mp h
  obtain rfl := pure_eq_ok.mp hr
  obtain ⟨head, hhead, hcompiled⟩ := bind_eq_ok.mp hcompiled
  obtain ⟨checker, -, hcompiled⟩ := bind_eq_ok.mp hcompiled
  obtain rfl := pure_eq_ok.mp hcompiled
  obtain ⟨scope, -, hhead⟩ := bind_eq_ok.mp hhead
  obtain rfl := pure_eq_ok.mp hhead
  rfl

/-! ## Validating -/

namespace RuleSpec

theorem checkKind_eq_ok {s : RuleSpec} :
    s.checkKind = .ok () ↔ s.kind.NotEmpty ∧ s.kind.OrderKnown := by
  unfold checkKind
  cases hs : s.kind with
  | forbidden ps => cases ps <;> simp [RuleKind.NotEmpty, RuleKind.OrderKnown]
  | pairedCalls pairs => cases pairs <;> simp [RuleKind.NotEmpty, RuleKind.OrderKnown]
  | functionBody function requirements order =>
    -- The first unknown name is the error, so there is none just when all are known.
    have hknown : (order.flatMap fun pair => [pair.1, pair.2]).find?
        (fun n => !requirements.any (·.name == n)) = none ↔
          (RuleKind.functionBody function requirements order).OrderKnown := by
      rw [List.find?_eq_none, List.forall_mem_flatMap]
      simp [RuleKind.OrderKnown]
    rw [← hknown]
    dsimp only
    split
    · next n hn => exact iff_of_false nofun fun h => nomatch hn.symm.trans h.2
    · next hn => exact iff_of_true rfl ⟨trivial, hn⟩
  | enumCoverage => simp [RuleKind.NotEmpty, RuleKind.OrderKnown]
  | window => simp [RuleKind.NotEmpty, RuleKind.OrderKnown]
  | structField => simp [RuleKind.NotEmpty, RuleKind.OrderKnown]

theorem validate_eq_ok {s : RuleSpec} : s.validate = .ok () ↔ s.Valid := by
  have hsteps : s.validate = .ok () ↔
      s.checkKind = .ok () ∧ ∃ r, CompiledRule.ofSpec s = .ok r :=
    check_andThen_eq_ok.trans (and_congr Iff.rfl (andThen_eq_ok.trans (and_iff_left rfl)))
  rw [hsteps, checkKind_eq_ok, CompiledRule.exists_ofSpec]
  constructor
  · rintro ⟨⟨hnotEmpty, -⟩, hfiles, horder, hglobs, hpatterns⟩
    exact ⟨hfiles, hnotEmpty, horder, hglobs, hpatterns⟩
  · intro h
    exact ⟨⟨h.notEmpty, h.orderKnown⟩, h.files, h.orderKnown, h.globs, h.patterns⟩

/-- The id has a character that can be seen. -/
def IdVisible (s : RuleSpec) : Prop :=
  ∃ c ∈ s.id.toList, Text.isBlank c = false

theorem idVisible_iff {s : RuleSpec} : s.IdVisible ↔ Text.trim s.id.toList ≠ [] := by
  rw [Ne, Text.trim_eq_nil]
  simp [IdVisible]

/-- Ids are compared with those of the rules before, which are carried along. -/
theorem checkIds_eq_ok {index : Nat} {seen : List String} {ss : List RuleSpec} :
    checkIds index seen ss = .ok () ↔
      (∀ s ∈ ss, s.IdVisible) ∧ (ss.map (·.id)).Nodup ∧ ∀ s ∈ ss, s.id ∉ seen := by
  induction ss generalizing index seen with
  | nil => simp [checkIds]
  | cons s ss ih =>
    have hstep : checkIds index seen (s :: ss) = .ok () ↔
        s.IdVisible ∧ s.id ∉ seen ∧ checkIds (index + 1) (s.id :: seen) ss = .ok () := by
      rw [checkIds, idVisible_iff]
      by_cases hblank : Text.trim s.id.toList = []
      · simp [hblank]
      · by_cases hseen : s.id ∈ seen
        · simp [hblank, hseen]
        · simp [hblank, hseen]
    rw [hstep, ih]
    simp only [List.map_cons, List.nodup_cons, List.mem_map, List.mem_cons]
    grind

end RuleSpec

namespace ScanSettings

theorem checkRoots_eq_ok {index : Nat} {rs : List SourceRoot} :
    checkRoots index rs = .ok () ↔ ∀ r ∈ rs, r.extensions ≠ [] := by
  induction rs generalizing index with
  | nil => simp [checkRoots]
  | cons r rs ih =>
    rw [checkRoots, List.forall_mem_cons]
    by_cases hr : r.extensions = []
    · simp [hr]
    · simp [hr, ih]

theorem validate_eq_ok {s : ScanSettings} :
    s.validate = .ok () ↔
      (∀ r ∈ s.roots, r.extensions ≠ []) ∧ ∀ g ∈ s.exclude, Glob.Compiles g := by
  refine check_andThen_eq_ok.trans (and_congr checkRoots_eq_ok ?_)
  exact (andThen_eq_ok.trans (and_iff_left rfl)).trans FileScope.exists_compileOrFail

theorem exists_load {s : ScanSettings} {d : Disk} {root : String}
    (h : ∃ exclude, s.excluded = .ok exclude) (hroot : (d.dir? root).isSome) :
    ∃ l, s.load d root = .ok l := by
  obtain ⟨exclude, hexclude⟩ := h
  obtain ⟨⟨base, es⟩, hbase⟩ := Option.isSome_iff_exists.mp hroot
  unfold load
  rw [hexclude, hbase]
  exact ⟨_, rfl⟩

end ScanSettings

/-! ## Selecting -/

/-- With distinct ids, known ids are selected, and each of them keeps one rule. -/
theorem Engine.select_known {e : Engine} {ids : List String} (hids : ids ≠ [])
    (hknown : ∀ id ∈ ids, id ∈ e.rules.map (·.id)) (hdistinct : (e.rules.map (·.id)).Nodup) :
    ∃ e', e.select ids = .ok e' ∧ e'.rules.Sublist e.rules ∧
      ∀ id, (e'.rules.map (·.id)).count id = if id ∈ ids then 1 else 0 := by
  have hfind : ids.find? (fun id => !e.rules.any (·.id == id)) = none := by
    rw [List.find?_eq_none]
    intro id hid
    simpa using hknown id hid
  have hselect : e.select ids =
      .ok { e with rules := e.rules.filter fun r => ids.contains r.id } := by
    rw [Engine.select, if_neg (by simpa using hids), hfind]
  refine ⟨_, hselect, List.filter_sublist, fun id => ?_⟩
  have hkept : (e.rules.filter fun r => ids.contains r.id).map (·.id) =
      (e.rules.map (·.id)).filter ids.contains := by
    rw [List.filter_map]
    rfl
  have hmem : id ∈ (e.rules.map (·.id)).filter ids.contains ↔ id ∈ ids := by
    rw [List.mem_filter, List.contains_iff_mem]
    exact ⟨fun h => h.2, fun h => ⟨hknown id h, h⟩⟩
  have hnodup : ((e.rules.map (·.id)).filter ids.contains).Nodup := hdistinct.filter _
  rw [hkept, hnodup.count]
  simp only [hmem]

/-! ## The gate -/

namespace Settings

/-- Settings that make sense. -/
structure Valid (s : Settings) : Prop where
  extensions : ∀ r ∈ s.scan.roots, r.extensions ≠ []
  exclude : ∀ g ∈ s.scan.exclude, Glob.Compiles g
  idsVisible : ∀ r ∈ s.rules, r.IdVisible
  idsDistinct : (s.rules.map (·.id)).Nodup
  rules : ∀ r ∈ s.rules, r.Valid

theorem validate_eq_ok {s : Settings} : s.validate = .ok () ↔ s.Valid := by
  have hsteps : s.validate = .ok () ↔ s.scan.validate = .ok () ∧
      RuleSpec.checkIds 0 [] s.rules = .ok () ∧ s.rules.forM RuleSpec.validate = .ok () :=
    check_andThen_eq_ok.trans (and_congr Iff.rfl check_andThen_eq_ok)
  rw [hsteps, ScanSettings.validate_eq_ok, RuleSpec.checkIds_eq_ok, forM_eq_ok]
  constructor
  · rintro ⟨⟨hroots, hexclude⟩, ⟨hvisible, hdistinct, -⟩, hrules⟩
    exact ⟨hroots, hexclude, hvisible, hdistinct, fun r hr =>
      RuleSpec.validate_eq_ok.mp (hrules r hr)⟩
  · intro h
    refine ⟨⟨h.extensions, h.exclude⟩, ⟨h.idsVisible, h.idsDistinct, fun _ _ => List.not_mem_nil⟩,
      fun r hr => ?_⟩
    exact RuleSpec.validate_eq_ok.mpr (h.rules r hr)

/-- **Validation is the only gate.** It lets through just the settings that make sense. Behind it
the rules compile in declared order under their own ids, every scan root that is a directory is
loaded, and every selection of declared ids succeeds and keeps one rule for each of them. -/
theorem validation_is_only_gate (s : Settings) :
    (s.validate = .ok () ↔ s.Valid) ∧
    (s.validate = .ok () →
      ∃ rules, Rule.ofSpecs s.rules = .ok rules ∧ rules.map (·.id) = s.rules.map (·.id) ∧
        (∃ exclude, s.scan.excluded = .ok exclude) ∧
        (∀ (d : Disk) (root : String), (d.dir? root).isSome → ∃ l, s.scan.load d root = .ok l) ∧
        ∀ e : Engine, e.rules = rules → ∀ ids : List String, ids ≠ [] →
          (∀ id ∈ ids, id ∈ s.rules.map (·.id)) →
            ∃ e', e.select ids = .ok e' ∧ e'.rules.Sublist rules ∧
              ∀ id, (e'.rules.map (·.id)).count id = if id ∈ ids then 1 else 0) := by
  refine ⟨validate_eq_ok, fun h => ?_⟩
  have hvalid := validate_eq_ok.mp h
  obtain ⟨rules, hrules⟩ := exists_mapM_eq_ok.mpr fun r hr => Rule.exists_ofSpec (hvalid.rules r hr)
  have hids : rules.map (·.id) = s.rules.map (·.id) :=
    map_eq_of_mapM_eq_ok (fun _ _ => Rule.ofSpec_id) hrules
  have hexclude := FileScope.exists_compileOrFail.mpr hvalid.exclude
  refine ⟨rules, hrules, hids, hexclude, fun d root => ScanSettings.exists_load hexclude, ?_⟩
  rintro e rfl ids hnonempty hknown
  rw [← hids] at hknown
  exact Engine.select_known hnonempty hknown (hids ▸ hvalid.idsDistinct)

/-- One rule of each kind, of which two are selected, one of them twice. -/
theorem gate_of_six_kinds :
    ∃ (s : Settings) (rules : List Rule) (e e' : Engine), s.validate = .ok () ∧ s.Valid ∧
      Rule.ofSpecs s.rules = .ok rules ∧ e.rules = rules ∧
      e.select ["F", "A", "F"] = .ok e' ∧ (e'.rules.map (·.id)).count "F" = 1 := by
  let s : Settings :=
    { rules :=
        [{ id := "A", name := "a", kind := .forbidden [⟨"x+", "no x"⟩] },
         { id := "B", name := "b", kind := .enumCoverage "e" ["*.h"] "f" 0 (some "^E_") },
         { id := "C", name := "c", kind := .window none "a" "b" 1 1 none },
         { id := "D", name := "d", kind := .functionBody "f" [⟨"p", "p", none⟩] [("p", "p")] },
         { id := "E", name := "e", kind := .structField "s" "f" none },
         { id := "F", name := "f", kind := .pairedCalls [⟨"f", "g"⟩] }] }
  have hvalidate : s.validate = .ok () := ok_of_toOption (by decide +kernel)
  obtain ⟨hgate, hopen⟩ := validation_is_only_gate s
  obtain ⟨rules, hrules, -, -, -, hselect⟩ := hopen hvalidate
  let e : Engine := { rules, markers := [] }
  obtain ⟨e', he', -, hcount⟩ := hselect e rfl ["F", "A", "F"] (by decide) (by decide)
  exact ⟨s, rules, e, e', hvalidate, hgate.mp hvalidate, hrules, rfl, he', hcount "F"⟩

end Settings
end StructuralRules
