import StructuralRules.Proofs.Rule.Absence
import StructuralRules.Proofs.Source.MemberLines

/-!
# Rules confined to a function

A site rule that is confined to a function reads the files that define it. Lines
and calls count only on the lines of the definition, and so do their
surroundings. A construct counts wherever the file defines it: the region is not
asked.
-/

set_option autoImplicit false

namespace StructuralRules

/-- The place is a construct, or it is on a line of the definition. -/
def FunctionDef.admits (d : FunctionDef) (s : Site) : Bool :=
  s.construct.isSome || SiteRule.inRegion (some (d.startLine, d.endLine)) s.line

theorem SiteRule.inRegion_some {first last line : Nat} :
    inRegion (some (first, last)) line = true ↔ first ≤ line ∧ line ≤ last := by
  simp [inRegion]

/-- What the rule says of a place in a file that defines `d`, when it is confined to `d`. -/
inductive SiteRule.Confines (r : SiteRule) (file : SourceFile) (d : FunctionDef) (s : Site) : Prop
  /-- A line or a call is inside, and so is all that is read around it. -/
  | inside (file_eq : s.file = file) (construct_eq : s.construct = none)
      (line_inside : d.startLine ≤ s.line ∧ s.line ≤ d.endLine)
      (context_inside : ∀ row ∈ s.context, d.startLine ≤ row.1 ∧ row.1 ≤ d.endLine)
  /-- A construct has the kind and the name that are looked for. -/
  | construct {k : Construct} (file_eq : s.file = file) (construct_eq : s.construct = some k)
      (located : r.locator.construct? = some (k.kind, k.name)) (line_eq : s.line = k.startLine)

namespace SiteRule

variable {r : SiteRule} {c : Corpus} {ms : Markers} {g : String} {file : SourceFile}
  {rows : List CodeRow} {d : FunctionDef} {s : Site} {sites : List Site}

theorem region?_within (hg : r.within = some g) (file : SourceFile) : r.region? file =
    (FunctionDef.find? file g).map fun d => some (d.startLine, d.endLine) := by
  rw [region?, hg]

/-! ## Places -/

theorem filterMap_filter_eq {α β : Type} {f : α → Option β} {keep : β → Bool} {p : α → Bool}
    (h : ∀ a b, f a = some b → keep b = p a) (l : List α) :
    (l.filter p).filterMap f = (l.filterMap f).filter keep := by
  rw [List.filterMap_filter, List.filter_filterMap]
  refine List.filterMap_congr fun a _ => ?_
  cases hb : f a with
  | none => simp
  | some b => simp [Option.filter_some, h a b hb]

/-- The region leaves out the lines and calls outside of it, and nothing else. -/
theorem locate_region (r : SiteRule) (file : SourceFile) (rows : List CodeRow) (ms : Markers)
    (d : FunctionDef) : r.locate file rows ms (some (d.startLine, d.endLine)) =
      (r.locate file rows ms none).map (List.filter d.admits) := by
  unfold locate
  cases r.locator with
  | lines p =>
    have hline : ∀ row site, lineSite? file file.lines p row = some site →
        d.admits site = inRegion (some (d.startLine, d.endLine)) row.number := by
      intro row site hsite
      obtain ⟨span, -, rfl⟩ := Option.map_eq_some_iff.mp hsite
      rfl
    exact congrArg Except.ok (by rw [← List.filter_filter, filterMap_filter_eq hline]; rfl)
  | calls name =>
    refine congrArg Except.ok ?_
    rw [← List.filter_filter, List.filter_map]
    rfl
  | function name =>
    refine congrArg Except.ok ?_
    cases FunctionDef.find? file name <;> rfl
  | struct name =>
    dsimp only
    cases StructDef.find? file name ms with
    | error e => rfl
    | ok found => cases found <;> rfl
  | enum name =>
    refine congrArg Except.ok ?_
    cases EnumDef.find? file name ms <;> rfl

/-- A construct has the kind and the name that are looked for, and stands where it starts. -/
theorem locate_construct {region : Option Region} (h : r.locate file rows ms region = .ok sites)
    (hs : s ∈ sites) {k : Construct} (hk : s.construct = some k) :
    r.locator.construct? = some (k.kind, k.name) ∧ s.line = k.startLine := by
  unfold locate at h
  cases hlocator : r.locator with
  | lines p =>
    rw [hlocator] at h
    obtain rfl := Except.ok.inj h
    obtain ⟨row, -, hsite⟩ := List.mem_filterMap.mp hs
    obtain ⟨span, -, rfl⟩ := Option.map_eq_some_iff.mp hsite
    cases hk
  | calls name =>
    rw [hlocator] at h
    obtain rfl := Except.ok.inj h
    obtain ⟨call, -, rfl⟩ := List.mem_map.mp hs
    cases hk
  | function name =>
    rw [hlocator] at h
    obtain rfl := Except.ok.inj h
    obtain ⟨d, hd, rfl⟩ := Option.map_eq_some_iff.mp (Option.mem_toList.mp hs)
    obtain ⟨b, -, rfl⟩ := Option.map_eq_some_iff.mp hd
    obtain rfl := Option.some.inj hk
    exact ⟨rfl, rfl⟩
  | struct name =>
    rw [hlocator] at h
    obtain ⟨found, hfound, h⟩ := bind_eq_ok.mp h
    obtain rfl := pure_eq_ok.mp h
    obtain ⟨d, rfl, rfl⟩ := Option.map_eq_some_iff.mp (Option.mem_toList.mp hs)
    obtain ⟨b, fields, -, -, rfl⟩ := StructDef.find?_eq_ok_some hfound
    obtain rfl := Option.some.inj hk
    exact ⟨rfl, rfl⟩
  | enum name =>
    rw [hlocator] at h
    obtain rfl := Except.ok.inj h
    obtain ⟨d, hd, rfl⟩ := Option.map_eq_some_iff.mp (Option.mem_toList.mp hs)
    obtain ⟨b, -, rfl⟩ := Option.map_eq_some_iff.mp hd
    obtain rfl := Option.some.inj hk
    exact ⟨rfl, rfl⟩

/-- Around a place on a line of the region, no line outside the region is read. -/
theorem extent_inside {first last : Nat} (hs : s.construct = none) (hline : first ≤ s.line)
    (hline' : s.line ≤ last) : first ≤ (r.extent s (some (first, last))).1 ∧
      (r.extent s (some (first, last))).2 ≤ last := by
  unfold extent
  cases r.neighborhood with
  | line => exact ⟨hline, hline'⟩
  | window before after => exact ⟨Nat.le_max_right _ _, Nat.min_le_right _ _⟩
  | body =>
    rw [hs]
    exact ⟨Nat.le_refl _, Nat.le_refl _⟩

theorem sitesIn_within (hg : r.within = some g) (hd : FunctionDef.find? file g = some d) :
    r.sitesIn file ms = .ok (some sites) ↔
      ∃ all, r.locate file (file.codeRows ms) ms none = .ok all ∧
        sites = (all.filter d.admits).map
          (r.withContext (file.codeRows ms) (some (d.startLine, d.endLine))) := by
  unfold sitesIn
  rw [region?_within hg, hd, Option.map_some]
  dsimp only
  rw [locate_region]
  constructor
  · intro h
    obtain ⟨found, hfound, h⟩ := bind_eq_ok.mp h
    obtain ⟨all, hall, rfl⟩ := map_eq_ok.mp hfound
    exact ⟨all, hall, (Option.some.inj (pure_eq_ok.mp h)).symm⟩
  · rintro ⟨all, hall, rfl⟩
    rw [hall]
    rfl

theorem confines_of_mem (hg : r.within = some g) (hd : FunctionDef.find? file g = some d)
    (h : r.sitesIn file ms = .ok (some sites)) (hs : s ∈ sites) : r.Confines file d s := by
  have hfile := (sitesIn_hasLine h s hs).1
  obtain ⟨all, hall, rfl⟩ := (sitesIn_within hg hd).mp h
  obtain ⟨bare, hbare, rfl⟩ := List.mem_map.mp hs
  obtain ⟨hbare, hadmits⟩ := List.mem_filter.mp hbare
  cases hk : bare.construct with
  | some k =>
    obtain ⟨hlocated, hline⟩ := locate_construct hall hbare hk
    exact .construct hfile hk hlocated hline
  | none =>
    rw [FunctionDef.admits, hk, Option.isSome_none, Bool.false_or, inRegion_some] at hadmits
    refine .inside hfile hk hadmits ?_
    intro row hrow
    obtain ⟨line, hline, rfl⟩ := List.mem_map.mp hrow
    obtain ⟨-, hextent⟩ := List.mem_filter.mp hline
    obtain ⟨hfirst, hlast⟩ := extent_inside (r := r) hk hadmits.1 hadmits.2
    simp only [Bool.and_eq_true, decide_eq_true_eq] at hextent
    exact ⟨Nat.le_trans hfirst hextent.1.1, Nat.le_trans hextent.1.2 hlast⟩

/-! ## Findings -/

/-- A finding with a line is about a place of a file that defines the function. -/
theorem exists_place_of_finding (hg : r.within = some g) {fs : List Finding}
    (h : r.findings c ms = .ok fs) {v : Finding} (hv : v ∈ fs) {n : Nat} (hn : v.line = some n) :
    ∃ file d sites s, file ∈ c.inScope r.scope ∧ FunctionDef.find? file g = some d ∧
      r.sitesIn file ms = .ok (some sites) ∧ s ∈ sites ∧ r.condition s = false ∧
      v = r.finding s ∧ v.path = file.path ∧ n = s.line := by
  obtain ⟨read, hread, h⟩ := bind_eq_ok.mp h
  obtain rfl := pure_eq_ok.mp h
  obtain hv | hv := List.mem_append.mp hv
  · obtain ⟨all, hall, hflat⟩ := bind_eq_ok.mp hread
    obtain rfl := pure_eq_ok.mp hflat
    obtain ⟨s, hreported, rfl⟩ := List.mem_map.mp hv
    obtain ⟨hread, hcondition⟩ := List.mem_filter.mp hreported
    obtain ⟨sites, hsites, hs⟩ := List.mem_flatten.mp hread
    obtain ⟨found, hfound, rfl⟩ := List.mem_filterMap.mp hsites
    obtain ⟨file, hfile, hin⟩ := mem_of_mapM_eq_ok hall hfound
    obtain ⟨d, hd⟩ : ∃ d, FunctionDef.find? file g = some d := by
      rw [← Option.ne_none_iff_exists']
      intro hnone
      rw [sitesIn, region?_within hg, hnone] at hin
      cases hin
    have hplace := (sitesIn_hasLine hin s hs).1
    refine ⟨file, d, sites, s, hfile, hd, hin, hs, by simpa using hcondition, rfl, ?_, ?_⟩
    · rw [finding, Finding.withSnippet_path, hplace]
    · rw [finding, Finding.withSnippet_line] at hn
      exact (Option.some.inj hn).symm
  · obtain ⟨message, -, hv⟩ := Option.bind_eq_some_iff.mp (Option.mem_toList.mp hv)
    rw [(MissingPolicy.finding?_eq_some hv).2.1] at hn
    cases hn

/-- **A rule that is confined to a function finds lines and calls inside of it, and constructs
wherever they are.** Files without the function are not read. In the others the region leaves out
the lines and calls outside of it and nothing else. -/
theorem within_confines (r : SiteRule) (c : Corpus) (ms : Markers) {g : String}
    (hg : r.within = some g) :
    (∀ file, FunctionDef.find? file g = none → r.sitesIn file ms = .ok none) ∧
    (∀ file d, FunctionDef.find? file g = some d → ∀ sites,
      (r.sitesIn file ms = .ok (some sites) ↔
        ∃ all, r.locate file (file.codeRows ms) ms none = .ok all ∧
          sites = (all.filter d.admits).map
            (r.withContext (file.codeRows ms) (some (d.startLine, d.endLine)))) ∧
      (r.sitesIn file ms = .ok (some sites) → ∀ s ∈ sites, r.Confines file d s)) ∧
    (∀ fs, r.findings c ms = .ok fs → ∀ v ∈ fs, ∀ n, v.line = some n →
      ∃ file d s, file ∈ c.inScope r.scope ∧ FunctionDef.find? file g = some d ∧
        r.Confines file d s ∧ r.condition s = false ∧ v = r.finding s ∧ v.path = file.path ∧
        n = s.line ∧ (r.locator.construct? = none → d.startLine ≤ n ∧ n ≤ d.endLine)) := by
  refine ⟨fun file hnone => ?_, fun file d hd sites => ⟨sitesIn_within hg hd, fun h s hs => ?_⟩, ?_⟩
  · rw [sitesIn, region?_within hg, hnone]
    rfl
  · exact confines_of_mem hg hd h hs
  · intro fs h v hv n hn
    obtain ⟨file, d, sites, s, hfile, hd, hin, hs, hcondition, hfinding, hpath, rfl⟩ :=
      exists_place_of_finding hg h hv hn
    have hconfines := confines_of_mem hg hd hin hs
    refine ⟨file, d, s, hfile, hd, hconfines, hcondition, hfinding, hpath, rfl, fun hlocator => ?_⟩
    cases hconfines with
    | inside _ _ hinside _ => exact hinside
    | construct _ _ hlocated _ =>
      rw [hlocator] at hlocated
      cases hlocated

/-- Of two calls, the one in the function is reported. -/
theorem call_found_inside_function :
    ∃ (plan : SitePlan) (r : SiteRule) (file : SourceFile) (d : FunctionDef) (fs : List Finding),
      plan.build = .ok r ∧ r.within = some "g" ∧ FunctionDef.find? file "g" = some d ∧
        r.findings ⟨[file], []⟩ Markers.standard = .ok fs ∧ fs.map (·.line) = [some 5] ∧
        d.startLine ≤ 5 ∧ 5 ≤ d.endLine := by
  let plan : SitePlan :=
    { id := "R", name := "r", locator := some (.calls "f"), within := some "g" }
  let file : SourceFile :=
    ⟨"a.c", "void h(void) \x7b\n  f();\n\x7d\nvoid g(void) \x7b\n  f();\n\x7d\n".toList⟩
  have hrun : plan.build.toOption.map (fun r => (r.within, r.locator.construct?,
      (r.findings ⟨[file], []⟩ Markers.standard).toOption.map (·.map (·.line)))) =
        some (some "g", none, some [some 5]) := by decide +kernel
  obtain ⟨r, hr, hparts⟩ := Option.map_eq_some_iff.mp hrun
  obtain ⟨hwithin, hlocator, hfindings⟩ : r.within = some "g" ∧ r.locator.construct? = none ∧
      (r.findings ⟨[file], []⟩ Markers.standard).toOption.map (·.map (·.line)) =
        some [some 5] := by
    simpa using hparts
  obtain ⟨fs, hfs, hlines⟩ := Option.map_eq_some_iff.mp hfindings
  have hfs := ok_of_toOption hfs
  obtain ⟨v, hv, hline⟩ : ∃ v ∈ fs, v.line = some 5 := List.mem_map.mp (by simp [hlines])
  obtain ⟨-, -, hplaces⟩ := within_confines r ⟨[file], []⟩ Markers.standard hwithin
  obtain ⟨file', d, s, hfile, hd, -, -, -, -, -, hinside⟩ := hplaces fs hfs v hv 5 hline
  obtain rfl := List.mem_singleton.mp (List.mem_of_mem_filter hfile)
  obtain ⟨hfirst, hlast⟩ := hinside hlocator
  exact ⟨plan, r, _, d, fs, ok_of_toOption hr, hwithin, hd, hfs, hlines, hfirst, hlast⟩

/-- A struct in front of the function is reported too. -/
theorem struct_reported_outside_function :
    ∃ (plan : SitePlan) (r : SiteRule) (file : SourceFile) (d : FunctionDef) (fs : List Finding)
      (v : Finding),
      plan.build = .ok r ∧ r.within = some "g" ∧ FunctionDef.find? file "g" = some d ∧
        (d.startLine, d.endLine) = (4, 6) ∧
        r.findings ⟨[file], []⟩ Markers.standard = .ok fs ∧ v ∈ fs ∧ v.path = file.path ∧
        v.line = some 1 := by
  let plan : SitePlan :=
    { id := "R", name := "r", locator := some (.struct "S"), within := some "g" }
  let file : SourceFile :=
    ⟨"a.c", "struct S \x7b\n  int x;\n\x7d;\nvoid g(void) \x7b\n  f();\n\x7d\n".toList⟩
  have hfunction : (FunctionDef.find? file "g").map (fun d => (d.startLine, d.endLine)) =
      some (4, 6) := by decide +kernel
  have hrun : plan.build.toOption.map (fun r => (r.within,
      (r.findings ⟨[file], []⟩ Markers.standard).toOption.map (·.map fun v => (v.path, v.line)))) =
        some (some "g", some [("a.c", some 1)]) := by decide +kernel
  obtain ⟨d, hd, hlines⟩ := Option.map_eq_some_iff.mp hfunction
  obtain ⟨r, hr, hparts⟩ := Option.map_eq_some_iff.mp hrun
  obtain ⟨hwithin, hfindings⟩ := Prod.mk.inj hparts
  obtain ⟨fs, hfs, hplaces⟩ := Option.map_eq_some_iff.mp hfindings
  obtain ⟨v, hv, hplace⟩ := List.mem_map.mp
    (show ("a.c", some 1) ∈ fs.map fun v => (v.path, v.line) by simp [hplaces])
  obtain ⟨hpath, hline⟩ := Prod.mk.inj hplace
  exact ⟨plan, r, file, d, fs, v, ok_of_toOption hr, hwithin, hd, hlines, ok_of_toOption hfs, hv,
    hpath, hline⟩

end SiteRule
end StructuralRules
