import StructuralRules.Proofs.Checked.Call
import StructuralRules.Proofs.Checked.Member
import StructuralRules.Proofs.Rule.Places
import StructuralRules.Proofs.Source.LineClasses

/-!
# Site rules, checked

Places, their surroundings and the findings about them, with every index and sum
checked. The lines around a place are looked up by their numbers. They are the
rows that the rule keeps, because rows are numbered through.
-/

set_option autoImplicit false

namespace StructuralRules

open Text

/-! ## Rows by number -/

namespace SourceFile

theorem classes_getElem? (f : SourceFile) (ms : Markers) {n : Nat} (h : f.HasLine n) :
    ∃ cls, (f.classes ms)[n - 1]? = some cls := by
  have hlen : (f.classes ms).length = f.lineCount := Markers.length_classifyLines ms f.lines
  have hlt : n - 1 < (f.classes ms).length := by
    have hpos := h.pos
    have hle := h.le_count
    omega
  exact ⟨_, List.getElem?_eq_getElem hlt⟩

/-- The row with the number `n`. -/
def codeRow (f : SourceFile) (ms : Markers) (n : Nat) : CodeRow :=
  ⟨n, (f.masked.line? n).getD [], ((f.classes ms)[n - 1]?).getD .code⟩

theorem codeRows_eq_map (f : SourceFile) (ms : Markers) :
    f.codeRows ms = (List.range' 1 f.lineCount).map (f.codeRow ms) := by
  have hlen : (f.classes ms).length = f.lineCount := Markers.length_classifyLines ms f.lines
  rw [codeRows, numbered_eq_map, lineCount_masked]
  apply List.ext_getElem
  · simp [hlen]
  · intro i hi hi'
    have hlt : i < f.lineCount := by simpa using hi'
    have hcls : (f.classes ms)[i]? = some (f.classes ms)[i] := List.getElem?_eq_getElem (by omega)
    simp [codeRow, hcls]

end SourceFile

/-- The numbers from one on that lie between two bounds. -/
theorem filter_range' (first last count : Nat) :
    (List.range' 1 count).filter (fun n => decide (first ≤ n) && decide (n ≤ last)) =
      List.range' (max first 1) (min last count + 1 - max first 1) := by
  induction count with
  | zero =>
    have hzero : min last 0 + 1 - max first 1 = 0 := by omega
    rw [hzero]
    rfl
  | succ count ih =>
    rw [List.range'_1_concat, List.filter_append, ih]
    by_cases hin : first ≤ 1 + count ∧ 1 + count ≤ last
    · have htrue : (decide (first ≤ 1 + count) && decide (1 + count ≤ last)) = true := by
        simpa using hin
      have hmore : min last (count + 1) + 1 - max first 1 =
          (min last count + 1 - max first 1) + 1 := by omega
      have hnext : max first 1 + (min last count + 1 - max first 1) = 1 + count := by omega
      rw [hmore, List.range'_1_concat, hnext, List.filter_singleton, htrue]
      rfl
    · have hfalse : (decide (first ≤ 1 + count) && decide (1 + count ≤ last)) = false := by
        rw [← Bool.not_eq_true]
        simpa using hin
      have hsame : min last (count + 1) + 1 - max first 1 = min last count + 1 - max first 1 := by
        omega
      rw [hsame, List.filter_singleton, hfalse]
      exact List.append_nil _

theorem filterMap_filter_ite {α β : Type} (p q : α → Bool) (g : α → β) (l : List α) :
    (l.filter p).filterMap (fun a => if q a then some (g a) else none) =
      (l.filter fun a => p a && q a).map g := by
  rw [List.filterMap_filter, ← List.filterMap_eq_map, List.filterMap_filter]
  congr 1
  funext a
  cases p a <;> cases q a <;> rfl

namespace Checked

/-! ## Findings -/

/-- The finding, with line `n` of the file to show. -/
def showing (v : Finding) (file : SourceFile) (n : Nat) : Except Fault Finding := do
  return { v with snippet := none }.withSnippet ((← line file n).getD [])

theorem showing_eq {v w : Finding} {file : SourceFile} {n : Nat}
    (hv : v = w.withSnippet ((file.line? n).getD [])) (hw : w.snippet = none) :
    showing v file n = .ok v := by
  rw [showing, line_eq, ok_bind, hv, Finding.withSnippet_eq, Finding.withSnippet_eq]
  simp only [hw]
  rfl

/-! ## Places -/

/-- The region of a file that the rule reads, or `none` if the file is not read. -/
def region (r : SiteRule) (file : SourceFile) : Except Fault (Option (Option Region)) :=
  match r.within with
  | none => .ok (some none)
  | some name => do
      return (← findFunction file name).map fun f => some (f.startLine, f.endLine)

/-- The place of a line that the pattern matches. -/
def lineSite (file : SourceFile) (p : Pattern) (n : Nat) (code : Text) :
    Except Fault (Option Site) :=
  match p.find? code with
  | none => .ok none
  | some s => do
      let shown ← slice code s.start s.stop
      let written := (← line file n).bind (slice? · s.start s.stop)
      return some { file, line := n, matched := written.getD shown }

/-- The class of line `n`, if there is such a line. -/
def classOf (classes : List LineClass) (n : Nat) : Except Fault (Option LineClass) := do
  return classes[← sub n 1]?

/-- The place of a code line of the region that the pattern matches. -/
def codeSite (file : SourceFile) (classes : List LineClass) (region : Option Region)
    (p : Pattern) (row : Nat × Text) : Except Fault (Option Site) := do
  let cls ← classOf classes row.1
  if SiteRule.inRegion region row.1 && cls.any (·.isCode) then lineSite file p row.1 row.2
  else return none

/-- The places in a file, without their surroundings. -/
def locate (r : SiteRule) (file masked : SourceFile) (classes : List LineClass) (ms : Markers)
    (region : Option Region) : Except Fault (List Site) :=
  match r.locator with
  | .lines p => do
      let found ← (← numbered masked).mapM (codeSite file classes region p)
      return found.filterMap id
  | .calls name => do
      return ((← calls file name ms).filter fun c =>
          SiteRule.inRegion region c.line && c.lineClass.isCode).map fun c =>
        { file, line := c.line, matched := name.toList, call := some c }
  | .function name => do
      let d ← findFunction file name
      return (d.map fun d => SiteRule.constructSite file (.function d)).toList
  | .struct name => do
      let d ← findStruct file name ms
      return (d.map fun d => SiteRule.constructSite file (.struct d)).toList
  | .enum name => do
      let d ← findEnum file name ms
      return (d.map fun d => SiteRule.constructSite file (.enum d)).toList

/-- The first and the last line of the surroundings of a place. -/
def extent (r : SiteRule) (s : Site) (region : Option Region) : Except Fault Region :=
  match r.neighborhood with
  | .line => .ok (s.line, s.line)
  | .window before after => do
      let bounds := region.getD (1, lineCount s.file)
      return (max (s.line - before) bounds.1, min (← add s.line after) bounds.2)
  | .body =>
      .ok (match s.construct with
        | some c => (c.startLine, c.endLine)
        | none => region.getD (1, lineCount s.file))

/-- Line `n` with its number, if it is executable. -/
def contextLine (masked : SourceFile) (classes : List LineClass) (n : Nat) :
    Except Fault (Option (Nat × Text)) := do
  let cls ← classOf classes n
  if cls.any (·.isExecutable) then return (← line masked n).map (n, ·) else return none

def withContext (r : SiteRule) (masked : SourceFile) (classes : List LineClass)
    (region : Option Region) (s : Site) : Except Fault Site := do
  let around ← extent r s region
  let first := max around.1 1
  let last := min around.2 (lineCount s.file)
  let context ← (List.range' first (last + 1 - first)).mapM (contextLine masked classes)
  return { s with context := context.filterMap id }

/-- The places in a file, or `none` if the file is not read. -/
def sitesIn (r : SiteRule) (file : SourceFile) (ms : Markers) :
    Except Fault (Option (List Site)) := do
  match ← region r file with
  | none => return none
  | some region =>
      let classes ← classes file ms
      let masked ← maskedFile file
      let sites ← locate r file masked classes ms region
      return some (← sites.mapM (withContext r masked classes region))

def siteFindings (r : SiteRule) (c : Corpus) (ms : Markers) : Except Fault (List Finding) := do
  let read := (← (c.inScope r.scope).mapM (sitesIn r · ms)).filterMap id
  let missing := (r.absent? read).bind (r.onMissing.finding? r.id r.scope.describe ·)
  let found ← (read.flatten.filter (!r.condition ·)).mapM fun s =>
    showing (r.finding s) s.file s.line
  return found ++ missing.toList

end Checked

/-- The last line of a window is a 64-bit number at every place in a file. -/
def SiteRule.WindowFits (r : SiteRule) (file : SourceFile) (ms : Markers) : Prop :=
  ∀ before after, r.neighborhood = .window before after →
    ∀ sites, r.sitesIn file ms = .ok (some sites) → ∀ s ∈ sites, s.line + after < UInt64.size

namespace Checked

variable {r : SiteRule} {file : SourceFile} {ms : Markers}

theorem region_eq (r : SiteRule) (file : SourceFile) : region r file = .ok (r.region? file) := by
  rw [region, SiteRule.region?]
  cases r.within with
  | none => rfl
  | some name =>
    dsimp only
    rw [findFunction_eq, ok_bind]
    rfl

theorem classOf_eq {n : Nat} (h : file.HasLine n) :
    classOf (file.classes ms) n = .ok (some (file.codeRow ms n).lineClass) := by
  obtain ⟨cls, hcls⟩ := file.classes_getElem? ms h
  rw [classOf, sub_eq_ok h.pos, ok_bind, SourceFile.codeRow, hcls]
  rfl

theorem lineSite_eq {p : Pattern} {n : Nat} (h : file.HasLine n) :
    lineSite file p n (file.codeRow ms n).masked =
      .ok (SiteRule.lineSite? file file.lines p (file.codeRow ms n)) := by
  rw [lineSite, SiteRule.lineSite?]
  cases hs : p.find? (file.codeRow ms n).masked with
  | none => rfl
  | some s =>
    obtain ⟨before, m, behind, hd⟩ := (Regex.findAt?_eq_some hs).2.delimits
    have hslice : Text.slice (file.codeRow ms n).masked s.start s.stop = m := by
      rw [hd.text_eq, hd.start_eq, hd.stop_eq]
      exact Text.slice_append before m behind
    have hline : file.lines[n - 1]? = file.line? n := by
      obtain ⟨k, rfl⟩ : ∃ k, n = k + 1 := ⟨n - 1, by have := h.pos; omega⟩
      rfl
    dsimp only
    rw [slice_eq_ok hd.text_eq hd.start_eq hd.stop_eq, ok_bind, line_eq, ok_bind, ← hline]
    simp only [Option.map_some, hslice]
    rfl

theorem hasLine_of_mem_range' {n : Nat} (h : n ∈ List.range' 1 file.lineCount) :
    file.HasLine n := by
  obtain ⟨hpos, hlt⟩ := List.mem_range'_1.mp h
  exact ⟨hpos, by omega⟩

theorem codeSite_eq {p : Pattern} {n : Nat} (h : file.HasLine n) (region : Option Region) :
    codeSite file (file.classes ms) region p (n, (file.codeRow ms n).masked) =
      .ok (if SiteRule.inRegion region n && (file.codeRow ms n).lineClass.isCode then
        SiteRule.lineSite? file file.lines p (file.codeRow ms n) else none) := by
  rw [codeSite, classOf_eq h, ok_bind, Option.any_some]
  split_ifs
  · exact lineSite_eq h
  · rfl

theorem locate_eq (region : Option Region) :
    locate r file file.masked (file.classes ms) ms region =
      (r.locate file (file.codeRows ms) ms region).mapError SplitCharacter.fault := by
  rw [locate, SiteRule.locate]
  cases r.locator with
  | lines p =>
    have hnumbered : file.masked.numbered =
        (List.range' 1 file.lineCount).map fun n => (n, (file.codeRow ms n).masked) := by
      rw [SourceFile.numbered_eq_map, SourceFile.lineCount_masked]
      rfl
    have hfound : ∀ n ∈ List.range' 1 file.lineCount,
        (codeSite file (file.classes ms) region p ∘ fun n => (n, (file.codeRow ms n).masked)) n =
          .ok (if SiteRule.inRegion region n && (file.codeRow ms n).lineClass.isCode then
            SiteRule.lineSite? file file.lines p (file.codeRow ms n) else none) :=
      fun n hn => codeSite_eq (hasLine_of_mem_range' hn) region
    dsimp only
    rw [numbered_eq, ok_bind, hnumbered, List.mapM_map, mapM_eq_ok_map hfound, ok_bind,
      file.codeRows_eq_map ms, List.filterMap_map, List.filterMap_filter, List.filterMap_map]
    rfl
  | calls name =>
    dsimp only
    rw [calls_eq, ok_bind]
    rfl
  | function name =>
    dsimp only
    rw [findFunction_eq, ok_bind]
    rfl
  | struct name =>
    dsimp only
    rw [findStruct_eq, mapError_bind]
    rfl
  | enum name =>
    dsimp only
    rw [findEnum_eq, ok_bind]
    rfl

/-- The bounds of the surroundings admit the same lines of the file. -/
theorem extent_eq {s : Site} (region : Option Region)
    (hfits : ∀ before after, r.neighborhood = .window before after → s.line + after < UInt64.size) :
    ∃ around, extent r s region = .ok around ∧ ∀ n, s.file.HasLine n →
      ((r.extent s region).1 ≤ n ∧ n ≤ (r.extent s region).2 ↔ around.1 ≤ n ∧ n ≤ around.2) := by
  unfold extent SiteRule.extent
  cases hr : r.neighborhood with
  | line => exact ⟨_, rfl, fun n _ => Iff.rfl⟩
  | window before after =>
    dsimp only
    rw [add, if_pos (hfits before after hr), ok_bind]
    refine ⟨_, rfl, fun n hn => ?_⟩
    have hpos := hn.pos
    have hle := hn.le_count
    cases region with
    | none =>
      simp only [Option.getD_none, lineCount_eq]
      omega
    | some bounds =>
      simp only [Option.getD_some]
  | body =>
    cases s.construct with
    | some c => exact ⟨_, rfl, fun n _ => Iff.rfl⟩
    | none =>
      cases region with
      | none => exact ⟨_, rfl, fun n _ => by simp only [Option.getD_none, lineCount_eq]⟩
      | some bounds => exact ⟨_, rfl, fun n _ => Iff.rfl⟩

theorem contextLine_eq {n : Nat} (h : file.HasLine n) :
    contextLine file.masked (file.classes ms) n =
      .ok (if (file.codeRow ms n).lineClass.isExecutable then
        some (n, (file.codeRow ms n).masked) else none) := by
  obtain ⟨l, hl⟩ := (SourceFile.hasLine_masked.mpr h).exists_line
  rw [contextLine, classOf_eq h, ok_bind, Option.any_some, line_eq, ok_bind, hl]
  split_ifs
  · simp [SourceFile.codeRow, hl, pure, Except.pure]
  · rfl

theorem withContext_eq {s : Site} (region : Option Region)
    (hfits : ∀ before after, r.neighborhood = .window before after → s.line + after < UInt64.size) :
    withContext r s.file.masked (s.file.classes ms) region s =
      .ok (r.withContext (s.file.codeRows ms) region s) := by
  obtain ⟨around, haround, hbounds⟩ := extent_eq region hfits
  have hrange : List.range' (max around.1 1)
      (min around.2 s.file.lineCount + 1 - max around.1 1) =
      (List.range' 1 s.file.lineCount).filter
        (fun n => decide ((r.extent s region).1 ≤ n) && decide (n ≤ (r.extent s region).2)) := by
    rw [← filter_range']
    refine List.filter_congr fun n hn => ?_
    have hn := hbounds n (hasLine_of_mem_range' hn)
    rw [← Bool.decide_and, ← Bool.decide_and, decide_eq_decide]
    exact hn.symm
  have hcontext : ∀ n ∈ (List.range' 1 s.file.lineCount).filter
      (fun n => decide ((r.extent s region).1 ≤ n) && decide (n ≤ (r.extent s region).2)), _ :=
    fun n hn => @contextLine_eq s.file ms n (hasLine_of_mem_range' (List.mem_of_mem_filter hn))
  rw [withContext, haround, ok_bind]
  dsimp only
  rw [lineCount_eq, hrange, mapM_eq_ok_map hcontext, ok_bind, SiteRule.withContext,
    s.file.codeRows_eq_map ms]
  dsimp only
  rw [List.filter_map, List.map_map, List.filterMap_map]
  exact congrArg (fun context => Except.ok { s with context })
    (filterMap_filter_ite _ (fun n => (s.file.codeRow ms n).lineClass.isExecutable)
      (fun n => (n, (s.file.codeRow ms n).masked)) _)

theorem sitesIn_eq (hfits : r.WindowFits file ms) :
    sitesIn r file ms = (r.sitesIn file ms).mapError SplitCharacter.fault := by
  unfold SiteRule.WindowFits at hfits
  rw [sitesIn, region_eq, ok_bind]
  unfold SiteRule.sitesIn at hfits ⊢
  cases hregion : r.region? file with
  | none => rfl
  | some region =>
    rw [hregion] at hfits
    dsimp only at hfits ⊢
    rw [classes_eq, ok_bind, maskedFile_eq, ok_bind, locate_eq, mapError_bind]
    cases hlocate : r.locate file (file.codeRows ms) ms region with
    | error e => rfl
    | ok bare =>
      rw [hlocate] at hfits
      have hcontext : ∀ p ∈ bare, withContext r file.masked (file.classes ms) region p =
          .ok (r.withContext (file.codeRows ms) region p) := by
        intro p hp
        obtain ⟨rfl, -⟩ := SiteRule.locate_hasLine hlocate p hp
        refine withContext_eq region fun before after hr => ?_
        exact hfits before after hr _ rfl (r.withContext (p.file.codeRows ms) region p)
          (List.mem_map_of_mem hp)
      show (bare.mapM (withContext r file.masked (file.classes ms) region) >>= fun sites =>
        .ok (some sites)) = _
      rw [mapM_eq_ok_map hcontext]
      rfl

theorem siteFindings_eq {c : Corpus} (hfits : ∀ f ∈ c.inScope r.scope, r.WindowFits f ms) :
    siteFindings r c ms = (r.findings c ms).mapError SplitCharacter.fault := by
  have hread : (c.inScope r.scope).mapM (sitesIn r · ms) =
      ((c.inScope r.scope).mapM (r.sitesIn · ms)).mapError SplitCharacter.fault :=
    mapM_mapError fun f hf => sitesIn_eq (hfits f hf)
  have hshown : ∀ s : Site, showing (r.finding s) s.file s.line = .ok (r.finding s) :=
    fun s => showing_eq rfl rfl
  rw [siteFindings, hread, SiteRule.findings, SiteRule.sitesByFile]
  cases (c.inScope r.scope).mapM (r.sitesIn · ms) with
  | error e => rfl
  | ok read =>
    dsimp only [Except.mapError]
    rw [ok_bind, ok_bind, mapM_eq_ok_map fun s _ => hshown s, ok_bind]
    rfl

end Checked
end StructuralRules
