import StructuralRules.Proofs.Rule.LineSites
import StructuralRules.Proofs.Source.CommentSwap

/-!
# What a comment says does not matter

Rules about lines, pairs of calls and fields see of a file its masked text, the
classes of its lines, the lines of its functions and the fields of its structs.
Files that agree in these have findings at the same places. A file in which some
bytes inside a comment were replaced agrees with what it was before.
-/

set_option autoImplicit false

namespace StructuralRules

open Text

/-- The files agree in what rules look at. -/
structure SourceFile.Alike (ms : Markers) (f f' : SourceFile) : Prop where
  path_eq : f.path = f'.path
  masked_eq : f.text.masked = f'.text.masked
  classes_eq : f.classes ms = f'.classes ms
  functions_eq : ∀ name, (FunctionDef.find? f name).map (fun d => (d.startLine, d.endLine)) =
    (FunctionDef.find? f' name).map fun d => (d.startLine, d.endLine)
  structs_eq : ∀ name,
    (StructDef.find? f name ms).map (Option.map fun d => (d.startLine, d.fields)) =
      (StructDef.find? f' name ms).map (Option.map fun d => (d.startLine, d.fields))

theorem CommentKind.Swaps.alike {k : CommentKind} {before inside inside' behind : Text}
    (h : k.Swaps before inside inside' behind) {f f' : SourceFile} {ms : Markers}
    (hpath : f.path = f'.path) (ht : f.text = k.within before inside behind)
    (ht' : f'.text = k.within before inside' behind) (hclasses : f.classes ms = f'.classes ms) :
    f.Alike ms f' := by
  refine ⟨hpath, ?_, hclasses, fun name => ?_, fun name => ?_⟩
  · rw [ht, ht']
    exact h.sameCode.masked_eq
  · have hbody := h.firstBody?_alike (FunctionDef.header_startsVisibly name)
    rw [← ht, ← ht'] at hbody
    rw [FunctionDef.find?, FunctionDef.find?, Option.map_map, Option.map_map]
    refine map_eq_of_rel hbody fun b b' hb => ?_
    exact Prod.ext hb.startLine_eq hb.endLine_eq
  · have hbody := h.body?_alike .struct name
    rw [← ht, ← ht'] at hbody
    rw [StructDef.find?, StructDef.find?]
    generalize Aggregate.struct.body? f.text name = o,
      Aggregate.struct.body? f'.text name = o' at hbody
    cases hbody with
    | none => rfl
    | @some b b' hb =>
      dsimp only
      rw [Field.all_congr hb.inner b.openLine ms ms, hb.openLine_eq]
      cases Field.all b'.inner b'.openLine ms with
      | error e => rfl
      | ok fields =>
        show Except.ok (some (b.startLine, fields)) = Except.ok (some (b'.startLine, fields))
        rw [hb.startLine_eq]

namespace SourceFile.Alike

variable {ms : Markers} {f f' : SourceFile}

theorem refl (ms : Markers) (f : SourceFile) : f.Alike ms f :=
  ⟨rfl, rfl, rfl, fun _ => rfl, fun _ => rfl⟩

/-! ## Rules about lines -/

theorem codeRows_eq (h : f.Alike ms f') : f.codeRows ms = f'.codeRows ms := by
  simp only [codeRows, numbered, lines, masked, h.masked_eq, h.classes_eq]

theorem lineCount_eq (h : f.Alike ms f') : f.lineCount = f'.lineCount := by
  rw [← f.lineCount_masked, ← f'.lineCount_masked, lineCount, lineCount]
  simp only [lines, masked, h.masked_eq]

theorem region?_eq (h : f.Alike ms f') (q : SiteRule) : q.region? f = q.region? f' := by
  unfold SiteRule.region?
  cases q.within with
  | none => rfl
  | some name =>
    have hlines := congrArg (Option.map some) (h.functions_eq name)
    rw [Option.map_map, Option.map_map] at hlines
    exact hlines

theorem reports_eq (h : f.Alike ms f') {q : SiteRule} {p : Pattern} (hq : q.ReadsLines p) :
    q.reports p ms f = q.reports p ms f' := by
  funext n
  have hmasked : f.masked.line? n = f'.masked.line? n := by
    simp only [line?, lines, masked, h.masked_eq]
  unfold SiteRule.reports Pattern.hits
  rw [h.region?_eq q, h.codeRows_eq, h.classes_eq, hmasked]
  congr 1
  funext region
  have hcontext : (q.withContext (f'.codeRows ms) region
        { file := f, line := n, matched := [] }).context =
      (q.withContext (f'.codeRows ms) region { file := f', line := n, matched := [] }).context :=
    SiteRule.context_congr q _ region rfl rfl h.lineCount_eq
  rw [hq.condition_congr _ _ hcontext]

/-! ## Calls -/

theorem lineOfOffset_eq (h : f.Alike ms f') (offset : Nat) :
    f.lineOfOffset offset = f'.lineOfOffset offset := by
  have hstarts : lineStarts f.text = lineStarts f'.text := by
    rw [← (blanked_masked f.text).lineStarts_eq, h.masked_eq,
      (blanked_masked f'.text).lineStarts_eq]
  rw [lineOfOffset, lineOfOffset, hstarts]

/-- The same calls are found; what their arguments say may differ. -/
theorem calls_eq (h : f.Alike ms f') (name : String) :
    (Call.all f name ms).map (fun call => (call.line, call.lineClass)) =
      (Call.all f' name ms).map fun call => (call.line, call.lineClass) := by
  unfold Call.all
  dsimp only
  rw [← h.masked_eq, ← h.classes_eq, List.map_filterMap, List.map_filterMap]
  refine List.filterMap_congr fun s _ => ?_
  cases hlist : drop? f.text.masked (s.stop - 1) with
  | none => simp [Call.atSpan?, hlist]
  | some list =>
    cases hstop : closeFrom '(' ')' 0 (s.stop - 1) list with
    | none => simp [Call.atSpan?, hlist, hstop]
    | some stop =>
      simp only [Call.atSpan?, hlist, hstop, h.lineOfOffset_eq s.start, Option.bind_eq_bind,
        Option.bind_some]
      split_ifs <;> rfl

end SourceFile.Alike

/-! ## Corpora -/

/-- The corpora agree file by file. -/
def Corpus.Alike (ms : Markers) (c c' : Corpus) : Prop :=
  List.Forall₂ (SourceFile.Alike ms) c.files c'.files

namespace Corpus.Alike

variable {ms : Markers} {c c' : Corpus}

theorem inScope (h : c.Alike ms c') (scope : FileScope) :
    List.Forall₂ (SourceFile.Alike ms) (c.inScope scope) (c'.inScope scope) := by
  unfold Corpus.Alike at h
  unfold Corpus.inScope
  generalize c.files = files, c'.files = files' at h
  induction h with
  | nil => exact .nil
  | @cons f f' files files' hf _ ih =>
    rw [List.filter_cons, List.filter_cons, hf.path_eq]
    split
    · exact .cons hf ih
    · exact ih

theorem absences_eq (h : c.Alike ms c') (q : SiteRule) : q.absences c = q.absences c' := by
  have hread : ((c.inScope q.scope).all fun f => (q.region? f).isNone) =
      (c'.inScope q.scope).all fun f => (q.region? f).isNone := by
    have hscope := h.inScope q.scope
    generalize c.inScope q.scope = files, c'.inScope q.scope = files' at hscope
    induction hscope with
    | nil => rfl
    | cons hf _ ih => rw [List.all_cons, List.all_cons, hf.region?_eq q, ih]
  unfold SiteRule.absences
  rw [hread]

theorem found_places (h : c.Alike ms c') {q : SiteRule} {p : Pattern} (hq : q.ReadsLines p) :
    (q.found c ms).map Finding.place = (q.found c' ms).map Finding.place := by
  have hlines : q.reportedLines p c ms = q.reportedLines p c' ms := by
    refine flatMap_eq_of_forall₂ (h.inScope q.scope) fun f f' hf => ?_
    rw [hf.reports_eq hq, hf.lineCount_eq, hf.path_eq]
  rw [SiteRule.found_places hq, SiteRule.found_places hq, hlines, h.absences_eq q]

end Corpus.Alike

namespace RuleHead

variable {ms : Markers} {c c' : Corpus}

theorem place_finding (h : RuleHead) (file : SourceFile) (n : Nat) (check message : String) :
    (h.finding file n check message).place = (file.path, some n, h.severity, some check) := by
  simp [Finding.place, finding]

theorem checkPair_place (h : RuleHead) {f f' : SourceFile} (hf : f.Alike ms f') (p : CallPair) :
    (h.checkPair f ms p).map Finding.place = (h.checkPair f' ms p).map Finding.place := by
  have hopening : ((Call.all f p.opening ms).find? (·.lineClass.isCode)).map (·.line) =
      ((Call.all f' p.opening ms).find? (·.lineClass.isCode)).map (·.line) := by
    have hfind := congrArg (fun calls => (calls.find? (·.2.isCode)).map (·.1))
      (hf.calls_eq p.opening)
    simpa only [List.find?_map, Option.map_map, Function.comp_def] using hfind
  have hclosing : (Call.all f p.closing ms).isEmpty = (Call.all f' p.closing ms).isEmpty := by
    have hempty := congrArg List.isEmpty (hf.calls_eq p.closing)
    simpa only [List.isEmpty_map] using hempty
  have hpair : ∀ file : SourceFile, (h.checkPair file ms p).map Finding.place =
      (((Call.all file p.opening ms).find? (·.lineClass.isCode)).map (·.line)).bind fun n =>
        if (Call.all file p.closing ms).isEmpty then
          some (file.path, some n, h.severity, some p.opening)
        else none := by
    intro file
    unfold checkPair
    cases (Call.all file p.opening ms).find? (·.lineClass.isCode) with
    | none => rfl
    | some call =>
      simp only [Option.bind_eq_bind, Option.bind_some, Option.map_some]
      split_ifs
      · rw [Option.map_some, place_finding]
      · rfl
  rw [hpair, hpair, hopening, hclosing, hf.path_eq]

theorem checkPairs_places (h : RuleHead) (hc : c.Alike ms c') (pairs : List CallPair) :
    (h.checkPairs c ms pairs).map Finding.place = (h.checkPairs c' ms pairs).map Finding.place := by
  unfold checkPairs
  rw [List.map_flatMap, List.map_flatMap]
  refine flatMap_eq_of_forall₂ (hc.inScope h.scope) fun f f' hf => ?_
  rw [List.map_filterMap, List.map_filterMap]
  exact List.filterMap_congr fun p _ => h.checkPair_place hf p

/-! ## Fields -/

/-- The results of two searches agree in what `g` says of what was found. -/
theorem search_cases {ε α β : Type} {g : α → β} {x x' : Except ε (Option α)}
    (h : x.map (Option.map g) = x'.map (Option.map g)) :
    (∃ e, x = .error e ∧ x' = .error e) ∨ (x = .ok none ∧ x' = .ok none) ∨
      ∃ a a', x = .ok (some a) ∧ x' = .ok (some a') ∧ g a = g a' := by
  cases x with
  | error e =>
    cases x' with
    | error e' =>
      obtain rfl := Except.error.inj h
      exact Or.inl ⟨e, rfl, rfl⟩
    | ok o' => cases h
  | ok o =>
    cases x' with
    | error e' => cases h
    | ok o' =>
      have hmap : o.map g = o'.map g := Except.ok.inj h
      cases o with
      | none =>
        cases o' with
        | none => exact Or.inr (Or.inl ⟨rfl, rfl⟩)
        | some a' => cases hmap
      | some a =>
        cases o' with
        | none => cases hmap
        | some a' => exact Or.inr (Or.inr ⟨a, a', rfl, rfl, Option.some.inj hmap⟩)

/-- The struct is found in files with the same path, on the same line and with the same
fields. -/
theorem firstOf?_alike (struct : String) {files files' : List SourceFile}
    (h : List.Forall₂ (SourceFile.Alike ms) files files') :
    (StructDef.firstOf? struct ms files).map
        (Option.map fun found => (found.1.path, found.2.startLine, found.2.fields)) =
      (StructDef.firstOf? struct ms files').map
        (Option.map fun found => (found.1.path, found.2.startLine, found.2.fields)) := by
  induction h with
  | nil => rfl
  | @cons f f' files files' hf _ ih =>
    rw [StructDef.firstOf?, StructDef.firstOf?]
    rcases search_cases (hf.structs_eq struct) with ⟨e, he, he'⟩ | ⟨hnone, hnone'⟩ |
      ⟨d, d', hd, hd', hsame⟩
    · rw [he, he']
      rfl
    · rw [hnone, hnone']
      exact ih
    · obtain ⟨hline, hfields⟩ := Prod.mk.inj hsame
      rw [hd, hd']
      show Except.ok (some (f.path, d.startLine, d.fields)) =
        Except.ok (some (f'.path, d'.startLine, d'.fields))
      rw [hf.path_eq, hline, hfields]

theorem checkField_places (h : RuleHead) (hc : c.Alike ms c') (struct field : String)
    (type : Option String) :
    (h.checkField c ms struct field type).map (List.map Finding.place) =
      (h.checkField c' ms struct field type).map (List.map Finding.place) := by
  unfold checkField
  rcases search_cases (firstOf?_alike struct (hc.inScope h.scope)) with ⟨e, he, he'⟩ |
    ⟨hnone, hnone'⟩ | ⟨⟨f, d⟩, ⟨f', d'⟩, hd, hd', hsame⟩
  · rw [he, he']
  · rw [hnone, hnone']
  · obtain ⟨hpath, hsame⟩ := Prod.mk.inj hsame
    obtain ⟨hline, hfields⟩ := Prod.mk.inj hsame
    have hfield : d.field? field = d'.field? field := by
      rw [StructDef.field?, StructDef.field?, hfields]
    rw [hd, hd', ok_bind, ok_bind]
    dsimp only
    rw [hfield]
    have hplace : ∀ (n n' : Nat) (check message message' : String), n = n' →
        (h.finding f n check message).place = (h.finding f' n' check message').place := by
      intro n n' check message message' hn
      have hpath : f.path = f'.path := hpath
      rw [place_finding, place_finding, hpath, hn]
    cases d'.field? field with
    | none => exact congrArg (fun v => Except.ok [v]) (hplace _ _ _ _ _ hline)
    | some m =>
      cases type with
      | none => rfl
      | some expected =>
        dsimp only
        split_ifs
        · rfl
        · exact congrArg (fun v => Except.ok [v]) (hplace _ _ _ _ _ rfl)

end RuleHead

/-! ## Main statement -/

namespace CompiledRule

variable {kind : RuleKind} {checker : Checker} {ms : Markers} {c c' : Corpus}

theorem sites_places (head : RuleHead) {rules : List SiteRule}
    (reads : ∀ q ∈ rules, ∃ p, q.ReadsLines p) (h : c.Alike ms c') :
    (findings ⟨head, .sites rules⟩ c ms).map (List.map Finding.place) =
      (findings ⟨head, .sites rules⟩ c' ms).map (List.map Finding.place) := by
  rw [findings_sites head reads, findings_sites head reads]
  show Except.ok _ = Except.ok _
  rw [List.map_flatMap, List.map_flatMap]
  congr 1
  refine List.flatMap_congr fun q hq => ?_
  obtain ⟨p, hp⟩ := reads q hq
  exact h.found_places hp

theorem findings_places (hc : Checker.Compiled kind checker)
    (hk : kind.name ∈ ["forbidden", "window", "paired-calls", "struct-field"]) (head : RuleHead)
    (h : c.Alike ms c') :
    (findings ⟨head, checker⟩ c ms).map (List.map Finding.place) =
      (findings ⟨head, checker⟩ c' ms).map (List.map Finding.place) := by
  cases hc with
  | forbidden patterns reads => exact sites_places head reads h
  | window function anchor required before after message reads => exact sites_places head reads h
  | enumCoverage => simp [RuleKind.name] at hk
  | functionBody => simp [RuleKind.name] at hk
  | structField struct field type => exact head.checkField_places h struct field type
  | pairedCalls pairs => exact congrArg Except.ok (head.checkPairs_places h pairs)

end CompiledRule

/-- Alike results of a check. -/
theorem exists_findings_of_places {x x' : Except SplitCharacter (List Finding)}
    (h : x.map (List.map Finding.place) = x'.map (List.map Finding.place)) {fs : List Finding}
    (hx : x = .ok fs) : ∃ fs', x' = .ok fs' ∧ fs'.map Finding.place = fs.map Finding.place := by
  subst hx
  cases x' with
  | error e => cases h
  | ok fs' => exact ⟨fs', rfl, (Except.ok.inj h).symm⟩

/-- **What a comment says does not matter.** Let bytes strictly inside one comment of a file,
none of them a line feed, be replaced by bytes that are no line feed, no star and no slash, so
that the result is text and no line gains or loses a marker. Then every line keeps its class,
the masked text is the same, and four kinds of rules find the same places. -/
theorem Rule.comment_immunity {k : CommentKind} {before inside behind : Text}
    (hstands : k.Stands before inside behind) {f f' : SourceFile} (hpath : f'.path = f.path)
    (htext : f.text = k.within before inside behind) {bytes : Bytes}
    (hbytes : Bytes.Replaced inside.toBytes bytes)
    (htext' : f'.text.toBytes = (before ++ k.opener).toBytes ++ (bytes ++ behind.toBytes))
    {ms : Markers}
    (hmarks : ∀ n l l', f.line? n = some l → f'.line? n = some l' →
      ((∃ m ∈ ms, m.toList <:+: l) ↔ ∃ m ∈ ms, m.toList <:+: l')) :
    f'.classes ms = f.classes ms ∧ f'.text.masked = f.text.masked ∧
    ∀ (s : RuleSpec) (r : Rule), Rule.ofSpec s = .ok r →
      s.kind.name ∈ ["forbidden", "window", "paired-calls", "struct-field"] →
      ∀ (c c' : Corpus) (left right : List SourceFile),
        c.files = left ++ f :: right → c'.files = left ++ f' :: right →
        (∀ fs, r.check c ms = .found fs → ∃ fs', r.check c' ms = .found fs' ∧
          fs'.map Finding.place = fs.map Finding.place) ∧
        ∀ fs', r.check c' ms = .found fs' → ∃ fs, r.check c ms = .found fs ∧
          fs.map Finding.place = fs'.map Finding.place := by
  obtain ⟨inside', hwithin, hswaps⟩ := hstands.replaced hbytes htext'
  have hcode : SameCode f.text f'.text := by
    rw [htext, hwithin]
    exact hswaps.sameCode
  have halike : f.Alike ms f' :=
    hswaps.alike hpath.symm htext hwithin (hcode.classes_eq hmarks)
  refine ⟨halike.classes_eq.symm, halike.masked_eq.symm, ?_⟩
  intro s r hr hk c c' left right hc hc'
  obtain ⟨compiled, hcompiled, hr⟩ := bind_eq_ok.mp hr
  obtain rfl := pure_eq_ok.mp hr
  have hcorpus : c.Alike ms c' := by
    unfold Corpus.Alike
    rw [hc, hc']
    have hsame : ∀ files, List.Forall₂ (SourceFile.Alike ms) files files :=
      fun files => List.forall₂_same.mpr fun g _ => .refl ms g
    exact List.rel_append (hsame left) (.cons halike (hsame right))
  have hplaces := CompiledRule.findings_places (CompiledRule.ofSpec_compiled hcompiled) hk
    compiled.head hcorpus
  simp only [CompiledRule.check_eq_found]
  exact ⟨fun fs hfs => exists_findings_of_places hplaces hfs,
    fun fs' hfs' => exists_findings_of_places hplaces.symm hfs'⟩

/-- A character of two bytes and a brace are replaced in a comment of two lines, inside the
function that the rule is confined to. The anchor behind the comment is still reported. -/
theorem Rule.comment_immunity_in_function :
    ∃ (s : RuleSpec) (r : Rule) (f f' : SourceFile) (fs fs' : List Finding),
      Rule.ofSpec s = .ok r ∧ f.text ≠ f'.text ∧ f.text.masked = f'.text.masked ∧
        r.check ⟨[f], []⟩ Markers.standard = .found fs ∧ fs.map (·.line) = [some 5] ∧
        r.check ⟨[f'], []⟩ Markers.standard = .found fs' ∧
        fs'.map Finding.place = fs.map Finding.place := by
  let s : RuleSpec :=
    { id := "R", name := "r", files := ["a.c"],
      kind := .window (some "f") "go" "unlock" 9 9 none }
  let before : Text := "void f(void) \x7b\n  lock(a); // FFI: kept\n  ".toList
  let inside : Text := " \u00e9 \x7d\n ".toList
  let inside' : Text := " ab \x7b\n ".toList
  let behind : Text := "*/ x = 1;\n  go();\n\x7d\n".toList
  let f : SourceFile := ⟨"a.c", CommentKind.block.within before inside behind⟩
  let f' : SourceFile := ⟨"a.c", CommentKind.block.within before inside' behind⟩
  have hrun : (Rule.ofSpec s).toOption.map (·.check ⟨[f], []⟩ Markers.standard) = some (.found
      [{ path := "a.c", line := some 5, severity := .fail, ruleId := "R", check := some "window",
         message := "'go' without 'unlock' within 9 lines before or 9 after",
         snippet := some "go();" }]) := by decide +kernel
  obtain ⟨r, hr, hfound⟩ := Option.map_eq_some_iff.mp hrun
  have hr := ok_of_toOption hr
  have hstands : CommentKind.block.Stands before inside behind :=
    ⟨by decide +kernel, by decide +kernel, Or.inr ⟨_, rfl⟩⟩
  have hbytes : Bytes.Replaced inside.toBytes inside'.toBytes := by
    unfold Bytes.Replaced
    decide
  have htext' : f'.text.toBytes =
      (before ++ CommentKind.block.opener).toBytes ++ (inside'.toBytes ++ behind.toBytes) := by
    rw [← toBytes_append, ← toBytes_append]
    simp [f', CommentKind.within]
  have hmarked : f.lines.map Markers.standard.marks = f'.lines.map Markers.standard.marks := by
    decide +kernel
  have hmarks : ∀ n l l', f.line? n = some l → f'.line? n = some l' →
      ((∃ m ∈ Markers.standard, m.toList <:+: l) ↔ ∃ m ∈ Markers.standard, m.toList <:+: l') := by
    intro n l l' hl hl'
    cases n with
    | zero => cases hl
    | succ n =>
      have hline := congrArg (·[n]?) hmarked
      simp only [List.getElem?_map] at hline
      rw [show f.lines[n]? = some l from hl, show f'.lines[n]? = some l' from hl'] at hline
      rw [← Markers.marks_iff, ← Markers.marks_iff, Option.some.inj hline]
  have hpath : f'.path = f.path := rfl
  have htext : f.text = CommentKind.block.within before inside behind := rfl
  have himmune := Rule.comment_immunity hstands hpath htext hbytes htext' hmarks
  obtain ⟨fs', hfs', hplaces⟩ :=
    (himmune.2.2 s r hr (by decide) ⟨[f], []⟩ ⟨[f'], []⟩ [] [] rfl rfl).1 _ hfound
  exact ⟨s, r, f, f', _, fs', hr, by decide, himmune.2.1.symm, hfound, rfl, hfs', hplaces⟩

end StructuralRules
