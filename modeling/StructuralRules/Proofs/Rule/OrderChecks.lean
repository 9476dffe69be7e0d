import StructuralRules.Proofs.Rule.FunctionCode
import StructuralRules.Proofs.Source.LineNumbers

/-!
# Checks of an order

An ordered pair of requirements is told by where the two first match in the masked
function. Of a pair and its reverse at most one can be reported, and a pair whose
requirements do not both match is left to the checks of the requirements. The line
of the report is counted from the function's own line on, in the masked function.
A match may begin inside the spaces that stand for one character, so it need not
begin where the text of the file can be cut. What carries over to the file is where
lines start.
-/

set_option autoImplicit false

namespace StructuralRules

open Text

/-! ## The line of a match in a function -/

/-- Blanking moves no line start. -/
theorem SourceFile.lineOfOffset_congr {f f' : SourceFile} (h : Blanked f'.text f.text)
    (offset : Nat) : f'.lineOfOffset offset = f.lineOfOffset offset := by
  rw [lineOfOffset, lineOfOffset, h.lineStarts_eq]

/-- The lines of a body are counted in any blanked copy of it. -/
theorem Body.Sits.lineOfOffset_blanked {f : SourceFile} {b : Body}
    {before head inner behind : Text} (h : b.Sits f.text before head inner behind) {p q : Text}
    (hblanked : Blanked (p ++ q) b.text) :
    f.lineOfOffset (b.header + byteLength p) = b.startLine + newlines p := by
  cases q with
  | nil =>
    rw [List.append_nil] at hblanked
    rw [hblanked.byteLength_eq, hblanked.newlines_eq]
    exact h.lineOfOffset_add (List.append_nil b.text).symm
  | cons c q =>
    let copy : SourceFile := ⟨f.path, before ++ ((p ++ c :: q) ++ behind)⟩
    have hcopy : Blanked copy.text f.text := by
      rw [h.text_append]
      exact (Blanked.refl before).append (hblanked.append (Blanked.refl behind))
    have hcut : copy.text = (before ++ p) ++ c :: (q ++ behind) := by simp [copy]
    rw [← SourceFile.lineOfOffset_congr hcopy, h.header_eq, ← byteLength_append,
      SourceFile.lineOfOffset_byteLength hcut, h.startLine_eq]
    simp only [newlines, List.count_append]
    omega

namespace FunctionDef

variable {file : SourceFile} {function : String} {f : FunctionDef}

/-- The line of an offset in a function, in its file and counted in the masked function. -/
structure HasLineAt (f : FunctionDef) (file : SourceFile) (header offset line : Nat) : Prop where
  in_file : line = file.lineOfOffset (header + offset)
  counted : line = f.startLine + newlines (slice f.text.masked 0 offset)
  startLine_le : f.startLine ≤ line
  le_endLine : line ≤ f.endLine

theorem exists_hasLineAt (hf : find? file function = some f) :
    ∃ b, firstBody? file.text (header function) = some b ∧ f.text = b.text ∧
      ∀ (r : Regex) (a : Span), r.find? f.text.masked = some a →
        f.HasLineAt file b.header a.start
          (f.startLine + newlines (slice f.text.masked 0 a.start)) := by
  obtain ⟨b, hb, rfl⟩ := Option.map_eq_some_iff.mp hf
  obtain ⟨before, head, inner, behind, hsits⟩ := firstBody?_sits hb
  refine ⟨b, hb, rfl, fun r a ha => ?_⟩
  obtain ⟨-, p, q, -, -, hcut, -, hstart, -⟩ := Regex.findAt?_eq_some ha
  have hblanked : Blanked (p ++ q) b.text := hcut ▸ blanked_masked b.text
  rw [Nat.zero_add] at hstart
  have hslice : slice (p ++ q) 0 (byteLength p) = p := by
    simpa using slice_append [] p q
  dsimp only at hcut ⊢
  refine ⟨?_, rfl, Nat.le_add_right _ _, ?_⟩
  · rw [hcut, hstart, hslice, hsits.lineOfOffset_blanked hblanked]
  · rw [Body.endLine, ← hblanked.newlines_eq, hcut]
    exact Nat.add_le_add_left (newlines_slice_le _ _ _) _

end FunctionDef

/-! ## Which pairs are reported -/

namespace Requirement

variable {code : Text} {first second : Requirement} {a z : Span}

theorem swapped_iff : swapped code first second = true ↔
    ∃ a z, first.pattern.find? code = some a ∧ second.pattern.find? code = some z ∧
      z.start < a.start := by
  unfold swapped
  split
  case h_1 a z ha hz => simp [ha, hz]
  case h_2 hnone =>
    constructor
    · intro h
      cases h
    · rintro ⟨a, z, ha, hz, -⟩
      exact (hnone a z ha hz).elim

theorem swapped_eq (ha : first.pattern.find? code = some a)
    (hz : second.pattern.find? code = some z) :
    swapped code first second = decide (z.start < a.start) := by
  rw [swapped, ha, hz]

theorem not_swapped_both (h : swapped code first second = true) :
    swapped code second first = false := by
  obtain ⟨a, z, ha, hz, hlt⟩ := swapped_iff.mp h
  rw [swapped_eq hz ha, decide_eq_false_iff_not]
  omega

theorem swapped_eq_not (ha : first.pattern.find? code = some a)
    (hz : second.pattern.find? code = some z) (hne : a.start ≠ z.start) :
    swapped code second first = !swapped code first second := by
  rw [swapped_eq hz ha, swapped_eq ha hz, Bool.eq_iff_iff, Bool.not_eq_true', decide_eq_true_iff,
    decide_eq_false_iff_not]
  omega

/-- The requirements that two names stand for, the first of each name. -/
def pair? (rs : List Requirement) (n : String × String) : Option (Requirement × Requirement) :=
  match rs.find? (·.name == n.1), rs.find? (·.name == n.2) with
  | some first, some second => some (first, second)
  | _, _ => none

theorem pair?_eq_some {rs : List Requirement} {n : String × String} :
    pair? rs n = some (first, second) ↔
      rs.find? (·.name == n.1) = some first ∧ rs.find? (·.name == n.2) = some second := by
  unfold pair?
  split
  case h_1 first' second' hfirst hsecond => simp [hfirst, hsecond]
  case h_2 hnone =>
    constructor
    · intro h
      cases h
    · rintro ⟨hfirst, hsecond⟩
      exact (hnone _ _ hfirst hsecond).elim

variable {requirements : List BodyRequirement} {names : List (String × String)}
  {rs : List Requirement} {order : List (Requirement × Requirement)}

theorem Declared.order_eq (h : Declared requirements names rs order) :
    order = names.flatMap fun n => (pair? rs n).toList := by
  have hresolved := h.resolved
  clear h
  induction hresolved with
  | nil => rfl
  | @cons n o names order ho _ ih =>
    rw [List.flatMap_cons, ← ih, pair?_eq_some.mpr ho]
    rfl

theorem Declared.exists_pair (h : Declared requirements names rs order) {n : String × String}
    (hn : n ∈ names) : ∃ first second, pair? rs n = some (first, second) := by
  obtain ⟨i, hi, rfl⟩ := List.mem_iff_getElem.mp hn
  have hi' : i < order.length := h.resolved.length_eq ▸ hi
  exact ⟨order[i].1, order[i].2, pair?_eq_some.mpr (h.resolved.get hi hi')⟩

theorem Declared.names_eq (h : Declared requirements names rs order) :
    rs.map (·.name) = requirements.map (·.name) := by
  have hcompiled := h.compiled
  clear h
  induction hcompiled with
  | nil => rfl
  | cons hq _ ih => rw [List.map_cons, List.map_cons, hq.1, ih]

theorem eq_of_find? {q p : Requirement} (hnodup : (rs.map (·.name)).Nodup) (hq : q ∈ rs)
    (hp : rs.find? (·.name == q.name) = some p) : p = q := by
  have hname := List.find?_some hp
  exact List.inj_on_of_nodup_map hnodup (List.mem_of_find?_eq_some hp) hq (beq_iff_eq.mp hname)

/-- Under distinct names both requirements of a reported pair have a match. -/
theorem isNone_find?_of_swapped {n : String × String} {q : Requirement}
    (hnodup : (rs.map (·.name)).Nodup) (hpair : pair? rs n = some (first, second))
    (hswapped : swapped code first second = true) (hq : q ∈ rs)
    (hname : q.name = n.1 ∨ q.name = n.2) : (q.pattern.find? code).isNone = false := by
  obtain ⟨a, z, ha, hz, -⟩ := swapped_iff.mp hswapped
  obtain ⟨hfirst, hsecond⟩ := pair?_eq_some.mp hpair
  rcases hname with hname | hname
  · obtain rfl := eq_of_find? hnodup hq (hname ▸ hfirst)
    rw [ha, Option.isNone_some]
  · obtain rfl := eq_of_find? hnodup hq (hname ▸ hsecond)
    rw [hz, Option.isNone_some]

end Requirement

/-! ## What is reported about a pair -/

/-- `v` reports that the first match of `first` in the function stands too late, on the line that
holds it. -/
structure Finding.ReportsLate (v : Finding) (file : SourceFile) (f : FunctionDef) (header : Nat)
    (first second : Requirement) : Prop where
  path_eq : v.path = file.path
  check_eq : v.check = some ("order:" ++ first.name ++ "<" ++ second.name)
  message_eq : v.message =
    "'" ++ first.name ++ "' must come before '" ++ second.name ++ "' in " ++ f.name ++ "()"
  holds_match : ∃ a line, first.pattern.find? f.text.masked = some a ∧ v.line = some line ∧
    f.HasLineAt file header a.start line

namespace RuleHead

variable {h : RuleHead} {file : SourceFile} {f : FunctionDef} {rs : List Requirement}
  {n : String × String} {first second : Requirement}

/-- What is reported about one requirement. -/
def unmet (h : RuleHead) (file : SourceFile) (f : FunctionDef) (q : Requirement) : List Finding :=
  h.checkRequirements file f f.text.masked [q]

/-- What is reported about one ordered pair of names. -/
def late (h : RuleHead) (file : SourceFile) (f : FunctionDef) (rs : List Requirement)
    (n : String × String) : List Finding :=
  h.checkOrder file f f.text.masked (Requirement.pair? rs n).toList

/-- The requirements and the pairs are checked each on its own. -/
theorem checkFunction_eq_flatMap {c : Corpus} {function : String}
    {requirements : List BodyRequirement} {names : List (String × String)}
    {order : List (Requirement × Requirement)}
    (hf : FunctionDef.firstIn? c h.scope function = some (file, f))
    (hdeclared : Requirement.Declared requirements names rs order) :
    h.checkFunction c function rs order =
      rs.flatMap (h.unmet file f) ++ names.flatMap (h.late file f rs) := by
  have hunmet : h.checkRequirements file f f.text.masked rs =
      rs.flatMap fun q => h.checkRequirements file f f.text.masked [q] := by
    simp only [checkRequirements]
    rw [← List.map_flatMap, ← List.filter_flatMap, List.flatMap_singleton']
  have hlate : h.checkOrder file f f.text.masked order = names.flatMap (h.late file f rs) := by
    rw [hdeclared.order_eq]
    exact List.filterMap_flatMap
  rw [checkFunction, hf]
  exact congrArg₂ (· ++ ·) hunmet hlate

theorem unmet_eq (h : RuleHead) (file : SourceFile) (f : FunctionDef) (q : Requirement) :
    ∃ v : Finding, v.path = file.path ∧ v.check = some q.name ∧ v.line = some f.startLine ∧
      h.unmet file f q = if (q.pattern.find? f.text.masked).isNone then [v] else [] := by
  refine ⟨h.finding file f.startLine q.name (q.message.getD
    (f.name ++ "() must contain '" ++ q.pattern.source ++ "' (" ++ q.name ++ ")")),
    by simp [finding], by simp [finding], by simp [finding], ?_⟩
  rw [unmet, checkRequirements, List.filter_cons, Pattern.not_isMatch]
  split <;> rfl

theorem late_eq_nil_iff (hpair : Requirement.pair? rs n = some (first, second)) :
    h.late file f rs n = [] ↔ Requirement.swapped f.text.masked first second = false := by
  simp only [late, hpair, Option.toList_some, checkOrder, List.filterMap_cons, List.filterMap_nil,
    Requirement.compareFirst?_beq_gt]
  cases Requirement.swapped f.text.masked first second <;> simp

theorem late_of_swapped {header : Nat}
    (hlines : ∀ (r : Regex) (a : Span), r.find? f.text.masked = some a →
      f.HasLineAt file header a.start (f.startLine + newlines (slice f.text.masked 0 a.start)))
    (hpair : Requirement.pair? rs n = some (first, second))
    (hswapped : Requirement.swapped f.text.masked first second = true) :
    ∃ v : Finding, h.late file f rs n = [v] ∧ v.ReportsLate file f header first second := by
  obtain ⟨a, z, ha, -, -⟩ := Requirement.swapped_iff.mp hswapped
  refine ⟨h.finding file (f.startLine + newlines (slice f.text.masked 0 a.start))
    ("order:" ++ first.name ++ "<" ++ second.name)
    ("'" ++ first.name ++ "' must come before '" ++ second.name ++ "' in " ++ f.name ++ "()"),
    ?_, ?_⟩
  · simp only [late, hpair, Option.toList_some, checkOrder, List.filterMap_cons,
      List.filterMap_nil, Requirement.compareFirst?_beq_gt, if_pos hswapped, ha, Option.map_some,
      Option.getD_some]
  · exact ⟨by simp [finding], by simp [finding], by simp [finding],
      a, _, ha, by simp [finding], hlines first.pattern.regex a ha⟩

/-- Of a pair and its reverse at most one is reported. -/
theorem late_or_reverse {x y : String} (hpair : Requirement.pair? rs (x, y) = some (first, second))
    (hreverse : Requirement.pair? rs (y, x) = some (second, first)) :
    h.late file f rs (x, y) = [] ∨ h.late file f rs (y, x) = [] := by
  rw [late_eq_nil_iff hpair, late_eq_nil_iff hreverse]
  cases hswapped : Requirement.swapped f.text.masked first second with
  | false => exact .inl rfl
  | true => exact .inr (Requirement.not_swapped_both hswapped)

/-- Under distinct names no requirement of a reported pair is missing. -/
theorem unmet_eq_nil_of_late {q : Requirement} (hnodup : (rs.map (·.name)).Nodup)
    (hpair : Requirement.pair? rs n = some (first, second)) (hlate : h.late file f rs n ≠ [])
    (hq : q ∈ rs) (hname : q.name = n.1 ∨ q.name = n.2) : h.unmet file f q = [] := by
  rw [Ne, late_eq_nil_iff hpair, Bool.not_eq_false] at hlate
  obtain ⟨v, -, -, -, hunmet⟩ := h.unmet_eq file f q
  rw [hunmet, Requirement.isNone_find?_of_swapped hnodup hpair hlate hq hname,
    if_neg Bool.false_ne_true]

end RuleHead

/-- **Checks of an order are consistent.** What the rule reports about a function are the
requirements without a match in the masked function, and the pairs of which both match, the first
one later. A late pair is reported on the line of the file that holds the first match of its first
requirement, which is a line of the function. A pair and its reverse are not both reported, and one
of them is where both match at different offsets. Under distinct names no late pair is reported
together with a requirement of it that is missing. -/
theorem Rule.order_checks_consistent {s : RuleSpec} {r : Rule} {function : String}
    {requirements : List BodyRequirement} {names : List (String × String)} {scope : FileScope}
    {c : Corpus} {file : SourceFile} {f : FunctionDef} (hr : Rule.ofSpec s = .ok r)
    (hs : s.kind = .functionBody function requirements names)
    (hscope : FileScope.compile s.files = .ok scope)
    (hf : FunctionDef.firstIn? c scope function = some (file, f)) :
    ∃ (rs : List Requirement) (order : List (Requirement × Requirement)) (b : Body)
      (missing : Requirement → List Finding) (late : String × String → List Finding),
      Requirement.Declared requirements names rs order ∧
      firstBody? file.text (FunctionDef.header function) = some b ∧ f.text = b.text ∧
      (∀ ms, r.check c ms = .found (rs.flatMap missing ++ names.flatMap late)) ∧
      (∀ q, ∃ v : Finding, v.path = file.path ∧ v.check = some q.name ∧
        v.line = some f.startLine ∧
        missing q = if (q.pattern.find? f.text.masked).isNone then [v] else []) ∧
      (∀ n ∈ names, ∃ first second,
        rs.find? (·.name == n.1) = some first ∧ rs.find? (·.name == n.2) = some second ∧
        (Requirement.swapped f.text.masked first second = true →
          ∃ v : Finding, late n = [v] ∧ v.ReportsLate file f b.header first second) ∧
        (Requirement.swapped f.text.masked first second = false → late n = [])) ∧
      (∀ x y first second, rs.find? (·.name == x) = some first →
        rs.find? (·.name == y) = some second → (x, y) ∈ names → (y, x) ∈ names →
        (late (x, y) = [] ∨ late (y, x) = []) ∧
        ∀ a z, first.pattern.find? f.text.masked = some a →
          second.pattern.find? f.text.masked = some z → a.start ≠ z.start →
          (late (x, y) = [] ↔ late (y, x) ≠ [])) ∧
      ((requirements.map (·.name)).Nodup → ∀ n ∈ names, late n ≠ [] →
        ∀ q ∈ rs, q.name = n.1 ∨ q.name = n.2 → missing q = []) := by
  obtain ⟨head, rs, order, rfl, hdeclared, hcheck⟩ := Rule.ofSpec_functionBody hr hs hscope
  obtain ⟨b, hb, htext, hlines⟩ := FunctionDef.exists_hasLineAt (FunctionDef.of_firstIn? hf).2
  refine ⟨rs, order, b, head.unmet file f, head.late file f rs, hdeclared, hb, htext, ?_,
    head.unmet_eq file f, ?_, ?_, ?_⟩
  · intro ms
    rw [hcheck, RuleHead.checkFunction_eq_flatMap hf hdeclared]
  · intro n hn
    obtain ⟨first, second, hpair⟩ := hdeclared.exists_pair hn
    obtain ⟨hfirst, hsecond⟩ := Requirement.pair?_eq_some.mp hpair
    exact ⟨first, second, hfirst, hsecond, RuleHead.late_of_swapped hlines hpair,
      (RuleHead.late_eq_nil_iff hpair).mpr⟩
  · intro x y first second hfirst hsecond _ _
    have hpair := Requirement.pair?_eq_some (n := (x, y)) |>.mpr ⟨hfirst, hsecond⟩
    have hreverse := Requirement.pair?_eq_some (n := (y, x)) |>.mpr ⟨hsecond, hfirst⟩
    refine ⟨RuleHead.late_or_reverse hpair hreverse, fun a z ha hz hne => ?_⟩
    rw [Ne, RuleHead.late_eq_nil_iff hpair, RuleHead.late_eq_nil_iff hreverse,
      Requirement.swapped_eq_not ha hz hne, Bool.not_eq_false', Bool.not_eq_true]
  · intro hnodup n hn hreported q hq hname
    obtain ⟨first, second, hpair⟩ := hdeclared.exists_pair hn
    exact RuleHead.unmet_eq_nil_of_late (hdeclared.names_eq ▸ hnodup) hpair hreported hq hname

/-- Both orders are asked for. The call in the comment does not count, so the lock comes behind
the other call, and this is all that is reported. -/
theorem Rule.late_lock_reported_once :
    ∃ (s : RuleSpec) (r : Rule) (scope : FileScope) (c : Corpus) (file : SourceFile)
      (f : FunctionDef) (v : Finding),
      s.kind = .functionBody "f" [⟨"locks", "lock\\(", none⟩, ⟨"calls", "g\\(", none⟩]
        [("locks", "calls"), ("calls", "locks")] ∧
      Rule.ofSpec s = .ok r ∧ FileScope.compile s.files = .ok scope ∧
      FunctionDef.firstIn? c scope "f" = some (file, f) ∧
      r.check c [] = .found [v] ∧ v.check = some "order:locks<calls" ∧ v.line = some 5 := by
  let s : RuleSpec :=
    { id := "R", name := "r", files := ["a.c"]
      kind := .functionBody "f" [⟨"locks", "lock\\(", none⟩, ⟨"calls", "g\\(", none⟩]
        [("locks", "calls"), ("calls", "locks")] }
  let file : SourceFile :=
    ⟨"a.c", "int y;\nvoid f(int x) \x7b\n  /* lock() */\n  g();\n  lock();\n\x7d\n".toList⟩
  let c : Corpus := ⟨[file], []⟩
  let b : Body :=
    ⟨7, 21, 56, 2, "void f(int x) \x7b\n  /* lock() */\n  g();\n  lock();\n\x7d".toList⟩
  let f : FunctionDef := ⟨"f", 2, 6, b.text, b.inner, 2⟩
  have hb : firstBody? file.text (FunctionDef.header "f") = some b := by decide +kernel
  have hf : FunctionDef.find? file "f" = some f := by
    rw [FunctionDef.find?, hb]
    decide +kernel
  have hcompiled : (Rule.ofSpec s).toOption.isSome = true := by decide +kernel
  obtain ⟨r, hr⟩ := Option.isSome_iff_exists.mp hcompiled
  have hr := ok_of_toOption hr
  have hscoped : (FileScope.compile s.files).toOption.map c.inScope = some [file] := by
    decide +kernel
  obtain ⟨scope, hscope, hfiles⟩ := Option.map_eq_some_iff.mp hscoped
  have hscope := ok_of_toOption hscope
  have hfirst : FunctionDef.firstIn? c scope "f" = some (file, f) := by
    rw [FunctionDef.firstIn?, hfiles]
    simp [hf]
  have hlocks : ((Pattern.compile "lock\\(").toOption.map (·.find? f.text.masked)) =
      some (some ⟨40, 45⟩) := by decide +kernel
  have hcalls : ((Pattern.compile "g\\(").toOption.map (·.find? f.text.masked)) =
      some (some ⟨33, 35⟩) := by decide +kernel
  obtain ⟨locks, hlocks, hlock⟩ := Option.map_eq_some_iff.mp hlocks
  obtain ⟨calls, hcalls, hcall⟩ := Option.map_eq_some_iff.mp hcalls
  obtain ⟨rs, order, b', missing, late, hdeclared, hb', -, hcheck, hmissing, hlate, hboth, -⟩ :=
    Rule.order_checks_consistent hr rfl hscope hfirst
  obtain ⟨p, ps, ⟨hp, hplocks⟩, hps, rfl⟩ := List.forall₂_cons_left_iff.mp hdeclared.compiled
  obtain ⟨q, qs, ⟨hq, hqcalls⟩, hqs, rfl⟩ := List.forall₂_cons_left_iff.mp hps
  obtain rfl := List.forall₂_nil_left_iff.mp hqs
  have hlock : p.pattern.find? f.text.masked = some ⟨40, 45⟩ := by
    rw [Except.ok.inj (hplocks.symm.trans (ok_of_toOption hlocks)), hlock]
  have hcall : q.pattern.find? f.text.masked = some ⟨33, 35⟩ := by
    rw [Except.ok.inj (hqcalls.symm.trans (ok_of_toOption hcalls)), hcall]
  have hswapped : Requirement.swapped f.text.masked p q = true := by
    rw [Requirement.swapped_eq hlock hcall]
    rfl
  obtain ⟨first, second, hfind, hfind', hreported, -⟩ := hlate ("locks", "calls") (by simp)
  obtain rfl : first = p := by simpa [hp, eq_comm] using hfind
  obtain rfl : second = q := by simpa [hp, hq, eq_comm] using hfind'
  obtain ⟨v, hv, hreports⟩ := hreported hswapped
  obtain ⟨a, line, ha, hline, hat⟩ := hreports.holds_match
  obtain rfl := Option.some.inj (ha.symm.trans hlock)
  have hother : late ("calls", "locks") = [] := by
    refine (hboth "locks" "calls" first second hfind hfind' (by simp) (by simp)).1.resolve_left ?_
    simp [hv]
  have hmet : ∀ {q : Requirement} {a : Span}, q.pattern.find? f.text.masked = some a →
      missing q = [] := by
    intro q a ha
    obtain ⟨_, -, -, -, hfindings⟩ := hmissing q
    rw [hfindings, ha]
    rfl
  have hfound : r.check c [] = .found [v] := by
    rw [hcheck]
    simp [hmet hlock, hmet hcall, hv, hother]
  refine ⟨s, r, scope, c, file, f, v, rfl, hr, hscope, hfirst, hfound, ?_, ?_⟩
  · rw [hreports.check_eq, hp, hq]
    decide
  · rw [hline, hat.counted]
    decide +kernel

end StructuralRules
