import StructuralRules.Proofs.Rule.Places
import StructuralRules.Proofs.Source.Parts

/-!
# What a rule about a function reads

A function is cut out of its file and masked on its own, from a fresh state. That
is how the file masks it when its header's line starts outside comments, and then
the rule sees just the code of the function. A line that starts in the tail of a
block comment may hold the header behind that tail. The file still masks the
tail, and the rule reads it as code.
-/

set_option autoImplicit false

namespace StructuralRules

open Text

/-! ## Which checks fail -/

theorem Pattern.not_isMatch (p : Pattern) (t : Text) : (!p.isMatch t) = (p.find? t).isNone := by
  rw [isMatch, find?, Regex.isMatch, Option.not_isSome]

namespace Requirement

/-- The code meets both requirements, and the first one later than the second. -/
def swapped (code : Text) (first second : Requirement) : Bool :=
  match first.pattern.find? code, second.pattern.find? code with
  | some a, some b => b.start < a.start
  | _, _ => false

/-- The checks that fail on `code`: the requirements that it does not meet, and the pairs that
it meets in the wrong order. -/
def failing (code : Text) (rs : List Requirement) (order : List (Requirement × Requirement)) :
    List String :=
  (rs.filter fun r => (r.pattern.find? code).isNone).map (·.name) ++
    (order.filter fun o => swapped code o.1 o.2).map fun o =>
      "order:" ++ o.1.name ++ "<" ++ o.2.name

/-- What the requirements and the ordered names of a declaration stand for. -/
structure Declared (requirements : List BodyRequirement) (names : List (String × String))
    (rs : List Requirement) (order : List (Requirement × Requirement)) : Prop where
  compiled : List.Forall₂ (fun q r => r.name = q.name ∧ Pattern.compile q.pattern = .ok r.pattern)
    requirements rs
  resolved : List.Forall₂ (fun n o => rs.find? (·.name == n.1) = some o.1 ∧
    rs.find? (·.name == n.2) = some o.2) names order

theorem compareFirst?_beq_gt (f : Text) (first second : Requirement) :
    (compareFirst? f first.pattern.regex second.pattern.regex == some .gt) =
      swapped f.masked first second := by
  simp only [compareFirst?, swapped, Pattern.find?]
  cases first.pattern.regex.find? f.masked with
  | none => rfl
  | some a =>
    cases second.pattern.regex.find? f.masked with
    | none => rfl
    | some b =>
      rw [Bool.eq_iff_iff, beq_iff_eq, decide_eq_true_iff, ← Nat.compare_eq_gt]
      exact Option.some_inj

theorem named_find? {id name : String} {rs : List Requirement} {r : Requirement}
    (h : named id rs name = .ok r) : rs.find? (·.name == name) = some r := by
  unfold named at h
  split at h
  · next r' hr' => rw [hr', Except.ok.inj h]
  · cases h

end Requirement

namespace RuleHead

variable {h : RuleHead} {c : Corpus} {function : String} {file : SourceFile} {f : FunctionDef}

theorem finding_check (h : RuleHead) (file : SourceFile) (line : Nat) (check message : String) :
    (h.finding file line check message).check = some check :=
  Finding.withSnippet_check _ _

/-- The rule looks at the masked text of the function and at nothing else. -/
theorem checkFunction_checks (hf : FunctionDef.firstIn? c h.scope function = some (file, f))
    (rs : List Requirement) (order : List (Requirement × Requirement)) :
    (h.checkFunction c function rs order).map (·.check) =
      (Requirement.failing f.text.masked rs order).map some := by
  simp only [checkFunction, hf, checkRequirements, checkOrder, Requirement.failing,
    List.map_append, List.map_map, Pattern.not_isMatch, Requirement.compareFirst?_beq_gt]
  congr 1
  · refine List.map_congr_left fun r _ => ?_
    exact finding_check h file _ _ _
  · induction order with
    | nil => rfl
    | cons o order ih =>
      rw [List.filterMap_cons, List.filter_cons]
      cases Requirement.swapped f.text.masked o.1 o.2 with
      | true =>
        rw [if_pos rfl, if_pos rfl, List.map_cons, List.map_cons, ih]
        exact congrArg (· :: _) (finding_check h file _ _ _)
      | false =>
        rw [if_neg (by simp), if_neg (by simp)]
        exact ih

end RuleHead

/-- What a declared rule about a function compiles to. -/
theorem CompiledRule.ofSpec_functionBody {s : RuleSpec} {r : CompiledRule}
    (hr : ofSpec s = .ok r) {function : String} {requirements : List BodyRequirement}
    {names : List (String × String)} (hs : s.kind = .functionBody function requirements names) :
    r.head.Follows s ∧ ∃ rs order, r.checker = .functionBody function rs order ∧
      Requirement.Declared requirements names rs order := by
  obtain ⟨head, hhead, hr⟩ := bind_eq_ok.mp hr
  obtain ⟨checker, hchecker, hr⟩ := bind_eq_ok.mp hr
  obtain rfl := pure_eq_ok.mp hr
  rw [hs] at hchecker
  obtain ⟨rs, hrs, hchecker⟩ := bind_eq_ok.mp hchecker
  obtain ⟨order, horder, hchecker⟩ := bind_eq_ok.mp hchecker
  obtain rfl := pure_eq_ok.mp hchecker
  refine ⟨RuleHead.ofSpec_follows hhead, rs, order, rfl, ?_, ?_⟩
  · refine (mapM_eq_ok.mp hrs).imp fun q r hr => ?_
    obtain ⟨pattern, hpattern, hr⟩ := bind_eq_ok.mp hr
    obtain rfl := pure_eq_ok.mp hr
    exact ⟨rfl, mapError_eq_ok.mp hpattern⟩
  · refine (mapM_eq_ok.mp horder).imp fun n o ho => ?_
    obtain ⟨first, hfirst, ho⟩ := bind_eq_ok.mp ho
    obtain ⟨second, hsecond, ho⟩ := bind_eq_ok.mp ho
    obtain rfl := pure_eq_ok.mp ho
    exact ⟨Requirement.named_find? hfirst, Requirement.named_find? hsecond⟩

theorem Rule.ofSpec_functionBody {s : RuleSpec} {r : Rule} (hr : ofSpec s = .ok r)
    {function : String} {requirements : List BodyRequirement} {names : List (String × String)}
    (hs : s.kind = .functionBody function requirements names) {scope : FileScope}
    (hscope : FileScope.compile s.files = .ok scope) :
    ∃ (head : RuleHead) (rs : List Requirement) (order : List (Requirement × Requirement)),
      head.scope = scope ∧ Requirement.Declared requirements names rs order ∧
      ∀ c ms, r.check c ms = .found (head.checkFunction c function rs order) := by
  obtain ⟨compiled, hcompiled, hr⟩ := bind_eq_ok.mp hr
  obtain rfl := pure_eq_ok.mp hr
  obtain ⟨hhead, rs, order, hchecker, hdeclared⟩ := CompiledRule.ofSpec_functionBody hcompiled hs
  refine ⟨compiled.head, rs, order, Except.ok.inj (hhead.compiled.symm.trans hscope), hdeclared,
    fun c ms => CompiledRule.check_eq_found.mpr ?_⟩
  rw [CompiledRule.findings, hchecker]

/-! ## The function as the file has it -/

theorem FunctionDef.exists_body {file : SourceFile} {name : String} {f : FunctionDef}
    (h : find? file name = some f) :
    ∃ b state, firstBody? file.text (header name) = some b ∧ f.text = b.text ∧
      f.startLine = b.startLine ∧ b.ReadFrom file.text state := by
  obtain ⟨b, hb, rfl⟩ := Option.map_eq_some_iff.mp h
  obtain ⟨state, hread⟩ := Body.exists_readFrom (header_startsLine name) hb
  exact ⟨b, state, hb, rfl, rfl, hread⟩

/-- **A function is masked as its file masks it unless its first line starts inside a block
comment.** A function is found where the lexer of the file is in code or in a block comment, and
the file masks it from that state. What a rule about the function reports is decided by the
function masked on its own, and so from code by what masking the file leaves of it. -/
theorem Rule.function_read_as_in_file {file : SourceFile} {name : String} {f : FunctionDef}
    (hf : FunctionDef.find? file name = some f) :
    ∃ b state code, firstBody? file.text (FunctionDef.header name) = some b ∧ f.text = b.text ∧
      f.startLine = b.startLine ∧ b.ReadFrom file.text state ∧
      slice? file.text.masked b.header b.stop = some code ∧
      (state = .code → f.text.masked = code) ∧
      ∀ (s : RuleSpec) (r : Rule) (requirements : List BodyRequirement)
        (names : List (String × String)) (scope : FileScope) (c : Corpus) (ms : Markers),
        Rule.ofSpec s = .ok r → s.kind = .functionBody name requirements names →
        FileScope.compile s.files = .ok scope →
        FunctionDef.firstIn? c scope name = some (file, f) →
          ∃ rs order fs, Requirement.Declared requirements names rs order ∧
            r.check c ms = .found fs ∧
            fs.map (·.check) = (Requirement.failing f.text.masked rs order).map some := by
  obtain ⟨b, state, hb, htext, hline, hread⟩ := FunctionDef.exists_body hf
  refine ⟨b, state, maskedFrom state b.text, hb, htext, hline, hread, hread.slice?_masked, ?_, ?_⟩
  · rintro rfl
    rw [htext]
    rfl
  · intro s r requirements names scope c ms hr hs hscope hfirst
    obtain ⟨head, rs, order, rfl, hdeclared, hcheck⟩ := Rule.ofSpec_functionBody hr hs hscope
    exact ⟨rs, order, _, hdeclared, hcheck c ms, RuleHead.checkFunction_checks hfirst rs order⟩

/-- The call in front of the function, in its comment and in its literal are all masked, so the
function does not meet the requirement. -/
theorem Rule.masked_calls_do_not_count :
    ∃ (s : RuleSpec) (r : Rule) (c : Corpus) (file : SourceFile) (f : FunctionDef) (b : Body)
      (fs : List Finding),
      Rule.ofSpec s = .ok r ∧ FunctionDef.find? file "f" = some f ∧
        firstBody? file.text (FunctionDef.header "f") = some b ∧
        slice? file.text.masked b.header b.stop = some f.text.masked ∧
        r.check c [] = .found fs ∧ fs.map (·.check) = [some "locks"] := by
  let s : RuleSpec :=
    { id := "R", name := "r", files := ["a.c"]
      kind := .functionBody "f" [⟨"locks", "lock\\(", none⟩] [] }
  let file : SourceFile :=
    ⟨"a.c", "/* lock()\n */\nvoid f(int x) \x7b // lock()\n  g(\"lock()\");\n\x7d\n".toList⟩
  let c : Corpus := ⟨[file], []⟩
  let b : Body :=
    ⟨14, 28, 56, 3, "void f(int x) \x7b // lock()\n  g(\"lock()\");\n\x7d".toList⟩
  let f : FunctionDef := ⟨"f", 3, 5, b.text, b.inner, 3⟩
  have hb : firstBody? file.text (FunctionDef.header "f") = some b := by decide +kernel
  have hf : FunctionDef.find? file "f" = some f := by
    rw [FunctionDef.find?, hb]
    decide +kernel
  have hstate : Lex.at? file.text 14 = some .code := by decide +kernel
  have hcompiled : (Rule.ofSpec s).toOption.isSome = true := by decide +kernel
  obtain ⟨r, hr⟩ := Option.isSome_iff_exists.mp hcompiled
  have hr := ok_of_toOption hr
  have hscoped : (FileScope.compile s.files).toOption.map c.inScope = some [file] := by
    decide +kernel
  obtain ⟨scope, hscope, hfiles⟩ := Option.map_eq_some_iff.mp hscoped
  have hfirst : FunctionDef.firstIn? c scope "f" = some (file, f) := by
    rw [FunctionDef.firstIn?, hfiles]
    simp [hf]
  have hcode : ((Pattern.compile "lock\\(").toOption.map fun p =>
      (p.find? f.text.masked).isNone) = some true := by decide +kernel
  obtain ⟨pattern, hpattern, hnone⟩ := Option.map_eq_some_iff.mp hcode
  -- The function is read as the file has it, so the rule reports what is missing in its code.
  obtain ⟨b', state, code, hb', -, -, hread, hslice, hmasked, hrule⟩ :=
    Rule.function_read_as_in_file hf
  obtain rfl := Option.some.inj (hb.symm.trans hb')
  obtain rfl := Option.some.inj (hstate.symm.trans hread.state_at)
  obtain rfl := hmasked rfl
  obtain ⟨rs, order, fs, hdeclared, hcheck, hchecks⟩ :=
    hrule s r _ [] scope c [] hr rfl (ok_of_toOption hscope) hfirst
  refine ⟨s, r, c, file, f, b, fs, hr, hf, hb, hslice, hcheck, ?_⟩
  rw [hchecks]
  obtain ⟨q, rest, ⟨hname, hq⟩, hrest, rfl⟩ := List.forall₂_cons_left_iff.mp hdeclared.compiled
  obtain rfl := List.forall₂_nil_left_iff.mp hrest
  obtain rfl := List.forall₂_nil_left_iff.mp hdeclared.resolved
  have hsame : q.pattern = pattern := Except.ok.inj (hq.symm.trans (ok_of_toOption hpattern))
  simp [Requirement.failing, hsame, hnone, hname]

/-- The header stands behind the tail of a comment. The rule reads the tail as code and finds in
it the call that the function does not make. -/
theorem Rule.comment_tail_meets_requirement :
    ∃ (s : RuleSpec) (r : Rule) (c : Corpus) (file : SourceFile) (f : FunctionDef) (b : Body)
      (code : Text) (p : Pattern),
      s.kind = .functionBody "f" [⟨"locks", "lock\\(", none⟩] [] ∧ Rule.ofSpec s = .ok r ∧
        c.files = [file] ∧ FunctionDef.find? file "f" = some f ∧
        firstBody? file.text (FunctionDef.header "f") = some b ∧ f.text = b.text ∧
        slice? file.text.masked b.header b.stop = some code ∧ f.text.masked ≠ code ∧
        Pattern.compile "lock\\(" = .ok p ∧ p.isMatch code = false ∧
        r.check c Markers.standard = .found [] := by
  let s : RuleSpec :=
    { id := "R", name := "r", kind := .functionBody "f" [⟨"locks", "lock\\(", none⟩] [] }
  let file : SourceFile :=
    ⟨"a.c", "/* was:\n lock(); */ void f(void) \x7b\n  g();\n\x7d\n".toList⟩
  let code : Text := "            void f(void) \x7b\n  g();\n\x7d".toList
  let b : Body := ⟨8, 33, 43, 2, " lock(); */ void f(void) \x7b\n  g();\n\x7d".toList⟩
  have hrun : (Rule.ofSpec s).toOption.map (·.check ⟨[file], []⟩ Markers.standard) =
      some (.found []) := by decide +kernel
  have hmatch : (Pattern.compile "lock\\(").toOption.map (·.isMatch code) = some false := by
    decide +kernel
  obtain ⟨r, hr, hcheck⟩ := Option.map_eq_some_iff.mp hrun
  obtain ⟨p, hp, hmatch⟩ := Option.map_eq_some_iff.mp hmatch
  have hb : firstBody? file.text (FunctionDef.header "f") = some b := by decide +kernel
  refine ⟨s, r, ⟨[file], []⟩, file, ⟨"f", 2, 4, b.text, b.inner, 2⟩, b, code, p, rfl,
    ok_of_toOption hr, rfl, ?_, hb, rfl, ?_, ?_, ok_of_toOption hp, hmatch, hcheck⟩
  · rw [FunctionDef.find?, hb]
    decide +kernel
  · decide +kernel
  · decide +kernel

end StructuralRules
