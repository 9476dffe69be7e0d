import StructuralRules.Proofs.Checked.Site

/-!
# Rules, checked

The checks of all kinds of rules with every cut, index, subtraction and sum
checked. A compiled rule faults only where reading the fields of a struct does.
-/

set_option autoImplicit false

namespace StructuralRules

open Text

/-! ## The first struct -/

namespace StructDef

/-- The first of the files that has the struct has one that cannot be read. -/
def FirstUnreadable (name : String) (ms : Markers) (files : List SourceFile) : Prop :=
  ∃ before f behind b, files = before ++ f :: behind ∧
    (∀ g ∈ before, Aggregate.struct.body? g.text name = none) ∧
    Aggregate.struct.body? f.text name = some b ∧ Field.Unreadable b.inner ms

theorem firstUnreadable_cons {name : String} {ms : Markers} {f : SourceFile}
    {fs : List SourceFile} :
    FirstUnreadable name ms (f :: fs) ↔
      (∃ e, find? f name ms = .error e) ∨
        find? f name ms = .ok none ∧ FirstUnreadable name ms fs := by
  rw [find?_error_iff, find?_eq_none_iff]
  constructor
  · rintro ⟨before, g, behind, b, hfiles, hbefore, hb, hunreadable⟩
    cases before with
    | nil =>
      obtain ⟨rfl, rfl⟩ := List.cons.inj hfiles
      exact Or.inl ⟨b, hb, hunreadable⟩
    | cons f' before =>
      obtain ⟨rfl, rfl⟩ := List.cons.inj hfiles
      refine Or.inr ⟨hbefore f List.mem_cons_self, before, g, behind, b, rfl, ?_, hb, hunreadable⟩
      exact fun g' hg' => hbefore g' (List.mem_cons_of_mem f hg')
  · rintro (⟨b, hb, hunreadable⟩ | ⟨hf, before, g, behind, b, rfl, hbefore, hb, hunreadable⟩)
    · exact ⟨[], f, fs, b, rfl, by simp, hb, hunreadable⟩
    · refine ⟨f :: before, g, behind, b, rfl, ?_, hb, hunreadable⟩
      intro g' hg'
      rcases List.mem_cons.mp hg' with rfl | hg'
      · exact hf
      · exact hbefore g' hg'

theorem firstOf?_error_iff {name : String} {ms : Markers} {files : List SourceFile} :
    (∃ e, firstOf? name ms files = .error e) ↔ FirstUnreadable name ms files := by
  induction files with
  | nil => simp [firstOf?, FirstUnreadable]
  | cons f fs ih =>
    rw [firstUnreadable_cons, ← ih, firstOf?]
    cases find? f name ms with
    | error e => simp
    | ok d =>
      cases d with
      | none => simp
      | some d => simp [pure, Except.pure]

end StructDef

namespace Checked

/-! ## Definitions -/

/-- How the first matches of two patterns in the masked text compare, if both match. -/
def compareFirst (body : Text) (first second : Regex) : Except Fault (Option Ordering) := do
  let masked ← masked body
  return do
    let a ← first.find? masked
    let b ← second.find? masked
    some (compare a.start b.start)

def coveredNames (h : RuleHead) (c : Corpus) (ms : Markers) (function : String)
    (argument : Nat) : Except Fault (List Text) := do
  let names ← (c.inScope h.scope).mapM fun f => do
    return (← calls f function ms).flatMap fun call =>
      match call.args[argument]? with
      | some arg => arg.tokens
      | none => []
  return names.flatten

def checkCoverage (h : RuleHead) (c : Corpus) (ms : Markers) (enum : String)
    (enumScope : FileScope) (function : String) (argument : Nat) (filter : Option Pattern) :
    Except Fault (List Finding) := do
  let found ← (c.inScope enumScope).findSomeM? fun f => do
    return (← findEnum f enum ms).map (f, ·)
  match found with
  | none => return h.missing "enum" enum
  | some (file, d) =>
      let covered ← coveredNames h c ms function argument
      let due := d.values.filter fun v =>
        filter.all (·.isMatch v.name) && !covered.contains v.name
      due.mapM fun v =>
        showing (h.finding file v.line "coverage"
          (enum ++ "::" ++ String.ofList v.name ++ " is never passed to " ++ function ++ "()"))
          file v.line

def checkRequirements (h : RuleHead) (file : SourceFile) (f : FunctionDef) (masked : Text)
    (rs : List Requirement) : Except Fault (List Finding) :=
  (rs.filter (!·.pattern.isMatch masked)).mapM fun r =>
    showing (h.finding file f.startLine r.name <| r.message.getD
      (f.name ++ "() must contain '" ++ r.pattern.source ++ "' (" ++ r.name ++ ")"))
      file f.startLine

/-- Checks the order of one pair. The requirements are kept as their places in the list. -/
def checkPairOrder (h : RuleHead) (file : SourceFile) (f : FunctionDef) (masked : Text)
    (rs : List Requirement) (pair : Requirement × Requirement) :
    Except Fault (Option Finding) := do
  let first ← index rs (rs.findIdx (·.name == pair.1.name))
  let second ← index rs (rs.findIdx (·.name == pair.2.name))
  if (← compareFirst f.text first.pattern.regex second.pattern.regex) == some .gt then
    let offset := ((first.pattern.find? masked).map (·.start)).getD 0
    let line := f.startLine + newlines (← sliceTo masked offset)
    return some (← showing (h.finding file line ("order:" ++ first.name ++ "<" ++ second.name)
      ("'" ++ first.name ++ "' must come before '" ++ second.name ++ "' in " ++ f.name ++ "()"))
      file line)
  else return none

def checkOrder (h : RuleHead) (file : SourceFile) (f : FunctionDef) (masked : Text)
    (rs : List Requirement) (order : List (Requirement × Requirement)) :
    Except Fault (List Finding) := do
  return (← order.mapM (checkPairOrder h file f masked rs)).filterMap id

def checkFunction (h : RuleHead) (c : Corpus) (function : String) (rs : List Requirement)
    (order : List (Requirement × Requirement)) : Except Fault (List Finding) := do
  let found ← (c.inScope h.scope).findSomeM? fun f => do
    return (← findFunction f function).map (f, ·)
  match found with
  | none => return h.missing "function" function
  | some (file, f) =>
      let masked ← masked f.text
      let unmet ← checkRequirements h file f masked rs
      let unordered ← checkOrder h file f masked rs order
      return unmet ++ unordered

def checkField (h : RuleHead) (c : Corpus) (ms : Markers) (struct field : String)
    (type : Option String) : Except Fault (List Finding) := do
  let found ← (c.inScope h.scope).findSomeM? fun f => do
    return (← findStruct f struct ms).map (f, ·)
  match found with
  | none => return h.missing "struct" struct
  | some (file, d) =>
      match d.field? field with
      | none =>
          return [← showing (h.finding file d.startLine "field"
            s!"struct {struct} has no field '{field}'") file d.startLine]
      | some f =>
          match type with
          | none => return []
          | some expected =>
              if f.typeMatches expected.toList then return []
              else
                let actual := String.ofList f.type
                return [← showing (h.finding file f.line "field-type"
                  s!"{struct}.{field} has type '{actual}', expected '{expected}'") file f.line]

def checkPair (h : RuleHead) (file : SourceFile) (ms : Markers) (p : CallPair) :
    Except Fault (Option Finding) := do
  match ((← calls file p.opening ms).filter (·.lineClass.isCode)).head? with
  | none => return none
  | some call =>
      if (← calls file p.closing ms).isEmpty then
        return some (← showing (h.finding file call.line p.opening
          (p.opening ++ "() is called without a matching " ++ p.closing ++ "()")) file call.line)
      else return none

def checkPairs (h : RuleHead) (c : Corpus) (ms : Markers) (pairs : List CallPair) :
    Except Fault (List Finding) := do
  let found ← (c.inScope h.scope).mapM fun f => do
    return (← pairs.mapM (checkPair h f ms)).filterMap id
  return found.flatten

/-- What the rule finds in a corpus, with everything checked. -/
def findings (r : CompiledRule) (c : Corpus) (ms : Markers) : Except Fault (List Finding) :=
  match r.checker with
  | .sites rules => do return (← rules.mapM (siteFindings · c ms)).flatten
  | .enumCoverage enum enumScope function argument filter =>
      checkCoverage r.head c ms enum enumScope function argument filter
  | .functionBody function requirements order =>
      checkFunction r.head c function requirements order
  | .structField struct field type => checkField r.head c ms struct field type
  | .pairedCalls pairs => checkPairs r.head c ms pairs

/-! ## They give what the checks that run give -/

theorem showing_finding (h : RuleHead) (file : SourceFile) (n : Nat) (check message : String) :
    showing (h.finding file n check message) file n = .ok (h.finding file n check message) :=
  showing_eq rfl rfl

theorem compareFirst_eq (body : Text) (first second : Regex) :
    compareFirst body first second = .ok (compareFirst? body first second) := by
  rw [compareFirst, masked_eq, ok_bind]
  rfl

theorem coveredNames_eq (h : RuleHead) (c : Corpus) (ms : Markers) (function : String)
    (argument : Nat) :
    coveredNames h c ms function argument = .ok (h.coveredNames c ms function argument) := by
  refine mapM_flatten_eq_ok fun f _ => ?_
  rw [calls_eq, ok_bind]
  rfl

theorem checkCoverage_eq (h : RuleHead) (c : Corpus) (ms : Markers) (enum : String)
    (enumScope : FileScope) (function : String) (argument : Nat) (filter : Option Pattern) :
    checkCoverage h c ms enum enumScope function argument filter =
      .ok (h.checkCoverage c ms enum enumScope function argument filter) := by
  have hfound : (c.inScope enumScope).findSomeM?
      (fun f => do return (← findEnum f enum ms).map (f, ·)) =
      .ok (EnumDef.firstIn? c enumScope enum ms) := by
    refine findSomeM?_eq_ok fun f _ => ?_
    rw [findEnum_eq, ok_bind]
    rfl
  rw [checkCoverage, hfound, ok_bind, RuleHead.checkCoverage]
  cases EnumDef.firstIn? c enumScope enum ms with
  | none => rfl
  | some found =>
    obtain ⟨file, d⟩ := found
    dsimp only
    rw [coveredNames_eq, ok_bind]
    exact mapM_eq_ok_map fun v _ => showing_finding h file v.line _ _

/-- A requirement of an order is the first one with its name. -/
def Ordered (rs : List Requirement) (order : List (Requirement × Requirement)) : Prop :=
  ∀ pair ∈ order, rs.find? (·.name == pair.1.name) = some pair.1 ∧
    rs.find? (·.name == pair.2.name) = some pair.2

theorem index_findIdx {rs : List Requirement} {r : Requirement}
    (hr : rs.find? (·.name == r.name) = some r) :
    index rs (rs.findIdx (·.name == r.name)) = .ok r := by
  rw [List.find?_eq_getElem?_findIdx] at hr
  exact index_eq_ok hr

theorem checkOrder_eq (h : RuleHead) (file : SourceFile) (f : FunctionDef)
    {rs : List Requirement} {order : List (Requirement × Requirement)}
    (horder : Ordered rs order) :
    checkOrder h file f f.text.masked rs order = .ok (h.checkOrder file f f.text.masked order) := by
  unfold checkOrder RuleHead.checkOrder
  refine mapM_filterMap_eq_ok fun pair hp => ?_
  obtain ⟨first, second⟩ := pair
  obtain ⟨hfirst, hsecond⟩ := horder _ hp
  rw [checkPairOrder, index_findIdx hfirst, ok_bind, index_findIdx hsecond, ok_bind,
    compareFirst_eq, ok_bind]
  dsimp only
  split_ifs
  · have hcut : f.text.masked.IsCut
        (((first.pattern.find? f.text.masked).map (·.start)).getD 0) := by
      cases hfind : first.pattern.find? f.text.masked with
      | none => exact ⟨[], _, rfl, rfl⟩
      | some s => exact (Regex.findAt?_eq_some hfind).2.isCut
    obtain ⟨p, r, hm, ho⟩ := hcut
    have hslice : Text.slice f.text.masked 0
        (((first.pattern.find? f.text.masked).map (·.start)).getD 0) = p := by
      rw [ho, hm]
      simpa using Text.slice_append [] p r
    rw [sliceTo_eq_ok hm ho, ok_bind, showing_finding, ok_bind, hslice]
    rfl
  · rfl

theorem checkFunction_eq (h : RuleHead) (c : Corpus) (function : String) {rs : List Requirement}
    {order : List (Requirement × Requirement)} (horder : Ordered rs order) :
    checkFunction h c function rs order = .ok (h.checkFunction c function rs order) := by
  have hfound : (c.inScope h.scope).findSomeM?
      (fun f => do return (← findFunction f function).map (f, ·)) =
      .ok (FunctionDef.firstIn? c h.scope function) := by
    refine findSomeM?_eq_ok fun f _ => ?_
    rw [findFunction_eq, ok_bind]
    rfl
  rw [checkFunction, hfound, ok_bind, RuleHead.checkFunction]
  cases FunctionDef.firstIn? c h.scope function with
  | none => rfl
  | some found =>
    obtain ⟨file, f⟩ := found
    have hunmet : checkRequirements h file f f.text.masked rs =
        .ok (h.checkRequirements file f f.text.masked rs) :=
      mapM_eq_ok_map fun r _ => showing_finding h file f.startLine _ _
    dsimp only
    rw [masked_eq, ok_bind, hunmet, ok_bind, checkOrder_eq h file f horder, ok_bind]
    rfl

theorem firstOf_eq (name : String) (ms : Markers) (files : List SourceFile) :
    files.findSomeM? (fun f => do return (← findStruct f name ms).map (f, ·)) =
      (StructDef.firstOf? name ms files).mapError SplitCharacter.fault := by
  induction files with
  | nil => rfl
  | cons f fs ih =>
    rw [List.findSomeM?, findStruct_eq, StructDef.firstOf?]
    cases StructDef.find? f name ms with
    | error e => rfl
    | ok d =>
      cases d with
      | none => exact ih
      | some d => rfl

theorem checkField_eq (h : RuleHead) (c : Corpus) (ms : Markers) (struct field : String)
    (type : Option String) :
    checkField h c ms struct field type =
      (h.checkField c ms struct field type).mapError SplitCharacter.fault := by
  rw [checkField, firstOf_eq, RuleHead.checkField, mapError_bind]
  congr 1
  funext found
  cases found with
  | none => rfl
  | some found =>
    obtain ⟨file, d⟩ := found
    dsimp only
    cases d.field? field with
    | none =>
      dsimp only
      rw [showing_finding]
      rfl
    | some f =>
      cases type with
      | none => rfl
      | some expected =>
        dsimp only
        split_ifs
        · rfl
        · rw [showing_finding]
          rfl

theorem checkPair_eq (h : RuleHead) (file : SourceFile) (ms : Markers) (p : CallPair) :
    checkPair h file ms p = .ok (h.checkPair file ms p) := by
  rw [checkPair, RuleHead.checkPair, calls_eq, ok_bind, List.head?_filter]
  cases (Call.all file p.opening ms).find? (·.lineClass.isCode) with
  | none => rfl
  | some call =>
    dsimp only
    rw [calls_eq, ok_bind, showing_finding, ok_bind]
    simp only [Option.bind_eq_bind, Option.bind_some]
    split_ifs <;> rfl

theorem checkPairs_eq (h : RuleHead) (c : Corpus) (ms : Markers) (pairs : List CallPair) :
    checkPairs h c ms pairs = .ok (h.checkPairs c ms pairs) := by
  refine mapM_flatten_eq_ok fun f _ => ?_
  exact mapM_filterMap_eq_ok fun p _ => checkPair_eq h f ms p

end Checked

/-! ## Compiled rules -/

/-- A site rule that looks at lines does not fail. -/
theorem SiteRule.findings_eq_ok {q : SiteRule} {p : Pattern} (hq : q.locator = .lines p)
    (c : Corpus) (ms : Markers) : ∃ fs, q.findings c ms = .ok fs := by
  have hsites : ¬ ∃ e, (c.inScope q.scope).mapM (q.sitesIn · ms) = .error e := by
    rw [mapM_error_iff]
    rintro ⟨f, -, e, he⟩
    unfold SiteRule.sitesIn at he
    split at he
    · cases he
    · next region _ =>
      obtain ⟨sites, hsites⟩ : ∃ sites, q.locate f (f.codeRows ms) ms region = .ok sites := by
        unfold SiteRule.locate
        rw [hq]
        exact ⟨_, rfl⟩
      dsimp only at he
      rw [hsites] at he
      cases he
  unfold SiteRule.findings SiteRule.sitesByFile
  cases hread : (c.inScope q.scope).mapM (q.sitesIn · ms) with
  | error e => exact absurd ⟨e, hread⟩ hsites
  | ok read => exact ⟨_, rfl⟩

theorem Requirement.named_eq_ok {id name : String} {rs : List Requirement} {r : Requirement}
    (h : Requirement.named id rs name = .ok r) : rs.find? (·.name == r.name) = some r := by
  unfold Requirement.named at h
  split at h
  · next r' hr' =>
    obtain rfl := Except.ok.inj h
    have hname : r'.name = name := by simpa using List.find?_some hr'
    rw [hname]
    exact hr'
  · cases h

namespace CompiledRule

variable {s : RuleSpec} {r : CompiledRule} {c : Corpus} {ms : Markers}

/-- The windows of the rule end on 64-bit line numbers. -/
def WindowFits (r : CompiledRule) (c : Corpus) (ms : Markers) : Prop :=
  ∀ rules, r.checker = .sites rules →
    ∀ q ∈ rules, ∀ f ∈ c.inScope q.scope, q.WindowFits f ms

/-- What a declaration compiles to, kind by kind. -/
theorem ofSpec_cases (hr : ofSpec s = .ok r) :
    (∃ rules, r.checker = .sites rules ∧ ∀ q ∈ rules, ∃ p, q.locator = .lines p) ∨
    (∃ enum scope function argument filter,
      r.checker = .enumCoverage enum scope function argument filter) ∨
    (∃ function rs order, r.checker = .functionBody function rs order ∧
      Checked.Ordered rs order) ∨
    (∃ struct field type, r.checker = .structField struct field type ∧
      s.kind = .structField struct field type) ∨
    ∃ pairs, r.checker = .pairedCalls pairs := by
  obtain ⟨head, hhead, hr⟩ := bind_eq_ok.mp hr
  obtain ⟨checker, hchecker, hr⟩ := bind_eq_ok.mp hr
  obtain rfl := pure_eq_ok.mp hr
  cases hs : s.kind with
  | forbidden patterns =>
    rw [hs] at hchecker
    obtain ⟨rules, hrules, rfl⟩ := map_eq_ok.mp hchecker
    refine Or.inl ⟨rules, rfl, fun q hq => ?_⟩
    obtain ⟨x, -, hforbid⟩ := mem_of_mapM_eq_ok hrules hq
    obtain ⟨p, -, hq⟩ := bind_eq_ok.mp hforbid
    obtain rfl := pure_eq_ok.mp hq
    exact ⟨p, rfl⟩
  | window function anchor required before after message =>
    rw [hs] at hchecker
    obtain ⟨q, hq, hchecker⟩ := bind_eq_ok.mp hchecker
    obtain rfl := pure_eq_ok.mp hchecker
    refine Or.inl ⟨[q], rfl, fun q' hq' => ?_⟩
    obtain rfl := List.mem_singleton.mp hq'
    obtain ⟨p, -, hq⟩ := bind_eq_ok.mp hq
    obtain ⟨needed, -, hq⟩ := bind_eq_ok.mp hq
    obtain rfl := pure_eq_ok.mp hq
    exact ⟨p, rfl⟩
  | enumCoverage enum enumFiles function argument valueFilter =>
    rw [hs] at hchecker
    obtain ⟨scope, -, hchecker⟩ := bind_eq_ok.mp hchecker
    obtain ⟨filter, -, hchecker⟩ := bind_eq_ok.mp hchecker
    obtain rfl := pure_eq_ok.mp hchecker
    exact Or.inr (Or.inl ⟨enum, scope, function, argument, filter, rfl⟩)
  | functionBody function requirements names =>
    rw [hs] at hchecker
    obtain ⟨rs, -, hchecker⟩ := bind_eq_ok.mp hchecker
    obtain ⟨order, horder, hchecker⟩ := bind_eq_ok.mp hchecker
    obtain rfl := pure_eq_ok.mp hchecker
    refine Or.inr (Or.inr (Or.inl ⟨function, rs, order, rfl, fun pair hpair => ?_⟩))
    obtain ⟨x, -, hx⟩ := mem_of_mapM_eq_ok horder hpair
    obtain ⟨first, hfirst, hx⟩ := bind_eq_ok.mp hx
    obtain ⟨second, hsecond, hx⟩ := bind_eq_ok.mp hx
    obtain rfl := pure_eq_ok.mp hx
    exact ⟨Requirement.named_eq_ok hfirst, Requirement.named_eq_ok hsecond⟩
  | structField struct field type =>
    rw [hs] at hchecker
    obtain rfl := pure_eq_ok.mp hchecker
    exact Or.inr (Or.inr (Or.inr (Or.inl ⟨struct, field, type, rfl, rfl⟩)))
  | pairedCalls pairs =>
    rw [hs] at hchecker
    obtain rfl := pure_eq_ok.mp hchecker
    exact Or.inr (Or.inr (Or.inr (Or.inr ⟨pairs, rfl⟩)))

/-- Checking changes nothing but the name of the failure. -/
theorem checked_findings (hr : ofSpec s = .ok r) (hfits : r.WindowFits c ms) :
    Checked.findings r c ms = (r.findings c ms).mapError SplitCharacter.fault := by
  unfold Checked.findings CompiledRule.findings
  rcases ofSpec_cases hr with ⟨rules, hc, -⟩ | ⟨enum, scope, function, argument, filter, hc⟩ |
    ⟨function, rs, order, hc, horder⟩ | ⟨struct, field, type, hc, -⟩ | ⟨pairs, hc⟩
  · rw [hc]
    dsimp only
    rw [mapM_mapError fun q hq => Checked.siteFindings_eq (hfits rules hc q hq), mapError_bind]
    rfl
  · rw [hc]
    exact Checked.checkCoverage_eq r.head c ms enum scope function argument filter
  · rw [hc]
    exact Checked.checkFunction_eq r.head c function horder
  · rw [hc]
    exact Checked.checkField_eq r.head c ms struct field type
  · rw [hc]
    exact Checked.checkPairs_eq r.head c ms pairs

theorem checker_of_structField (hr : ofSpec s = .ok r) {struct field : String}
    {type : Option String} (hs : s.kind = .structField struct field type) :
    r.checker = .structField struct field type := by
  obtain ⟨head, hhead, hr⟩ := bind_eq_ok.mp hr
  obtain ⟨checker, hchecker, hr⟩ := bind_eq_ok.mp hr
  obtain rfl := pure_eq_ok.mp hr
  rw [hs] at hchecker
  exact (pure_eq_ok.mp hchecker).symm

theorem head_follows (hr : ofSpec s = .ok r) : r.head.Follows s := by
  obtain ⟨head, hhead, hr⟩ := bind_eq_ok.mp hr
  obtain ⟨checker, -, hr⟩ := bind_eq_ok.mp hr
  obtain rfl := pure_eq_ok.mp hr
  exact RuleHead.ofSpec_follows hhead

theorem checkField_error_iff {h : RuleHead} {struct field : String} {type : Option String} :
    (∃ e, h.checkField c ms struct field type = .error e) ↔
      StructDef.FirstUnreadable struct ms (c.inScope h.scope) := by
  rw [← StructDef.firstOf?_error_iff]
  unfold RuleHead.checkField
  cases StructDef.firstOf? struct ms (c.inScope h.scope) with
  | error e => simp
  | ok found =>
    refine iff_of_false ?_ (by simp)
    rintro ⟨e, he⟩
    rw [ok_bind] at he
    split at he
    · cases he
    · split at he
      · cases he
      · split at he
        · cases he
        · split at he <;> cases he

/-- Only a rule about a field of a struct fails. -/
theorem findings_error_iff (hr : ofSpec s = .ok r) :
    (∃ e, r.findings c ms = .error e) ↔
      ∃ struct field type, s.kind = .structField struct field type ∧
        StructDef.FirstUnreadable struct ms (c.inScope r.head.scope) := by
  constructor
  · rintro ⟨e, he⟩
    unfold findings at he
    rcases ofSpec_cases hr with ⟨rules, hc, hlines⟩ |
      ⟨enum, scope, function, argument, filter, hc⟩ | ⟨function, rs, order, hc, -⟩ |
      ⟨struct, field, type, hc, hs⟩ | ⟨pairs, hc⟩
    · rw [hc] at he
      dsimp only at he
      cases hfound : rules.mapM (·.findings c ms) with
      | error e' =>
        obtain ⟨q, hq, e'', he''⟩ := mapM_error_iff.mp ⟨e', hfound⟩
        obtain ⟨p, hp⟩ := hlines q hq
        obtain ⟨fs, hfs⟩ := SiteRule.findings_eq_ok hp c ms
        rw [hfs] at he''
        cases he''
      | ok found =>
        rw [hfound] at he
        cases he
    · rw [hc] at he
      cases he
    · rw [hc] at he
      cases he
    · rw [hc] at he
      exact ⟨struct, field, type, hs, checkField_error_iff.mp ⟨e, he⟩⟩
    · rw [hc] at he
      cases he
  · rintro ⟨struct, field, type, hs, hunreadable⟩
    unfold findings
    rw [checker_of_structField hr hs]
    exact checkField_error_iff.mpr hunreadable

end CompiledRule

/-- The rule is about a field of a struct, and the first such struct in its scope cannot be
read. -/
def RuleSpec.FindsUnreadable (s : RuleSpec) (c : Corpus) (ms : Markers) : Prop :=
  ∃ struct field type scope, s.kind = .structField struct field type ∧
    FileScope.compile s.files = .ok scope ∧
    StructDef.FirstUnreadable struct ms (c.inScope scope)

/-- **Evaluating a rule faults just when it meets a struct that it cannot read.** Otherwise the
checks, with every cut, index, subtraction and sum checked, give what the rule gives. The fault
is a cut inside a character, made while the fields of the struct are read. -/
theorem CompiledRule.faults_iff_finds_unreadable {s : RuleSpec} {r : CompiledRule}
    (hr : CompiledRule.ofSpec s = .ok r) {c : Corpus} {ms : Markers}
    (hfits : r.WindowFits c ms) :
    (∀ fs, Checked.findings r c ms = .ok fs ↔ r.toRule.check c ms = .found fs) ∧
      ((∃ e, Checked.findings r c ms = .error e) ↔ s.FindsUnreadable c ms) ∧
      (∀ e, Checked.findings r c ms = .error e →
        ∃ t offset text, e = .cut t offset ∧ r.toRule.check c ms = .broken (some text)) ∧
      ∀ inner first, (∃ e, Checked.fields inner first ms = .error e) ↔
        Field.Unreadable inner ms := by
  have hchecked := checked_findings hr hfits
  refine ⟨?_, ?_, ?_, ?_⟩
  · intro fs
    rw [hchecked, mapError_eq_ok, check_eq_found]
  · rw [hchecked, mapError_error_iff, findings_error_iff hr]
    have hscope := (head_follows hr).compiled
    constructor
    · rintro ⟨struct, field, type, hs, hunreadable⟩
      exact ⟨struct, field, type, r.head.scope, hs, hscope, hunreadable⟩
    · rintro ⟨struct, field, type, scope, hs, hcompiled, hunreadable⟩
      obtain rfl : r.head.scope = scope := Except.ok.inj (hscope.symm.trans hcompiled)
      exact ⟨struct, field, type, hs, hunreadable⟩
  · intro e he
    rw [hchecked] at he
    cases hfound : r.findings c ms with
    | ok fs =>
      rw [hfound] at he
      cases he
    | error split =>
      rw [hfound] at he
      obtain rfl := Except.error.inj he
      refine ⟨split.text, split.offset, split.message, rfl, ?_⟩
      show CheckResult.ofFindings (r.findings c ms) = _
      rw [hfound]
      rfl
  · intro inner first
    rw [Checked.fields_eq, mapError_error_iff, Field.all_error_iff]

/-- The struct has a field whose name is a character of two bytes. -/
theorem CompiledRule.faults_on_long_name :
    ∃ (s : RuleSpec) (r : CompiledRule) (c : Corpus),
      CompiledRule.ofSpec s = .ok r ∧ r.WindowFits c [] ∧ s.FindsUnreadable c [] ∧
        ∃ t offset, Checked.findings r c [] = .error (.cut t offset) := by
  let s : RuleSpec :=
    { id := "R", name := "r", files := ["a.h"], kind := .structField "s" "b" none }
  let c : Corpus := ⟨[⟨"a.h", "struct s \x7b\n  int \u00e9;\n\x7d;\n".toList⟩], []⟩
  have hrun : (CompiledRule.ofSpec s).toOption.map (·.toRule.check c []) = some (.broken
      (some (SplitCharacter.message ⟨5, '\u00e9', 4, "int \u00e9".toList⟩))) := by
    decide +kernel
  obtain ⟨r, hr, hbroken⟩ := Option.map_eq_some_iff.mp hrun
  have hr : CompiledRule.ofSpec s = .ok r := ok_of_toOption hr
  have hfits : r.WindowFits c [] := by
    intro rules hrules
    rw [checker_of_structField hr rfl] at hrules
    cases hrules
  have hfaults := CompiledRule.faults_iff_finds_unreadable hr hfits
  cases hfound : Checked.findings r c [] with
  | ok fs =>
    rw [(hfaults.1 fs).mp hfound] at hbroken
    cases hbroken
  | error e =>
    obtain ⟨t, offset, text, rfl, -⟩ := hfaults.2.2.1 e hfound
    exact ⟨s, r, c, hr, hfits, hfaults.2.1.mp ⟨_, hfound⟩, t, offset, hfound⟩

/-- White space before the array part does not decide: behind the name it may be longer than one
byte, and it does not hide a longer character before it. -/
theorem Field.blank_before_array :
    (∃ inner row cls d,
      (Text.rows inner.masked).zip (Markers.classifyLines [] (Text.rows inner)) = [(row, cls)] ∧
        Declares 0 row cls ∧ d ++ [';'] ∈ declarations row ∧ (∀ c ∈ d, c ∉ refused) ∧
        Text.LongBeforeName (d.takeWhile (· != '[')) ∧
        ∃ fs, Checked.fields inner 1 [] = .ok fs) ∧
    ∃ inner row cls d,
      (Text.rows inner.masked).zip (Markers.classifyLines [] (Text.rows inner)) = [(row, cls)] ∧
        declarations row = [d ++ [';']] ∧ ¬ Text.LongBeforeName (d.takeWhile (· != '[')) ∧
        ∃ e, Checked.fields inner 1 [] = .error e := by
  have hrefused : ∀ d : Text, d.any refused.contains = false → ∀ c ∈ d, c ∉ refused := by
    intro d hd c hc hmem
    have hany : d.any refused.contains = true :=
      List.any_eq_true.mpr ⟨c, hc, List.contains_iff_mem.mpr hmem⟩
    rw [hd] at hany
    cases hany
  constructor
  · let inner : Text := "int x\u00a0[3];".toList
    have hread : (all inner 1 []).toOption.isSome = true := by decide +kernel
    obtain ⟨fs, hfs⟩ := Option.isSome_iff_exists.mp hread
    refine ⟨inner, inner, .code, "int x\u00a0[3]".toList, by decide +kernel,
      ⟨rfl, by decide +kernel, by decide +kernel, rfl⟩, by decide +kernel,
      hrefused _ (by decide +kernel), ?_, fs, ?_⟩
    · exact ⟨"int x".toList, '\u00a0', [], by decide +kernel, by decide +kernel,
        List.forall_mem_nil _, by decide⟩
    · rw [Checked.fields_eq, ok_of_toOption hfs]
      rfl
  · let inner : Text := "int \u00e9 [3];".toList
    refine ⟨inner, inner, .code, "int \u00e9 [3]".toList, by decide +kernel, by decide +kernel,
      ?_, ?_⟩
    · intro hlong
      have hhead : "int \u00e9 [3]".toList.takeWhile (· != '[') = "int \u00e9 ".toList := by
        decide +kernel
      have hread : (typeAndName "int \u00e9 ".toList).toOption.isSome = true := by decide +kernel
      obtain ⟨e, he⟩ := typeAndName_error_iff.mpr hlong
      rw [← hhead, he] at hread
      cases hread
    · rw [Checked.fields_eq, mapError_error_iff, all_error_iff]
      refine ⟨0, inner, .code, by decide +kernel, ⟨rfl, by decide +kernel, by decide +kernel, rfl⟩,
        "int \u00e9 [3]".toList, by decide +kernel, hrefused _ (by decide +kernel), ?_⟩
      exact ⟨"int ".toList, '\u00e9', [], by decide +kernel, by decide +kernel,
        List.forall_mem_nil _, by decide⟩

end StructuralRules
