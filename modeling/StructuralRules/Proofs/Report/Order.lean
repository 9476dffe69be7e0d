import Mathlib.Data.List.Nodup
import StructuralRules.Engine
import StructuralRules.Proofs.Rule.Places

/-!
# The order of a report

Findings are sorted by a key that leaves out their severity, their fix and the
line they show. Within what one rule finds in a corpus the key still decides the
whole finding, because the corpus has one file for each path. So neither the
order of the findings nor the order of the files shows in a report.
-/

set_option autoImplicit false

namespace StructuralRules

/-! ## One file for each path -/

theorem dropRepeats_sublist {α : Type} (key : α → String) (l : List α) :
    (dropRepeats key l).Sublist l := by
  induction l with
  | nil => exact .slnil
  | cons a l ih =>
    rw [dropRepeats]
    exact ((List.dropWhile_sublist _).trans ih).cons_cons a

/-- In a sorted list the elements with one key stand together, so no key is left twice. -/
theorem dropRepeats_nodup {α : Type} {key : α → String} {l : List α}
    (h : l.Pairwise fun a b => key a ≤ key b) :
    (dropRepeats key l).Pairwise fun a b => key a ≠ key b := by
  induction l with
  | nil => exact .nil
  | cons a l ih =>
    rw [List.pairwise_cons] at h
    obtain ⟨hfirst, hrest⟩ := h
    have hsub := dropRepeats_sublist key l
    rw [dropRepeats, List.pairwise_cons]
    refine ⟨?_, (ih hrest).sublist (List.dropWhile_sublist _)⟩
    intro b hb heq
    cases hleft : (dropRepeats key l).dropWhile (key · = key a) with
    | nil =>
      rw [hleft] at hb
      cases hb
    | cons d left =>
      -- The first element left has another key, and it lies between the two.
      have hne : (dropRepeats key l).dropWhile (key · = key a) ≠ [] := by simp [hleft]
      have hd : key d ≠ key a := by
        have hhead := List.head_dropWhile_not (key · = key a) hne
        simpa [hleft] using hhead
      have hsorted : (d :: left).Pairwise fun x y => key x ≤ key y :=
        hleft ▸ hrest.sublist ((List.dropWhile_sublist _).trans hsub)
      have hmem : d ∈ l := by
        have hd : d ∈ (dropRepeats key l).dropWhile (key · = key a) := by simp [hleft]
        exact hsub.subset ((List.dropWhile_sublist _).subset hd)
      have hle : key d ≤ key b := by
        rw [hleft] at hb
        rcases List.mem_cons.mp hb with rfl | hb
        · exact String.le_refl _
        · exact (List.pairwise_cons.mp hsorted).1 b hb
      exact hd (String.le_antisymm (heq ▸ hle) (hfirst d hmem))

/-- Every key is left once. -/
theorem exists_mem_dropRepeats {α : Type} {key : α → String} {l : List α} {a : α} (h : a ∈ l) :
    ∃ b ∈ dropRepeats key l, key b = key a := by
  induction l with
  | nil => cases h
  | cons x l ih =>
    rw [dropRepeats]
    rcases List.mem_cons.mp h with rfl | h
    · exact ⟨a, List.mem_cons_self, rfl⟩
    · obtain ⟨b, hb, hkey⟩ := ih h
      by_cases hx : key b = key x
      · exact ⟨x, List.mem_cons_self, hx.symm.trans hkey⟩
      · refine ⟨b, List.mem_cons_of_mem x ?_, hkey⟩
        rw [← List.takeWhile_append_dropWhile (p := (key · = key x)) (l := dropRepeats key l),
          List.mem_append] at hb
        rcases hb with hb | hb
        · have hx' := List.mem_takeWhile_imp hb
          exact absurd (of_decide_eq_true hx') hx
        · exact hb

theorem find?_dropWhile {α : Type} {p q : α → Bool} (h : ∀ a, p a = true → q a = false)
    (l : List α) : (l.dropWhile p).find? q = l.find? q := by
  induction l with
  | nil => rfl
  | cons a l ih =>
    rw [List.dropWhile_cons]
    split_ifs with hp
    · rw [ih, List.find?_cons, h a hp]
    · rfl

/-- Dropping repeats keeps the first element with each key. -/
theorem find?_dropRepeats {α : Type} (key : α → String) (k : String) (l : List α) :
    (dropRepeats key l).find? (key · == k) = l.find? (key · == k) := by
  induction l with
  | nil => rfl
  | cons a l ih =>
    rw [dropRepeats, List.find?_cons, List.find?_cons]
    cases ha : key a == k with
    | true => rfl
    | false =>
      -- What is dropped has the key of `a`, which is another one.
      dsimp only
      rw [find?_dropWhile, ih]
      intro b hb
      rw [of_decide_eq_true hb, ha]

theorem keyOrder_trans {α : Type} (key : α → String) (a b c : α)
    (hab : decide (key a ≤ key b) = true) (hbc : decide (key b ≤ key c) = true) :
    decide (key a ≤ key c) = true :=
  decide_eq_true (String.le_trans (of_decide_eq_true hab) (of_decide_eq_true hbc))

theorem keyOrder_total {α : Type} (key : α → String) (a b : α) :
    (decide (key a ≤ key b) || decide (key b ≤ key a)) = true := by
  rw [Bool.or_eq_true, decide_eq_true_eq, decide_eq_true_eq]
  exact String.le_total (key a) (key b)

theorem pairwise_mergeSort_key {α : Type} (key : α → String) (l : List α) :
    (l.mergeSort fun a b => key a ≤ key b).Pairwise fun a b => key a ≤ key b :=
  (List.pairwise_mergeSort (keyOrder_trans key) (keyOrder_total key) l).imp
    fun h => of_decide_eq_true h

/-- Sorting by a key keeps the elements with one key in their order. -/
theorem filter_mergeSort_key {α : Type} (key : α → String) (k : String) (l : List α) :
    (l.mergeSort fun a b => key a ≤ key b).filter (key · == k) = l.filter (key · == k) := by
  have hperm : (l.mergeSort fun a b => decide (key a ≤ key b)).Perm l := List.mergeSort_perm l _
  have hsame : (l.filter (key · == k)).Pairwise fun a b => decide (key a ≤ key b) = true := by
    refine List.pairwise_of_forall_mem_list fun a ha b hb => ?_
    have ha := (List.mem_filter.mp ha).2
    have hb := (List.mem_filter.mp hb).2
    rw [beq_iff_eq] at ha hb
    rw [ha, hb]
    exact decide_eq_true (String.le_refl k)
  have hsub : (l.filter (key · == k)).Sublist (l.mergeSort fun a b => key a ≤ key b) :=
    List.sublist_mergeSort (keyOrder_trans key) (keyOrder_total key) hsame List.filter_sublist
  have hfilter := hsub.filter (key · == k)
  rw [List.filter_filter] at hfilter
  simp only [Bool.and_self] at hfilter
  exact (hfilter.eq_of_length (hperm.filter _).length_eq.symm).symm

namespace Corpus

theorem pairwise_mergeSort_path (files : List SourceFile) :
    (files.mergeSort fun a b => a.path ≤ b.path).Pairwise fun a b => a.path ≤ b.path :=
  pairwise_mergeSort_key SourceFile.path files

theorem ofFiles_singleton (f : SourceFile) (warnings : List Finding) :
    ofFiles [f] warnings = ⟨[f], warnings⟩ := by
  rw [ofFiles, List.mergeSort_singleton]
  rfl

theorem nodup_paths (files : List SourceFile) (warnings : List Finding) :
    ((ofFiles files warnings).files.map (·.path)).Nodup :=
  List.pairwise_map.mpr (dropRepeats_nodup (pairwise_mergeSort_path files))

theorem mem_of_mem_ofFiles {files : List SourceFile} {warnings : List Finding} {f : SourceFile}
    (h : f ∈ (ofFiles files warnings).files) : f ∈ files :=
  (List.mergeSort_perm _ _).subset ((dropRepeats_sublist _ _).subset h)

theorem exists_mem_ofFiles {files : List SourceFile} (warnings : List Finding) {f : SourceFile}
    (h : f ∈ files) : ∃ g ∈ (ofFiles files warnings).files, g.path = f.path :=
  exists_mem_dropRepeats ((List.mergeSort_perm files _).symm.subset h)

theorem strictly_sorted (files : List SourceFile) (warnings : List Finding) :
    (ofFiles files warnings).files.Pairwise fun f g => f.path < g.path := by
  have hsorted := pairwise_mergeSort_path files
  have hle := hsorted.sublist (dropRepeats_sublist SourceFile.path _)
  have hne := dropRepeats_nodup hsorted
  rw [ofFiles]
  refine List.Pairwise.imp₂ ?_ hle hne
  intro f g hle hne
  exact String.not_le.mp fun hge => hne (String.le_antisymm hle hge)

/-- Files that stand strictly in the order of their paths are decided by which files they are. -/
theorem eq_of_strictly_sorted {files files' : List SourceFile}
    (h : files.Pairwise fun f g => f.path < g.path)
    (h' : files'.Pairwise fun f g => f.path < g.path) (hmem : ∀ f, f ∈ files ↔ f ∈ files') :
    files = files' := by
  have hnodup : ∀ {l : List SourceFile}, (l.Pairwise fun f g => f.path < g.path) → l.Nodup := by
    intro l hl
    refine hl.imp ?_
    intro f g hlt heq
    subst heq
    exact String.lt_irrefl _ hlt
  have hperm := (List.perm_ext_iff_of_nodup (hnodup h) (hnodup h')).mpr hmem
  refine List.Perm.eq_of_pairwise ?_ h h' hperm
  intro f g _ _ hfg hgf
  exact absurd (String.lt_trans hfg hgf) (String.lt_irrefl _)

/-- A corpus has one file for each path. -/
theorem eq_of_path_eq {files : List SourceFile} {warnings : List Finding} {f g : SourceFile}
    (hf : f ∈ (ofFiles files warnings).files) (hg : g ∈ (ofFiles files warnings).files)
    (h : f.path = g.path) : f = g :=
  List.inj_on_of_nodup_map (nodup_paths files warnings) hf hg h

/-- The order in which files with distinct paths are given does not matter. -/
theorem ofFiles_perm {files files' : List SourceFile} (h : files'.Perm files)
    (hpaths : (files.map (·.path)).Nodup) (warnings : List Finding) :
    ofFiles files' warnings = ofFiles files warnings := by
  have hsort : (files'.mergeSort fun a b => a.path ≤ b.path) =
      files.mergeSort fun a b => a.path ≤ b.path := by
    refine List.Perm.eq_of_pairwise ?_ (pairwise_mergeSort_path files')
      (pairwise_mergeSort_path files)
      ((List.mergeSort_perm files' _).trans (h.trans (List.mergeSort_perm files _).symm))
    intro a b ha hb hab hba
    have ha : a ∈ files := h.subset ((List.mergeSort_perm files' _).subset ha)
    have hb : b ∈ files := (List.mergeSort_perm files _).subset hb
    exact List.inj_on_of_nodup_map hpaths ha hb (String.le_antisymm hab hba)
  rw [ofFiles, ofFiles, hsort]

end Corpus

/-! ## The key of a finding -/

namespace Finding

/-- What the order of a report looks at. -/
def key (v : Finding) : String × Option Nat × String × Option String × String :=
  (v.path, v.line, v.ruleId, v.check, v.message)

theorem order_eq_iff {v w : Finding} : order v w = .eq ↔ v.key = w.key := by
  simp [order, key, Ordering.then_eq_eq]

instance : Std.TransCmp order :=
  inferInstanceAs <| Std.TransCmp <|
    compareLex (compareOn Finding.path) <| compareLex (compareOn Finding.line) <|
      compareLex (compareOn Finding.ruleId) <| compareLex (compareOn Finding.check) <|
        compareOn Finding.message

theorem pairwise_sort (fs : List Finding) :
    (sort fs).Pairwise fun v w => (order v w).isLE = true := by
  refine List.pairwise_mergeSort (fun a b c => Std.TransCmp.isLE_trans) (fun v w => ?_) fs
  have hswap : order w v = (order v w).swap := Std.OrientedCmp.eq_swap
  rw [hswap]
  cases order v w <;> rfl

/-- Sorting forgets the order of findings that their keys tell apart. -/
theorem sort_perm {fs fs' : List Finding} (h : fs'.Perm fs)
    (hkey : ∀ v ∈ fs, ∀ w ∈ fs, v.key = w.key → v = w) : sort fs' = sort fs := by
  refine List.Perm.eq_of_pairwise ?_ (pairwise_sort fs') (pairwise_sort fs)
    ((List.mergeSort_perm fs' _).trans (h.trans (List.mergeSort_perm fs _).symm))
  intro v w hv hw hvw hwv
  have hv : v ∈ fs := h.subset ((List.mergeSort_perm fs' _).subset hv)
  have hw : w ∈ fs := (List.mergeSort_perm fs _).subset hw
  exact hkey v hv w hw (order_eq_iff.mp (Std.OrientedCmp.isLE_antisymm hvw hwv))

/-! ## What the key decides -/

variable {s : RuleSpec} {v w : Finding}

theorem PointsAt.eq_of_key_eq {f : SourceFile} {n : Nat} (hv : v.PointsAt s f n)
    (hw : w.PointsAt s f n) (hkey : v.key = w.key) : v = w := by
  simp only [key, Prod.mk.injEq] at hkey
  obtain ⟨hpath, hline, hid, hcheck, hmessage⟩ := hkey
  obtain ⟨l, hl, hblank, hshown⟩ := hv.shows
  obtain ⟨l', hl', hblank', hshown'⟩ := hw.shows
  obtain rfl : l = l' := Option.some.inj (hl.symm.trans hl')
  have hsnippet : v.snippet = w.snippet := by
    cases hsv : v.snippet with
    | none => exact (hblank'.mpr (hblank.mp hsv)).symm
    | some shown =>
      cases hsw : w.snippet with
      | none =>
        rw [hblank.mpr (hblank'.mp hsw)] at hsv
        cases hsv
      | some shown' =>
        have htrim := (hshown shown hsv).trans (hshown' shown' hsw).symm
        rw [String.toList_inj.mp htrim]
  have hseverity := hv.severity_eq.trans hw.severity_eq.symm
  have hfix := hv.fix_eq.trans hw.fix_eq.symm
  cases v
  cases w
  simp_all

theorem ReportsAbsence.eq (hv : v.ReportsAbsence s) (hw : w.ReportsAbsence s) : v = w := by
  obtain ⟨scope, kind, name, hscope, hconstruct, hv⟩ := hv
  obtain ⟨scope', kind', name', hscope', hconstruct', hw⟩ := hw
  obtain rfl : scope = scope' := Except.ok.inj (hscope.symm.trans hscope')
  obtain ⟨rfl, rfl⟩ := Prod.mk.inj (Option.some.inj (hconstruct.symm.trans hconstruct'))
  exact Option.some.inj (hv.symm.trans hw)

theorem Placed.eq_of_key_eq {files : List SourceFile} {warnings : List Finding}
    (hv : v.Placed s (Corpus.ofFiles files warnings))
    (hw : w.Placed s (Corpus.ofFiles files warnings)) (hkey : v.key = w.key) : v = w := by
  have hline : v.line = w.line := congrArg (·.2.1) hkey
  cases hv with
  | at_line _ hf hv =>
    cases hw with
    | at_line _ hg hw =>
      have hpath : v.path = w.path := congrArg (·.1) hkey
      rw [hv.path_eq, hw.path_eq] at hpath
      rw [hv.line_eq, hw.line_eq, Option.some.injEq] at hline
      have hfile := Corpus.eq_of_path_eq (Corpus.mem_inScope.mp hf).1
        (Corpus.mem_inScope.mp hg).1 hpath
      subst hline hfile
      exact hv.eq_of_key_eq hw hkey
    | absent hw =>
      rw [hv.line_eq, hw.line_eq.2] at hline
      cases hline
  | absent hv =>
    cases hw with
    | at_line _ _ hw =>
      rw [hv.line_eq.2, hw.line_eq] at hline
      cases hline
    | absent hw => exact hv.eq hw

end Finding

/-- **A report does not depend on how its findings were found.** The key that findings are
sorted by decides each finding of a rule, so any order of them is sorted to the same list. Files
with distinct paths may be given in any order: every engine answers the same. -/
theorem Rule.report_order_canonical {s : RuleSpec} {r : Rule} (hr : Rule.ofSpec s = .ok r)
    (files : List SourceFile) (warnings : List Finding) (ms : Markers) :
    (∀ fs, r.check (Corpus.ofFiles files warnings) ms = .found fs →
      (∀ v ∈ fs, ∀ w ∈ fs, v.key = w.key → v = w) ∧
      ∀ fs' : List Finding, fs'.Perm fs → Finding.sort fs' = Finding.sort fs) ∧
    ∀ files' : List SourceFile, files'.Perm files → (files.map (·.path)).Nodup →
      ∀ e : Engine, e.run (Corpus.ofFiles files' warnings) =
        e.run (Corpus.ofFiles files warnings) := by
  obtain ⟨compiled, hcompiled, hr⟩ := bind_eq_ok.mp hr
  obtain rfl := pure_eq_ok.mp hr
  constructor
  · intro fs hfs
    have hplaced := CompiledRule.findings_placed hcompiled (CompiledRule.check_eq_found.mp hfs)
    have hkey : ∀ v ∈ fs, ∀ w ∈ fs, v.key = w.key → v = w := fun v hv w hw =>
      (hplaced v hv).eq_of_key_eq (hplaced w hw)
    exact ⟨hkey, fun fs' hperm => Finding.sort_perm hperm hkey⟩
  · intro files' hperm hpaths e
    rw [Corpus.ofFiles_perm hperm hpaths]

/-- Two files, each with a call that is not paired, and their findings the other way round. -/
theorem Rule.report_order_of_two_files :
    ∃ (s : RuleSpec) (r : Rule) (files files' : List SourceFile) (fs fs' : List Finding),
      Rule.ofSpec s = .ok r ∧ r.check (Corpus.ofFiles files []) [] = .found fs ∧ fs' ≠ fs ∧
        Finding.sort fs' = Finding.sort fs ∧ files' ≠ files ∧
        ∀ e : Engine, e.run (Corpus.ofFiles files' []) = e.run (Corpus.ofFiles files []) := by
  let s : RuleSpec :=
    { id := "R", name := "r", files := ["a.c", "b.c"], kind := .pairedCalls [⟨"f", "g"⟩] }
  let files : List SourceFile := [⟨"a.c", "f();\n".toList⟩, ⟨"b.c", "\n  f();\n".toList⟩]
  let v : Finding :=
    { path := "a.c", line := some 1, severity := .fail, ruleId := "R", check := some "f"
      message := "f() is called without a matching g()", snippet := some "f();" }
  let w : Finding := { v with path := "b.c", line := some 2 }
  have hsorted : Corpus.ofFiles files [] = ⟨files, []⟩ := by
    rw [Corpus.ofFiles, List.mergeSort_of_pairwise (by decide)]
    rfl
  have hrun : (Rule.ofSpec s).toOption.map (·.check ⟨files, []⟩ []) = some (.found [v, w]) := by
    decide +kernel
  rw [← hsorted] at hrun
  obtain ⟨r, hr, hcheck⟩ := Option.map_eq_some_iff.mp hrun
  have hr : Rule.ofSpec s = .ok r := ok_of_toOption hr
  obtain ⟨hfound, hfiles⟩ := Rule.report_order_canonical hr files [] []
  refine ⟨s, r, files, files.reverse, [v, w], [w, v], hr, hcheck, by decide, ?_, by decide, ?_⟩
  · exact (hfound [v, w] hcheck).2 [w, v] (List.Perm.swap v w [])
  · exact hfiles files.reverse (List.reverse_perm files) (by decide)

end StructuralRules
