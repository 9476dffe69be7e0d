import StructuralRules.Proofs.Report.Order

/-!
# The files of a corpus

A corpus is a map from paths to files. Sorting keeps files with one path in the
order in which they came, so dropping repeats keeps the first of them, and a
search that halves the sorted files finds it.
-/

set_option autoImplicit false

namespace StructuralRules

namespace Corpus

variable {path : String} {window : List SourceFile}

/-! ## Halving sorted files -/

/-- From a file with a greater path on, no file has the path. -/
theorem find?_take (h : window.Pairwise fun f g => f.path < g.path) {half : Nat}
    (hhalf : half < window.length) (hlt : path < window[half].path) {n : Nat} (hn : half ≤ n) :
    (window.take n).find? (·.path == path) = window.find? (·.path == path) := by
  have hbehind : (window.drop n).find? (·.path == path) = none := by
    rw [List.find?_eq_none]
    intro f hf heq
    obtain ⟨i, hi, rfl⟩ := List.mem_iff_getElem.mp hf
    rw [List.length_drop] at hi
    rw [List.getElem_drop, beq_iff_eq] at heq
    subst heq
    rcases Nat.eq_or_lt_of_le (Nat.le_add_right_of_le hn (k := i)) with hsame | hless
    · simp only [← hsame] at hlt
      exact String.lt_irrefl _ hlt
    · exact String.lt_irrefl _
        (String.lt_trans hlt (List.pairwise_iff_getElem.mp h half (n + i) hhalf (by omega) hless))
  conv_rhs => rw [← List.take_append_drop n window, List.find?_append, hbehind, Option.or_none]

/-- Before a file whose path is not greater, no file has the path. -/
theorem find?_drop (h : window.Pairwise fun f g => f.path < g.path) {half : Nat}
    (hhalf : half < window.length) (hge : ¬ path < window[half].path) :
    (window.drop half).find? (·.path == path) = window.find? (·.path == path) := by
  have hbefore : (window.take half).find? (·.path == path) = none := by
    rw [List.find?_eq_none]
    intro f hf heq
    obtain ⟨i, hi, rfl⟩ := List.mem_iff_getElem.mp hf
    rw [List.length_take] at hi
    rw [List.getElem_take, beq_iff_eq] at heq
    subst heq
    exact hge (List.pairwise_iff_getElem.mp h i half (by omega) hhalf (by omega))
  conv_rhs => rw [← List.take_append_drop half window, List.find?_append, hbefore, Option.none_or]

/-- In sorted files the search finds the file with the path. -/
theorem search?_eq_find? (h : window.Pairwise fun f g => f.path < g.path) :
    search? path window = window.find? (·.path == path) := by
  fun_induction search? path window with
  | case1 window hlen half hlt ih =>
    rw [ih (h.sublist (List.take_sublist _ _))]
    exact find?_take h (by omega) hlt (by omega)
  | case2 window hlen half hge ih =>
    rw [ih (h.sublist (List.drop_sublist _ _))]
    exact find?_drop h (by omega) hge
  | case3 => rfl

/-! ## The first file with a path -/

theorem find?_files (files : List SourceFile) (warnings : List Finding) (path : String) :
    (ofFiles files warnings).files.find? (·.path == path) = files.find? (·.path == path) := by
  rw [ofFiles, find?_dropRepeats SourceFile.path, ← List.head?_filter,
    filter_mergeSort_key SourceFile.path, List.head?_filter]

theorem get?_ofFiles (files : List SourceFile) (warnings : List Finding) (path : String) :
    (ofFiles files warnings).get? path = files.find? (·.path == path) := by
  rw [get?, search?_eq_find? (strictly_sorted files warnings), find?_files]

theorem get?_eq_some_iff {files : List SourceFile} {warnings : List Finding} {path : String}
    {f : SourceFile} : (ofFiles files warnings).get? path = some f ↔
      ∃ before behind, files = before ++ f :: behind ∧ f.path = path ∧
        ∀ g ∈ before, g.path ≠ path := by
  rw [get?_ofFiles, List.find?_eq_some_iff_append]
  constructor
  · intro h
    obtain ⟨hpath, before, behind, hfiles, hbefore⟩ := h
    exact ⟨before, behind, hfiles, by simpa using hpath, fun g hg => by simpa using hbefore g hg⟩
  · intro h
    obtain ⟨before, behind, hfiles, hpath, hbefore⟩ := h
    exact ⟨by simpa using hpath, before, behind, hfiles, fun g hg => by simpa using hbefore g hg⟩

/-- The files of a corpus are those that it finds by their paths. -/
theorem mem_files_iff {files : List SourceFile} {warnings : List Finding} {f : SourceFile} :
    f ∈ (ofFiles files warnings).files ↔ (ofFiles files warnings).get? f.path = some f := by
  rw [get?, search?_eq_find? (strictly_sorted files warnings)]
  constructor
  · intro hf
    cases hfound : (ofFiles files warnings).files.find? (·.path == f.path) with
    | none =>
      rw [List.find?_eq_none] at hfound
      exact absurd (beq_self_eq_true f.path) (hfound f hf)
    | some g =>
      have hpath := List.find?_some hfound
      rw [eq_of_path_eq (List.mem_of_find?_eq_some hfound) hf (by simpa using hpath)]
  · exact List.mem_of_find?_eq_some

/-- **A corpus is a sorted map that keeps the first file for each path.** Its paths increase
strictly and are those of the given files. A path leads to the first of the given files that has it,
if there is one, and the files of the corpus are the ones that paths lead to. In scope are the files
whose paths match, in the same order and each of them once. -/
theorem ofFiles_sorted_map (files : List SourceFile) (warnings : List Finding) :
    let c := ofFiles files warnings
    (c.files.map (·.path)).Pairwise (· < ·) ∧
    (∀ path, path ∈ c.files.map (·.path) ↔ path ∈ files.map (·.path)) ∧
    (∀ path f, c.get? path = some f ↔
      ∃ before behind, files = before ++ f :: behind ∧ f.path = path ∧
        ∀ g ∈ before, g.path ≠ path) ∧
    (∀ path, (∃ f, c.get? path = some f) ↔ ∃ f ∈ files, f.path = path) ∧
    (∀ f, f ∈ c.files ↔ c.get? f.path = some f) ∧
    ∀ scope, (c.inScope scope).Sublist c.files ∧
      ((c.inScope scope).map (·.path)).Pairwise (· < ·) ∧
      ∀ f, f ∈ c.inScope scope ↔ f ∈ c.files ∧ scope.isMatch f.path = true := by
  intro c
  have hsorted := strictly_sorted files warnings
  refine ⟨List.pairwise_map.mpr hsorted, fun path => ?_, fun _ _ => get?_eq_some_iff,
    fun path => ?_, fun _ => mem_files_iff, fun scope => ?_⟩
  · rw [List.mem_map, List.mem_map]
    constructor
    · rintro ⟨f, hf, rfl⟩
      exact ⟨f, mem_of_mem_ofFiles hf, rfl⟩
    · rintro ⟨f, hf, rfl⟩
      exact exists_mem_ofFiles warnings hf
  · rw [get?_ofFiles, ← Option.isSome_iff_exists, List.find?_isSome]
    simp only [beq_iff_eq]
  · have hsub : (c.inScope scope).Sublist c.files := List.filter_sublist
    exact ⟨hsub, List.pairwise_map.mpr (hsorted.sublist hsub), fun f => mem_inScope⟩

/-- Of two copies the first one stays, whatever stands between them. -/
example : ((ofFiles [⟨"b.c", ['1']⟩, ⟨"a.c", []⟩, ⟨"b.c", ['2']⟩] []).get? "b.c").map (·.text) =
    some ['1'] := by
  rw [get?_ofFiles]
  rfl

end Corpus
end StructuralRules
