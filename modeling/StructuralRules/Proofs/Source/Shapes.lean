import StructuralRules.Proofs.Source.Calls
import StructuralRules.Proofs.Source.LineClasses

/-!
# What lines are, markers aside

Markers only tell excused lines from code. The rest of a class, and whether a
block comment is open, is the shape of a line. Shapes do not depend on carriage
returns at the end of a line, so a text has one list of shapes, in whatever way
it is cut into lines. Members and calls are read by shapes alone, and more
markers excuse more of what is found and change nothing else.
-/

set_option autoImplicit false

namespace StructuralRules

open Text

/-! ## Classes -/

namespace LineClass

/-- The class without regard to markers. -/
def bare : LineClass → LineClass
  | .exceptionMarked => .code
  | c => c

@[simp] theorem isExecutable_bare (c : LineClass) : c.bare.isExecutable = c.isExecutable := by
  cases c <;> rfl

/-- The second class is the first, or it is code that has been excused. -/
inductive Excused : LineClass → LineClass → Prop where
  | same (c : LineClass) : Excused c c
  | excused : Excused .code .exceptionMarked

namespace Excused

variable {c c' : LineClass}

theorem isExecutable_eq (h : Excused c c') : c'.isExecutable = c.isExecutable := by
  cases h <;> rfl

theorem isCode_of_isCode (h : Excused c c') (hc : c'.isCode = true) : c.isCode = true := by
  cases h with
  | same => exact hc
  | excused => cases hc

end Excused
end LineClass

namespace Text

/-- The class of a line without regard to markers, and whether a block comment is open
behind it. -/
def shape (inBlock : Bool) (line : Text) : LineClass × Bool :=
  Markers.classify [] line none inBlock

/-- The shapes of consecutive lines. -/
def shapes (inBlock : Bool) : List Text → List (LineClass × Bool)
  | [] => []
  | l :: ls => shape inBlock l :: shapes (shape inBlock l).2 ls

theorem length_shapes (inBlock : Bool) (ls : List Text) :
    (shapes inBlock ls).length = ls.length := by
  induction ls generalizing inBlock with
  | nil => rfl
  | cons l ls ih => rw [shapes, List.length_cons, ih, List.length_cons]

theorem shape_snd (inBlock : Bool) (line : Text) :
    (shape inBlock line).2 = (Lex.scanLine line inBlock).endsInBlock := rfl

theorem shape_eq_blank_iff {line : Text} :
    (shape false line).1 = .blank ↔ (trim line).isEmpty = true := by
  have hexcuse : Markers.excuse [] line none = false := rfl
  simp only [shape, Markers.classify, hexcuse, Bool.false_eq_true, if_false]
  split_ifs <;> simp_all

/-- Outside block comments what is left of a line when it is trimmed decides its class. -/
theorem shape_fst_congr {l l' : Text} (hempty : (trim l).isEmpty = (trim l').isEmpty)
    (hopens : (trim l).startsWithComment = (trim l').startsWithComment) (inBlock : Bool) :
    (shape inBlock l).1 = (shape inBlock l').1 := by
  have hexcuse : ∀ line, Markers.excuse [] line none = false := fun _ => rfl
  simp only [shape, Markers.classify, hempty, hopens, hexcuse]

end Text

namespace Markers

variable {ms ms' : Markers}

theorem bare_classify (ms : Markers) (line : Text) (previous : Option Text) (inBlock : Bool) :
    (ms.classify line previous inBlock).1.bare = (shape inBlock line).1 := by
  have hexcuse : Markers.excuse [] line none = false := rfl
  simp only [classify, shape, hexcuse, Bool.false_eq_true, if_false]
  split_ifs
  all_goals rfl

/-- Markers aside, the classes of lines are their shapes. -/
theorem map_bare_classifyFrom (ms : Markers) (inBlock : Bool) (previous : Option Text)
    (lines : List Text) :
    (ms.classifyFrom inBlock previous lines).map LineClass.bare =
      (shapes inBlock lines).map (·.1) := by
  induction lines generalizing inBlock previous with
  | nil => rfl
  | cons l lines ih =>
    rw [classifyFrom, List.map_cons, ih, bare_classify, shapes, List.map_cons]
    rfl

/-- Which lines are executable depends on their shapes. -/
theorem map_isExecutable_classifyLines {lines lines' : List Text}
    (h : shapes false lines = shapes false lines') (ms ms' : Markers) :
    (ms.classifyLines lines).map (·.isExecutable) =
      (ms'.classifyLines lines').map (·.isExecutable) := by
  have key : ∀ (ms : Markers) (lines : List Text), (ms.classifyLines lines).map (·.isExecutable) =
      ((shapes false lines).map (·.1)).map (·.isExecutable) := by
    intro ms lines
    rw [← map_bare_classifyFrom ms false none, List.map_map]
    exact List.map_congr_left fun c _ => (c.isExecutable_bare).symm
  rw [key, key, h]

/-- Whether a marker stands on the line. -/
def marks (ms : Markers) (line : Text) : Bool :=
  ms.any fun m => contains m.toList line

theorem marks_iff {ms : Markers} {line : Text} :
    ms.marks line = true ↔ ∃ m ∈ ms, m.toList <:+: line := by
  simp only [marks, List.any_eq_true, contains_iff]

theorem excuse_eq_marks (ms : Markers) (line : Text) (previous : Option Text) :
    ms.excuse line previous = (ms.marks line || previous.any ms.marks) := by
  cases previous with
  | none => simp [excuse, marks]
  | some previous =>
    simp only [excuse, marks, Option.any_some]
    induction ms with
    | nil => rfl
    | cons m ms ih =>
      rw [List.any_cons, ih, List.any_cons, List.any_cons]
      ac_rfl

/-- The class of a line from its shape and what excuses it. -/
theorem classify_fst (ms : Markers) (line : Text) (previous : Option Text) (inBlock : Bool) :
    (ms.classify line previous inBlock).1 =
      if (shape inBlock line).1 = .code ∧ ms.excuse line previous = true then .exceptionMarked
      else (shape inBlock line).1 := by
  have hexcuse : Markers.excuse [] line none = false := rfl
  simp only [classify, shape, hexcuse, Bool.false_eq_true, if_false]
  split_ifs <;> simp_all

theorem excuse_mono (h : ms ⊆ ms') {line : Text} {previous : Option Text}
    (hexcuse : ms.excuse line previous = true) : ms'.excuse line previous = true := by
  obtain ⟨m, hm, hmark⟩ := List.any_eq_true.mp hexcuse
  exact List.any_eq_true.mpr ⟨m, h hm, hmark⟩

theorem excused_classify (h : ms ⊆ ms') (line : Text) (previous : Option Text) (inBlock : Bool) :
    LineClass.Excused (ms.classify line previous inBlock).1
      (ms'.classify line previous inBlock).1 := by
  simp only [classify]
  split_ifs with _ _ _ hexcuse hexcuse' hexcuse'
  · exact .same _
  · exact .same _
  · exact .same _
  · exact .same _
  · exact absurd (excuse_mono h hexcuse) hexcuse'
  · exact .excused
  · exact .same _

/-- More markers excuse more lines of code. What is carried from line to line is the same. -/
theorem excused_classifyFrom (h : ms ⊆ ms') (inBlock : Bool) (previous : Option Text)
    (lines : List Text) :
    List.Forall₂ LineClass.Excused (ms.classifyFrom inBlock previous lines)
      (ms'.classifyFrom inBlock previous lines) := by
  induction lines generalizing inBlock previous with
  | nil => exact .nil
  | cons l lines ih =>
    rw [classifyFrom, classifyFrom]
    exact .cons (excused_classify h l previous inBlock) (ih _ _)

end Markers

theorem SourceFile.excused_classes {ms ms' : Markers} (h : ms ⊆ ms') (f : SourceFile) :
    List.Forall₂ LineClass.Excused (f.classes ms) (f.classes ms') :=
  Markers.excused_classifyFrom h false none f.lines

/-- A line beyond the last counts as code. -/
theorem LineClass.excused_getD {cs cs' : List LineClass} (h : List.Forall₂ Excused cs cs')
    (i : Nat) : Excused ((cs[i]?).getD .code) ((cs'[i]?).getD .code) := by
  induction h generalizing i with
  | nil => exact .same _
  | cons hc _ ih =>
    cases i with
    | zero => exact hc
    | succ i => exact ih i

/-! ## Lines with and without carriage returns -/

namespace Text

theorem trimEnd_append_blank (t : Text) {r : Text} (h : ∀ c ∈ r, isBlank c = true) :
    trimEnd (t ++ r) = trimEnd t := by
  have hdrop : (r.reverse ++ t.reverse).dropWhile isBlank = t.reverse.dropWhile isBlank := by
    rw [List.dropWhile_append_of_pos]
    intro c hc
    exact h c (List.mem_reverse.mp hc)
  rw [trimEnd, List.reverse_append, hdrop, trimEnd]

theorem trim_append_blank (t : Text) {r : Text} (h : ∀ c ∈ r, isBlank c = true) :
    trim (t ++ r) = trim t := by
  have hr : trimStart r = [] := List.dropWhile_eq_nil_iff.mpr h
  rw [trim, trimStart, List.dropWhile_append]
  split
  · next hempty =>
    rw [trim, trimStart, List.isEmpty_iff.mp hempty]
    exact congrArg trimEnd hr
  · rw [trimEnd_append_blank _ h]
    rfl

theorem trim_dropReturns (l : Text) : trim (dropReturns l) = trim l := by
  obtain ⟨k, hk⟩ := exists_dropReturns l
  nth_rewrite 2 [hk]
  refine (trim_append_blank _ fun c hc => ?_).symm
  rw [List.eq_of_mem_replicate hc]
  rfl

theorem shape_dropReturns (inBlock : Bool) {l : Text} (hl : '\n' ∉ l) :
    shape inBlock (dropReturns l) = shape inBlock l := by
  have hs : Lex.atLineStart inBlock ≠ .opening := by cases inBlock <;> decide
  have hl' := newline_not_mem_dropReturns hl
  have hstate : (Lex.atLineStart inBlock).after (dropReturns l) [] = .blockComment ↔
      (Lex.atLineStart inBlock).after l [] = .blockComment :=
    (Lex.after_line_block_iff hs hl []).symm.trans
      (Lex.after_block_iff _ hl (by simp) (by simp))
  refine Prod.ext (shape_fst_congr ?_ ?_ inBlock) ?_
  · rw [trim_dropReturns]
  · rw [trim_dropReturns]
  · rw [shape_snd, shape_snd, Lex.scanLine, Lex.scanLine, Lex.scanFrom_endsInBlock _ _ hl',
      Lex.scanFrom_endsInBlock _ _ hl]
    exact decide_eq_decide.mpr hstate

theorem shapes_map_dropReturns (inBlock : Bool) {ls : List Text} (h : ∀ l ∈ ls, '\n' ∉ l) :
    shapes inBlock (ls.map dropReturns) = shapes inBlock ls := by
  induction ls generalizing inBlock with
  | nil => rfl
  | cons l ls ih =>
    rw [List.map_cons, shapes, shapes, shape_dropReturns inBlock (h l (by simp)),
      ih _ fun l' hl' => h l' (by simp [hl'])]

theorem shapes_lines (inBlock : Bool) (t : Text) :
    shapes inBlock (lines t) = shapes inBlock (pieces t) :=
  shapes_map_dropReturns inBlock fun _ hl => newline_not_mem_of_mem_pieces hl

/-- A row is a line without one carriage return, or with all of them. -/
theorem rows_line {l : Text} (hl : '\n' ∉ l) (t : Text) :
    ∃ row, rows (l ++ '\n' :: t) = row :: rows t ∧ '\n' ∉ row ∧
      dropReturns row = dropReturns l := by
  induction l with
  | nil => exact ⟨[], by simp [rows], by simp, rfl⟩
  | cons c l ih =>
    have hc : c ≠ '\n' := fun h => hl (by simp [h])
    obtain ⟨row, hrows, hrow, hdrop⟩ := ih fun h => hl (by simp [h])
    by_cases hreturn : c = '\r' ∧ l = []
    · obtain ⟨rfl, rfl⟩ := hreturn
      exact ⟨[], by simp [rows], by simp, rfl⟩
    · refine ⟨c :: row, ?_, ?_, ?_⟩
      · rw [List.cons_append, rows, hrows]
        · exact hc
        · rintro t' rfl ht'
          cases l with
          | nil => exact hreturn ⟨rfl, rfl⟩
          | cons d l =>
            obtain ⟨rfl, -⟩ := List.cons.inj ht'
            exact hl (by simp)
      · simp [hc.symm, hrow]
      · simp only [dropReturns, hdrop]

theorem rows_last {l : Text} (hl : '\n' ∉ l) (hne : l ≠ []) : rows l = [l] := by
  induction l with
  | nil => exact absurd rfl hne
  | cons c l ih =>
    have hc : c ≠ '\n' := fun h => hl (by simp [h])
    have hrest : '\n' ∉ l := fun h => hl (by simp [h])
    rw [rows]
    · cases l with
      | nil => rfl
      | cons d l => rw [ih hrest (by simp)]
    · exact hc
    · rintro t' rfl rfl
      exact hrest (by simp)

theorem map_dropReturns_rows (t : Text) :
    (rows t).map dropReturns = lines t ∧ ∀ row ∈ rows t, '\n' ∉ row := by
  induction t using line_induction with
  | nil => exact ⟨rfl, by simp [rows]⟩
  | last l hl hne =>
    rw [rows_last hl hne, lines, pieces_last hl hne]
    exact ⟨rfl, by simpa using hl⟩
  | line l t hl ih =>
    obtain ⟨row, hrows, hrow, hdrop⟩ := rows_line hl t
    rw [hrows, lines, pieces_line hl, List.map_cons, List.map_cons, hdrop, ih.1]
    refine ⟨rfl, ?_⟩
    intro row' hrow'
    rcases List.mem_cons.mp hrow' with rfl | hrow'
    · exact hrow
    · exact ih.2 row' hrow'

theorem shapes_rows (inBlock : Bool) (t : Text) :
    shapes inBlock (rows t) = shapes inBlock (pieces t) := by
  obtain ⟨hlines, hrows⟩ := map_dropReturns_rows t
  rw [← shapes_map_dropReturns inBlock hrows, hlines, shapes_lines]

/-- The texts are the same to whoever passes over comments: masking gives the same text, and
line by line they have the same shapes. -/
structure SameCode (t t' : Text) : Prop where
  masked_eq : t.masked = t'.masked
  shapes_eq : shapes false (pieces t) = shapes false (pieces t')

theorem SameCode.refl (t : Text) : SameCode t t :=
  ⟨rfl, rfl⟩

theorem SameCode.rows_executable {t t' : Text} (h : SameCode t t') (ms ms' : Markers) :
    (ms.classifyLines (rows t)).map (·.isExecutable) =
      (ms'.classifyLines (rows t')).map (·.isExecutable) := by
  refine Markers.map_isExecutable_classifyLines ?_ ms ms'
  rw [shapes_rows, shapes_rows, h.shapes_eq]

end Text

/-! ## Members -/

/-- Fields are read from executable rows, excused or not. -/
theorem Field.ofRows_congr (depth line : Nat) (rows : List Text) {cs cs' : List LineClass}
    (h : cs.map (·.isExecutable) = cs'.map (·.isExecutable)) :
    ofRows depth line (rows.zip cs) = ofRows depth line (rows.zip cs') := by
  induction rows generalizing depth line cs cs' with
  | nil => rfl
  | cons row rows ih =>
    cases cs with
    | nil =>
      obtain rfl : cs' = [] := by simpa using h.symm
      rfl
    | cons c cs =>
      cases cs' with
      | nil => simp at h
      | cons c' cs' =>
        have hc : c.isExecutable = c'.isExecutable := List.head_eq_of_cons_eq h
        have hcs := List.tail_eq_of_cons_eq h
        rw [List.zip_cons_cons, List.zip_cons_cons, ofRows, ofRows, hc]
        simp only [ih _ _ hcs]

theorem Field.all_congr {inner inner' : Text} (h : SameCode inner inner') (first : Nat)
    (ms ms' : Markers) : all inner first ms = all inner' first ms' := by
  rw [all, all, h.masked_eq]
  exact ofRows_congr 0 first _ (h.rows_executable ms ms')

/-- Enumerators are read from executable rows, excused or not. -/
theorem Enumerator.ofRows_congr (line : Nat) (values : List Enumerator) (rows : List Text)
    {cs cs' : List LineClass} (h : cs.map (·.isExecutable) = cs'.map (·.isExecutable)) :
    ofRows line values (rows.zip cs) = ofRows line values (rows.zip cs') := by
  induction rows generalizing line values cs cs' with
  | nil => rfl
  | cons row rows ih =>
    cases cs with
    | nil =>
      obtain rfl : cs' = [] := by simpa using h.symm
      rfl
    | cons c cs =>
      cases cs' with
      | nil => simp at h
      | cons c' cs' =>
        have hc : c.isExecutable = c'.isExecutable := List.head_eq_of_cons_eq h
        have hcs := List.tail_eq_of_cons_eq h
        rw [List.zip_cons_cons, List.zip_cons_cons, ofRows, ofRows, hc]
        exact ih _ _ hcs

theorem EnumDef.find?_markers (f : SourceFile) (name : String) (ms ms' : Markers) :
    find? f name ms = find? f name ms' := by
  have hall : ∀ inner first, Enumerator.all inner first ms = Enumerator.all inner first ms' := by
    intro inner first
    exact Enumerator.ofRows_congr first [] _ ((SameCode.refl inner).rows_executable ms ms')
  simp only [find?, hall]

theorem StructDef.find?_markers (f : SourceFile) (name : String) (ms ms' : Markers) :
    find? f name ms = find? f name ms' := by
  simp only [find?, Field.all_congr (SameCode.refl _) _ ms ms']

/-! ## Calls -/

namespace Call

/-- The calls of `name` in a file, whatever their lines are. -/
def anywhere (file : SourceFile) (name : String) : List Call :=
  ((header name).spans file.text.masked).filterMap (atSpan? file file.text.masked [] name)

/-- The call with the class of its line, if that is executable. -/
def classed? (classes : List LineClass) (call : Call) : Option Call :=
  let cls := (classes[call.line - 1]?).getD .code
  if cls.isExecutable then some { call with lineClass := cls } else none

/-- The class of the line is looked at last. -/
theorem atSpan?_eq_bind (file : SourceFile) (masked : Text) (classes : List LineClass)
    (name : String) (s : Span) :
    atSpan? file masked classes name s =
      (atSpan? file masked [] name s).bind (classed? classes) := by
  cases hlist : Text.drop? masked (s.stop - 1) with
  | none => simp [atSpan?, hlist]
  | some list =>
    cases hstop : Text.closeFrom '(' ')' 0 (s.stop - 1) list with
    | none => simp [atSpan?, hlist, hstop]
    | some stop =>
      by_cases hdefined : (Text.trimStart ((Text.drop? masked stop).getD [])).head? = some '{'
      · simp [atSpan?, hlist, hstop, hdefined]
      · by_cases hdeclared : isDeclaration (lineHead masked s.start) = true
        · simp [atSpan?, hlist, hdeclared]
        · generalize hcls : (classes[file.lineOfOffset s.start - 1]?).getD .code = cls
          cases cls <;>
            simp [atSpan?, hlist, hstop, hdefined, hdeclared, classed?, hcls,
              LineClass.isExecutable]

theorem all_eq_filterMap (file : SourceFile) (name : String) (ms : Markers) :
    all file name ms = (anywhere file name).filterMap (classed? (file.classes ms)) := by
  rw [anywhere, List.filterMap_filterMap]
  exact List.filterMap_congr fun s _ => atSpan?_eq_bind file _ _ name s

theorem lineClass_of_mem_all {file : SourceFile} {name : String} {ms : Markers} {call : Call}
    (h : call ∈ all file name ms) :
    call.lineClass = ((file.classes ms)[call.line - 1]?).getD .code := by
  rw [all_eq_filterMap] at h
  obtain ⟨anyCall, -, h⟩ := List.mem_filterMap.mp h
  unfold classed? at h
  dsimp only at h
  split_ifs at h
  obtain rfl := Option.some.inj h
  rfl

/-- The calls differ in the class of their lines only, where the second may be excused. -/
structure Excused (call call' : Call) : Prop where
  eq : call' = { call with lineClass := call'.lineClass }
  lineClass : LineClass.Excused call.lineClass call'.lineClass

/-- More markers excuse more calls. No call is lost, and its arguments are the same. -/
theorem excused_all {ms ms' : Markers} (h : ms ⊆ ms') (file : SourceFile) (name : String) :
    List.Forall₂ Excused (all file name ms) (all file name ms') := by
  rw [all_eq_filterMap, all_eq_filterMap]
  induction anywhere file name with
  | nil => exact .nil
  | cons call calls ih =>
    have hcls := LineClass.excused_getD (file.excused_classes h) (call.line - 1)
    rw [List.filterMap_cons, List.filterMap_cons, classed?, classed?]
    simp only [hcls.isExecutable_eq]
    split_ifs
    · exact .cons ⟨rfl, hcls⟩ ih
    · exact ih

end Call
end StructuralRules
