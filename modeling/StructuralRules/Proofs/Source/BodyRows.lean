import StructuralRules.Proofs.Source.Arguments
import StructuralRules.Proofs.Source.Braces
import StructuralRules.Proofs.Source.CommentSwap
import StructuralRules.Proofs.Source.Declarations
import StructuralRules.Proofs.Source.Parts

/-!
# Rows of a body as lines of the file

The text between braces is classified on its own, row by row and from a fresh
state. The lexer reads code behind an opening brace, so all rows but the first
are classified as the lines of the file that they start. The first row does not
start a line: it counts unless a comment comes first in it, whatever the line is.
Members are read from the rows that count, so what is missing among them is told
by the classes of the file and by the start of the first row.
-/

set_option autoImplicit false

namespace StructuralRules

open Text

/-! ## Lines that are cut before a brace -/

namespace Text

theorem pieces_append {l : Text} (hl : '\n' ∉ l) {t x : Text} {xs : List Text}
    (ht : pieces t = x :: xs) : pieces (l ++ t) = (l ++ x) :: xs := by
  induction l with
  | nil => exact ht
  | cons c l ih =>
    have hc : c ≠ '\n' := fun h => hl (by simp [h])
    rw [List.cons_append, pieces, if_neg hc, ih fun h => hl (by simp [h]), List.cons_append]

theorem dropReturns_append_cons (u : Text) {c : Char} (hc : c ≠ '\r') (v : Text) :
    dropReturns (u ++ c :: v) = u ++ c :: dropReturns v := by
  induction u with
  | nil => exact dropReturns_cons_of_ne hc v
  | cons d u ih =>
    have hne : dropReturns (u ++ c :: v) ≠ [] := by
      rw [ih]
      simp
    rw [List.cons_append, dropReturns_cons_of_ne_nil hne, ih, List.cons_append]

/-- What is left when the carriage returns at the end are dropped ends in another character. -/
theorem dropReturns_cases (l : Text) :
    dropReturns l = [] ∨ ∃ u c, dropReturns l = u ++ [c] ∧ c ≠ '\r' := by
  rw [dropReturns_eq_rdropWhile]
  by_cases hne : l.rdropWhile (· == '\r') = []
  · exact Or.inl hne
  · have hlast := List.rdropWhile_last_not (· == '\r') l hne
    refine Or.inr ⟨_, _, (List.dropLast_append_getLast hne).symm, ?_⟩
    simpa using hlast

theorem dropReturns_prefix {l line : Text} (h : l <+: line) :
    dropReturns l <+: dropReturns line := by
  obtain ⟨rest, rfl⟩ := h
  rcases dropReturns_cases l with hnil | ⟨u, c, hu, hc⟩
  · rw [hnil]
    exact List.nil_prefix
  · obtain ⟨k, hk⟩ := exists_dropReturns l
    have hline : l ++ rest = u ++ c :: (List.replicate k '\r' ++ rest) := by
      rw [hk, hu]
      simp
    rw [hline, dropReturns_append_cons u hc, hu]
    exact ⟨dropReturns (List.replicate k '\r' ++ rest), by simp⟩

/-- Trimming the end leaves a comment at the start as it is. -/
theorem startsWithComment_trim (t : Text) :
    (trim t).startsWithComment = (trimStart t).startsWithComment := by
  have key : ∀ x, isBlank x = false → (['/', x] <+: trim t ↔ ['/', x] <+: trimStart t) := by
    intro x hx
    constructor
    · intro h
      obtain ⟨r, hr, -⟩ := exists_trimEnd (trimStart t)
      exact h.trans ⟨r, hr.symm⟩
    · rintro ⟨y, hy⟩
      have hcut : trimStart t = ['/'] ++ x :: y := hy.symm
      rw [trim, hcut]
      exact trimEnd_append_cons ['/'] hx y
  rw [Bool.eq_iff_iff, startsWithComment_iff, startsWithComment_iff, key '/' rfl, key '*' rfl]

theorem startsWithComment_append_brace {z : Text} (hz : z ≠ []) (y : Text) :
    (z ++ '}' :: y).startsWithComment = z.startsWithComment := by
  match z, hz with
  | [c], _ => simp [startsWithComment, List.isPrefixOf]
  | c :: d :: z, _ => exact startsWithComment_eq ⟨'}' :: y, by simp⟩ (by simp)

/-- A line that does not start in a block comment counts unless it is blank or a comment comes
first in it. -/
theorem shape_isExecutable_iff {b : Bool} {l : Text} :
    (shape b l).1.isExecutable = true ↔
      b = false ∧ trim l ≠ [] ∧ (trim l).startsWithComment = false := by
  have hexcuse : Markers.excuse [] l none = false := rfl
  rw [← List.isEmpty_eq_false_iff]
  simp only [shape, Markers.classify, hexcuse]
  cases b with
  | true => simp [LineClass.isExecutable]
  | false =>
    cases (trim l).isEmpty <;> cases (trim l).startsWithComment <;> simp [LineClass.isExecutable]

/-- What stands before a brace counts just when it is not blank and its line counts. -/
theorem shape_isExecutable_cut (b : Bool) (l y : Text) :
    (shape b l).1.isExecutable = true ↔
      trim l ≠ [] ∧ (shape b (l ++ '}' :: y)).1.isExecutable = true := by
  rw [shape_isExecutable_iff, shape_isExecutable_iff]
  by_cases hblank : trim l = []
  · exact iff_of_false (fun h => h.2.1 hblank) fun h => h.1 hblank
  · have hbrace : trim (l ++ '}' :: y) ≠ [] := by
      intro h
      have hclose := trim_eq_nil.mp h '}' (by simp)
      cases hclose
    have hne : l.dropWhile isBlank ≠ [] := fun h =>
      hblank (trim_eq_nil.mpr (List.dropWhile_eq_nil_iff.mp h))
    have htrim : trimStart (l ++ '}' :: y) = trimStart l ++ '}' :: y := by
      have hempty : ¬ (l.dropWhile isBlank).isEmpty = true := fun h => hne (List.isEmpty_iff.mp h)
      rw [trimStart, List.dropWhile_append, if_neg hempty, trimStart]
    have hcomment : (trim (l ++ '}' :: y)).startsWithComment = (trim l).startsWithComment := by
      rw [startsWithComment_trim, startsWithComment_trim, htrim]
      exact startsWithComment_append_brace hne y
    rw [hcomment]
    constructor
    · rintro ⟨hb, -, hcounts⟩
      exact ⟨hblank, hb, hbrace, hcounts⟩
    · rintro ⟨-, hb, -, hcounts⟩
      exact ⟨hb, hblank, hcounts⟩

theorem shapes_append (b : Bool) (ls ls' : List Text) :
    shapes b (ls ++ ls') = shapes b ls ++ shapes (ls.foldl (fun b l => (shape b l).2) b) ls' := by
  induction ls generalizing b with
  | nil => rfl
  | cons l ls ih => rw [List.cons_append, shapes, ih, shapes, List.cons_append, List.foldl_cons]

/-- The lines of a text, and those of a longer one that goes on with a brace: each line of the
first starts one of the second, and it counts just when it is not blank and the other does. -/
theorem shapes_cut (b : Bool) (t behind : Text) {i : Nat} {l : Text} (h : (pieces t)[i]? = some l) :
    ∃ line sh lineSh, (pieces (t ++ '}' :: behind))[i]? = some line ∧ l <+: line ∧
      (shapes b (pieces t))[i]? = some sh ∧
      (shapes b (pieces (t ++ '}' :: behind)))[i]? = some lineSh ∧
      (sh.1.isExecutable = true ↔ trim l ≠ [] ∧ lineSh.1.isExecutable = true) := by
  induction t using line_induction generalizing b i with
  | nil => simp [pieces] at h
  | last l' hl hne =>
    rw [pieces_last hl hne] at h ⊢
    obtain ⟨rfl, rfl⟩ : i = 0 ∧ l' = l := by
      cases i with
      | zero => exact ⟨rfl, Option.some.inj h⟩
      | succ i => simp at h
    obtain ⟨y, ys, hy⟩ : ∃ y ys, pieces ('}' :: behind) = ('}' :: y) :: ys := by
      rw [pieces, if_neg (by decide)]
      cases pieces behind with
      | nil => exact ⟨[], [], rfl⟩
      | cons p ps => exact ⟨p, ps, rfl⟩
    rw [pieces_append hl hy]
    exact ⟨_, _, _, rfl, ⟨_, rfl⟩, rfl, rfl, shape_isExecutable_cut b l' y⟩
  | line l' t hl ih =>
    rw [pieces_line hl] at h ⊢
    rw [List.append_assoc, List.cons_append, pieces_line hl]
    cases i with
    | zero =>
      obtain rfl := Option.some.inj h
      refine ⟨l', _, _, rfl, List.prefix_rfl, rfl, rfl, ?_⟩
      refine ⟨fun hcounts => ⟨?_, hcounts⟩, fun hcounts => hcounts.2⟩
      exact (shape_isExecutable_iff.mp hcounts).2.1
    | succ i => exact ih (shape b l').2 h

end Text

/-! ## The state behind the opening brace -/

namespace Lex

theorem after_calm (s : Lex) (p : Text) {c : Char} (hc : isCalm c = true) (r r' : Text) :
    s.after (p ++ [c]) r = s.after (p ++ [c]) r' := by
  have hahead : ([c] ++ r).head? = ([c] ++ r').head? := rfl
  rw [after_append, after_append, after_congr s p hahead]
  simp only [after, step, List.nil_append, next_of_isCalm hc _ r.head? r'.head?]

/-- Behind ended lines the run is where their shapes lead. -/
theorem after_ended_shapes (b : Bool) {ls : List Text} (hls : ∀ l ∈ ls, '\n' ∉ l) (r : Text) :
    (atLineStart b).after (ended ls) r =
      atLineStart (ls.foldl (fun b l => (shape b l).2) b) := by
  induction ls generalizing b with
  | nil => rfl
  | cons l ls ih =>
    have hl := hls l (by simp)
    have hended : ended (l :: ls) = (l ++ ['\n']) ++ ended ls := by simp
    have hshape : (scanLine (dropReturns l) b).endsInBlock = (shape b l).2 := by
      rw [← shape_dropReturns b hl, shape_snd]
    rw [hended, after_append, after_line b hl, hshape, List.foldl_cons]
    exact ih _ fun l' hl' => hls l' (by simp [hl'])

end Lex

/-- Once a line has come to code, the rest of it leads where it leads as a line of its own. -/
theorem Text.shape_snd_of_code {b : Bool} {v x : Text} (hv : '\n' ∉ v) (hx : '\n' ∉ x)
    (hcode : (Lex.atLineStart b).after v x = .code) : (shape b (v ++ x)).2 = (shape false x).2 := by
  have hvx : '\n' ∉ v ++ x := by simp [hv, hx]
  rw [shape_snd, shape_snd, Lex.scanLine, Lex.scanLine, Lex.scanFrom_endsInBlock _ _ hvx,
    Lex.scanFrom_endsInBlock _ _ hx]
  show decide ((Lex.atLineStart b).after (v ++ x) [] = .blockComment) = _
  rw [Lex.after_append, List.append_nil, hcode]
  rfl

namespace Body

variable {b : Body} {t before head inner behind : Text} {start : Nat}

theorem Sits.code_around_opening (h : b.Sits t before head inner behind) (hcut : b.CutAt t start) :
    Lex.code.after (before ++ head) ('{' :: (inner ++ '}' :: behind)) = .code ∧
      Lex.code.after (before ++ head ++ ['{']) (inner ++ '}' :: behind) = .code := by
  obtain ⟨_, rest, -, -, hopening⟩ := hcut.opens
  obtain ⟨mp, hmasked, hlen⟩ := drop?_eq_some.mp hopening
  have htext : t = (before ++ head) ++ '{' :: (inner ++ '}' :: behind) := by
    rw [h.text_eq]
    simp
  rw [htext] at hmasked
  apply code_around_shown hmasked
  · rw [byteLength_append]
    have hopen := h.opening_eq
    omega
  · decide

theorem Sits.code_behind_opening (h : b.Sits t before head inner behind) (hcut : b.CutAt t start) :
    Lex.code.after (before ++ head ++ ['{']) (inner ++ '}' :: behind) = .code :=
  (h.code_around_opening hcut).2

/-- What stands from the opening brace's line on, line by line. The line of the brace goes on
with the first line of what follows the brace, and what follows it is read from code. -/
structure OpensOn (b : Body) (t : Text) (top : List Text) (lead rest : Text) : Prop where
  text_eq : t = ended top ++ ((lead ++ ['{']) ++ rest)
  top_lines : ∀ l ∈ top, '\n' ∉ l
  lead_line : '\n' ∉ lead
  openLine_eq : b.openLine = top.length + 1
  code : ∀ r, (Lex.atLineStart (top.foldl (fun b l => (shape b l).2) false)).after
    (lead ++ ['{']) r = .code

theorem Sits.exists_opensOn (h : b.Sits t before head inner behind) (hcut : b.CutAt t start) :
    ∃ top lead, b.OpensOn t top lead (inner ++ '}' :: behind) := by
  obtain ⟨top, lead, hfront, hlead, htop⟩ := exists_ended (before ++ head)
  refine ⟨top, lead, ?_, htop, hlead, ?_, ?_⟩
  · have htext : t = (before ++ head) ++ '{' :: (inner ++ '}' :: behind) := by
      rw [h.text_eq]
      simp
    rw [htext, hfront]
    simp
  · have hcount : newlines (before ++ head) = top.length + 0 := by
      rw [hfront, newlines, List.count_append, List.count_eq_zero.mpr hlead, ← newlines,
        newlines_ended htop]
    rw [newlines, List.count_append] at hcount
    rw [h.openLine_eq, h.startLine_eq, newlines, newlines]
    omega
  · intro r
    have hcode := h.code_behind_opening hcut
    rw [hfront, List.append_assoc, Lex.after_append] at hcode
    have hstate := Lex.after_ended_shapes false htop
      (lead ++ ['{'] ++ (inner ++ '}' :: behind))
    rw [show Lex.code = Lex.atLineStart false from rfl, hstate] at hcode
    rw [Lex.after_calm _ lead (by decide) r (inner ++ '}' :: behind)]
    exact hcode

namespace OpensOn

variable {top : List Text} {lead rest x : Text} {xs : List Text}

theorem pieces_eq (h : b.OpensOn t top lead rest) (hrest : pieces rest = x :: xs) :
    pieces t = top ++ ((lead ++ ['{']) ++ x) :: xs := by
  have hline : '\n' ∉ lead ++ ['{'] := by simpa using h.lead_line
  rw [h.text_eq, pieces_ended_append h.top_lines, pieces_append hline hrest]

/-- From the second line on, what follows the brace has the shapes that it has in the text. -/
theorem shapes_getElem? (h : b.OpensOn t top lead rest) (hrest : pieces rest = x :: xs) (i : Nat) :
    (shapes false (pieces t))[top.length + (i + 1)]? = (shapes false (pieces rest))[i + 1]? := by
  have hline : '\n' ∉ lead ++ ['{'] := by simpa using h.lead_line
  have hx : '\n' ∉ x := by
    apply @newline_not_mem_of_mem_pieces rest
    simp [hrest]
  have hlen := length_shapes false top
  rw [h.pieces_eq hrest, shapes_append, ← hlen, List.getElem?_append_right (Nat.le_add_right _ _),
    Nat.add_sub_cancel_left, shapes, shape_snd_of_code hline hx (h.code x), hrest, shapes,
    List.getElem?_cons_succ, List.getElem?_cons_succ]

/-- A line of what stands between the braces is part of a line of the text. The first one counts
by itself, a later one as the line that it starts. -/
theorem exists_line (h : b.OpensOn t top lead (inner ++ '}' :: behind)) {i : Nat} {l : Text}
    (hl : (pieces inner)[i]? = some l) :
    ∃ line sh lineSh, (pieces t)[top.length + i]? = some line ∧
      (if i = 0 then '{' :: l <:+: line else l <+: line) ∧
      (shapes false (pieces inner))[i]? = some sh ∧
      (shapes false (pieces t))[top.length + i]? = some lineSh ∧
      (sh.1.isExecutable = true ↔ trim l ≠ [] ∧
        if i = 0 then (trim l).startsWithComment = false else lineSh.1.isExecutable = true) := by
  obtain ⟨line, sh, lineSh, hline, hstarts, hsh, hlineSh, hcounts⟩ :=
    shapes_cut false inner behind hl
  obtain ⟨x, xs, hrest⟩ : ∃ x xs, pieces (inner ++ '}' :: behind) = x :: xs := by
    apply List.exists_cons_of_ne_nil
    simp [pieces_eq_nil]
  cases i with
  | zero =>
    obtain ⟨ls, hls⟩ : ∃ ls, pieces inner = l :: ls := by
      cases hpieces : pieces inner with
      | nil => simp [hpieces] at hl
      | cons l' ls =>
        rw [hpieces] at hl
        exact ⟨ls, by rw [Option.some.inj hl]⟩
    obtain rfl : shape false l = sh := by
      rw [hls] at hsh
      exact Option.some.inj hsh
    obtain rfl : x = line := by
      rw [hrest] at hline
      exact Option.some.inj hline
    have hpieces := h.pieces_eq hrest
    have hget : (pieces t)[top.length]? = some (lead ++ ['{'] ++ x) := by
      rw [hpieces]
      simp
    have hlt : top.length < (shapes false (pieces t)).length := by
      rw [length_shapes]
      exact (List.getElem?_eq_some_iff.mp hget).1
    refine ⟨_, _, _, hget, ?_, hsh, List.getElem?_eq_getElem hlt, ?_⟩
    · obtain ⟨y, rfl⟩ := hstarts
      exact ⟨lead, y, by simp⟩
    · rw [shape_isExecutable_iff]
      simp
  | succ i =>
    refine ⟨line, sh, lineSh, ?_, hstarts, hsh, ?_, hcounts⟩
    · rw [h.pieces_eq hrest, List.getElem?_append_right (Nat.le_add_right _ _),
        Nat.add_sub_cancel_left, List.getElem?_cons_succ]
      rwa [hrest, List.getElem?_cons_succ] at hline
    · rw [h.shapes_getElem? hrest]
      exact hlineSh

end OpensOn
end Body

/-! ## Rows and their classes -/

namespace Text

variable {t : Text} {i : Nat}

theorem exists_piece_of_row {row : Text} (h : (rows t)[i]? = some row) :
    ∃ l, (pieces t)[i]? = some l ∧ dropReturns l = dropReturns row := by
  have hlines : ((rows t).map dropReturns)[i]? = some (dropReturns row) := by
    rw [List.getElem?_map, h, Option.map_some]
  rw [(map_dropReturns_rows t).1, lines, List.getElem?_map] at hlines
  exact Option.map_eq_some_iff.mp hlines

theorem length_rows (t : Text) : (rows t).length = (pieces t).length := by
  rw [← List.length_map dropReturns, (map_dropReturns_rows t).1, lines, List.length_map]

theorem length_rows_masked (t : Text) : (rows t.masked).length = (rows t).length := by
  rw [length_rows, length_rows, (blanked_masked t).pieces.length_eq]

end Text

/-- A line has a class, and its shape tells whether that is executable. -/
theorem Markers.exists_class_of_shape (ms : Markers) {ls : List Text} {i : Nat}
    {sh : LineClass × Bool} (h : (shapes false ls)[i]? = some sh) :
    ∃ cls, (ms.classifyLines ls)[i]? = some cls ∧ cls.isExecutable = sh.1.isExecutable := by
  have hbare := congrArg (·[i]?) (ms.map_bare_classifyFrom false none ls)
  simp only [List.getElem?_map, h, Option.map_some] at hbare
  obtain ⟨cls, hcls, hsh⟩ := Option.map_eq_some_iff.mp hbare
  exact ⟨cls, hcls, by rw [← hsh, LineClass.isExecutable_bare]⟩

namespace Body

/-- Row `i` between the braces of `b`, as it is and masked, the class that it is given there, and
the class of the line of the file that it is part of. -/
structure RowAt (b : Body) (file : SourceFile) (ms : Markers) (i : Nat) (row shown : Text)
    (cls lineClass : LineClass) : Prop where
  row_eq : (rows b.inner)[i]? = some row
  shown_eq : (rows b.inner.masked)[i]? = some shown
  class_eq : (ms.classifyLines (rows b.inner))[i]? = some cls
  part_of_line : ∃ line, file.line? (b.openLine + i) = some line ∧
    if i = 0 then '{' :: dropReturns row <:+: line else dropReturns row <+: line
  lineClass_eq : (file.classes ms)[b.openLine + i - 1]? = some lineClass

/-- Whether the file says that a row counts: the class of its line does, or for the first row,
which starts no line, that no comment comes first in it. -/
def Counts (i : Nat) (row : Text) (lineClass : LineClass) : Prop :=
  if i = 0 then (trim row).startsWithComment = false else lineClass.isExecutable = true

variable {b : Body} {file : SourceFile} {start i : Nat} {row : Text}

theorem CutAt.exists_rowAt (h : b.CutAt file.text start) (ms : Markers)
    (hrow : (rows b.inner)[i]? = some row) :
    ∃ shown cls lineClass, b.RowAt file ms i row shown cls lineClass ∧
      (cls.isExecutable = true ↔ trim row ≠ [] ∧ Counts i row lineClass) := by
  obtain ⟨before, head, inner, behind, hsits⟩ := bodyAt?_sits (bodyAt?_eq_some_iff.mpr h)
  obtain ⟨top, lead, hopens⟩ := hsits.exists_opensOn h
  have hinner := hsits.inner_eq
  obtain ⟨l, hl, hreturns⟩ := exists_piece_of_row hrow
  rw [hinner] at hl
  obtain ⟨line, sh, lineSh, hline, hpart, hsh, hlineSh, hcounts⟩ := hopens.exists_line hl
  have hopenLine := hopens.openLine_eq
  have htrim : trim l = trim row := by rw [← trim_dropReturns, hreturns, trim_dropReturns]
  rw [← hinner, ← shapes_rows] at hsh
  obtain ⟨cls, hcls, hclsSh⟩ := ms.exists_class_of_shape hsh
  rw [← shapes_lines] at hlineSh
  obtain ⟨lineClass, hlineClass, hlineClassSh⟩ := ms.exists_class_of_shape hlineSh
  have hshown : i < (rows b.inner.masked).length := by
    rw [length_rows_masked]
    exact (List.getElem?_eq_some_iff.mp hrow).1
  refine ⟨_, cls, lineClass, ⟨hrow, List.getElem?_eq_getElem hshown, hcls, ?_, ?_⟩, ?_⟩
  · refine ⟨dropReturns line, ?_, ?_⟩
    · rw [hopenLine, Nat.add_right_comm]
      show (lines file.text)[top.length + i]? = some (dropReturns line)
      rw [lines, List.getElem?_map, hline, Option.map_some]
    · rw [← hreturns]
      cases i with
      | zero =>
        obtain ⟨u, v, rfl⟩ := hpart
        have hcut : u ++ '{' :: l ++ v = u ++ '{' :: (l ++ v) := by simp
        obtain ⟨w, hw⟩ := dropReturns_prefix (List.prefix_append l v)
        rw [hcut, dropReturns_append_cons u (by decide)]
        exact ⟨u, w, by simp [← hw]⟩
      | succ i => exact dropReturns_prefix hpart
  · rw [hopenLine, Nat.add_right_comm, Nat.add_sub_cancel]
    exact hlineClass
  · rw [hclsSh, hcounts, Counts, htrim, hlineClassSh]

end Body

/-! ## Members of the rows that count -/

namespace Text

theorem Blanked.trim_eq_nil {m t : Text} (h : Blanked m t) (ht : trim t = []) : trim m = [] := by
  rw [Text.trim_eq_nil] at ht ⊢
  induction h with
  | nil => exact ht
  | keep c _ ih =>
    intro d hd
    rcases List.mem_cons.mp hd with rfl | hd
    · exact ht d List.mem_cons_self
    · exact ih (fun x hx => ht x (List.mem_cons_of_mem c hx)) d hd
  | blank c _ _ ih =>
    intro d hd
    rcases List.mem_append.mp hd with hd | hd
    · rw [mem_blanksFor hd]
      rfl
    · exact ih (fun x hx => ht x (List.mem_cons_of_mem c hx)) d hd

/-- Masking a blank row leaves it blank. -/
theorem trim_masked_row {t row shown : Text} {i : Nat} (hrow : (rows t)[i]? = some row)
    (hshown : (rows t.masked)[i]? = some shown) (hblank : trim row = []) : trim shown = [] := by
  obtain ⟨l, hl, hreturns⟩ := exists_piece_of_row hrow
  obtain ⟨m, hm, hreturns'⟩ := exists_piece_of_row hshown
  obtain ⟨hlt, rfl⟩ := List.getElem?_eq_some_iff.mp hl
  obtain ⟨hlt', rfl⟩ := List.getElem?_eq_some_iff.mp hm
  have hrel := (List.forall₂_iff_get.mp (blanked_masked t).pieces).2 i hlt' hlt
  rw [← trim_dropReturns, ← hreturns, trim_dropReturns] at hblank
  rw [← trim_dropReturns, ← hreturns', trim_dropReturns]
  exact hrel.trim_eq_nil hblank

end Text

namespace Enumerator

theorem namesOfRow_of_blank {row : Text} (h : trim row = []) : namesOfRow row = [] := by
  have hsplit : splitTopLevel row row = [[]] := by
    have hcomma : ',' ∉ row := fun hmem => by
      have hblank := trim_eq_nil.mp h ',' hmem
      cases hblank
    rw [splitTopLevel, topLevelPieces, commasFrom_of_unbroken (unbroken_of_not_mem hcomma 0)]
    simp [cutAt, drop?, h]
  rw [namesOfRow, hsplit]
  rfl

theorem exists_name_insert (values : List Enumerator) (v : Enumerator) (n : Text) :
    (∃ w ∈ insert values v, w.name = n) ↔ (∃ w ∈ values, w.name = n) ∨ v.name = n := by
  unfold insert
  split_ifs with hknown
  · obtain ⟨w, hw, hname⟩ := List.any_eq_true.mp hknown
    refine ⟨Or.inl, ?_⟩
    rintro (h | rfl)
    · exact h
    · exact ⟨w, hw, beq_iff_eq.mp hname⟩
  · simp [or_and_right, exists_or]

theorem exists_name_foldl (line : Nat) (names : List Text) (values : List Enumerator) (n : Text) :
    (∃ w ∈ names.foldl (fun vs name => insert vs ⟨name, line⟩) values, w.name = n) ↔
      (∃ w ∈ values, w.name = n) ∨ n ∈ names := by
  induction names generalizing values with
  | nil => simp
  | cons name names ih =>
    rw [List.foldl_cons, ih, exists_name_insert, List.mem_cons, or_assoc, eq_comm (a := n)]

/-- A name is read just when it stands on a row that counts. -/
theorem exists_name_ofRows (rows : List (Text × LineClass)) (line : Nat)
    (values : List Enumerator) (n : Text) :
    (∃ w ∈ ofRows line values rows, w.name = n) ↔ (∃ w ∈ values, w.name = n) ∨
      ∃ (i : Nat) (row : Text) (cls : LineClass), rows[i]? = some (row, cls) ∧
        cls.isExecutable = true ∧ n ∈ namesOfRow row := by
  induction rows generalizing line values with
  | nil => simp [ofRows]
  | cons head rest ih =>
    obtain ⟨row, cls⟩ := head
    have hhere : n ∈ (if cls.isExecutable = true then namesOfRow row else []) ↔
        cls.isExecutable = true ∧ n ∈ namesOfRow row := by
      split_ifs with hcls <;> simp [hcls]
    rw [ofRows, ih, exists_name_foldl, hhere, or_assoc]
    refine or_congr Iff.rfl ?_
    constructor
    · rintro (⟨hcls, hn⟩ | ⟨i, row', cls', hget, h⟩)
      · exact ⟨0, row, cls, rfl, hcls, hn⟩
      · exact ⟨i + 1, row', cls', hget, h⟩
    · rintro ⟨i, row', cls', hget, h⟩
      cases i with
      | zero =>
        obtain ⟨rfl, rfl⟩ := Prod.mk.inj (Option.some.inj hget)
        exact Or.inl h
      | succ i => exact Or.inr ⟨i, row', cls', hget, h⟩

end Enumerator

namespace Field

theorem declarations_of_no_semicolon {row d : Text} (h : ';' ∉ row) (hd : d ∈ declarations row) :
    ';' ∉ d := by
  induction row generalizing d with
  | nil => cases hd
  | cons c row ih =>
    have hc : c ≠ ';' := fun hc => h (by simp [hc])
    have hrow : ';' ∉ row := fun hrow => h (by simp [hrow])
    rw [declarations, if_neg hc] at hd
    split at hd
    · obtain rfl := List.mem_singleton.mp hd
      simpa using hc.symm
    · next d₀ ds hds =>
      rcases List.mem_cons.mp hd with rfl | hd
      · have hd₀ := ih hrow (d := d₀) (by simp [hds])
        simp [hd₀, hc.symm]
      · exact ih hrow (by simp [hds, hd])

theorem ofRow_of_blank {row : Text} (h : trim row = []) (line : Nat) : ofRow row line = .ok [] := by
  have hrow : ';' ∉ row := fun hmem => by
    have hblank := trim_eq_nil.mp h ';' hmem
    cases hblank
  have hparse : ∀ d ∈ declarations row, parse (trim d) line = .ok none := fun d hd =>
    parse_of_no_semicolon (declarations_of_no_semicolon hrow hd) line
  rw [ofRow, mapM_filterMap_eq_ok (f := fun _ => none) hparse]
  simp

/-- A field is read just when it stands on a row that declares fields. -/
theorem mem_ofRows_iff {rows : List (Text × LineClass)} {depth line : Nat} {fs : List Field}
    (h : ofRows depth line rows = .ok fs) {f : Field} :
    f ∈ fs ↔ ∃ i row cls here, rows[i]? = some (row, cls) ∧
      Declares (depthBefore depth rows i) row cls ∧ ofRow row (line + i) = .ok here ∧ f ∈ here := by
  induction rows generalizing depth line fs with
  | nil =>
    obtain rfl : [] = fs := by simpa [ofRows] using h
    simp
  | cons head rest ih =>
    obtain ⟨row, cls⟩ := head
    -- A row of the whole list is the first one, or a row of the rest one line further on.
    have hrows : (∃ i row' cls' here, ((row, cls) :: rest)[i]? = some (row', cls') ∧
        Declares (depthBefore depth ((row, cls) :: rest) i) row' cls' ∧
        ofRow row' (line + i) = .ok here ∧ f ∈ here) ↔
        (Declares depth row cls ∧ ∃ here, ofRow row line = .ok here ∧ f ∈ here) ∨
          ∃ i row' cls' here, rest[i]? = some (row', cls') ∧
            Declares (depthBefore (depthAfter depth row) rest i) row' cls' ∧
            ofRow row' (line + 1 + i) = .ok here ∧ f ∈ here := by
      constructor
      · rintro ⟨i, row', cls', here, hget, hread, hhere, hf⟩
        cases i with
        | zero =>
          obtain ⟨rfl, rfl⟩ := Prod.mk.inj (Option.some.inj hget)
          exact Or.inl ⟨hread, here, hhere, hf⟩
        | succ i =>
          rw [← Nat.add_assoc, Nat.add_right_comm] at hhere
          exact Or.inr ⟨i, row', cls', here, hget, hread, hhere, hf⟩
      · rintro (⟨hread, here, hhere, hf⟩ | ⟨i, row', cls', here, hget, hread, hhere, hf⟩)
        · exact ⟨0, row, cls, here, rfl, hread, hhere, hf⟩
        · rw [Nat.add_right_comm, Nat.add_assoc] at hhere
          exact ⟨i + 1, row', cls', here, hget, hread, hhere, hf⟩
    rw [hrows]
    by_cases hread : Declares depth row cls
    · rw [ofRows_of_declares hread] at h
      obtain ⟨here, hhere, h⟩ := bind_eq_ok.mp h
      obtain ⟨there, hthere, h⟩ := bind_eq_ok.mp h
      obtain rfl := Except.ok.inj h
      rw [List.mem_append, ih hthere]
      refine or_congr ⟨fun hf => ⟨hread, here, hhere, hf⟩, ?_⟩ Iff.rfl
      rintro ⟨-, here', hhere', hf⟩
      rwa [Except.ok.inj (hhere.symm.trans hhere')]
    · rw [ofRows_of_not_declares hread] at h
      rw [ih h]
      exact ⟨Or.inr, fun h => h.resolve_left fun hfirst => hread hfirst.1⟩

end Field

namespace Body

variable {b : Body} {file : SourceFile} {start : Nat} {ms : Markers}

/-- The brace depth in front of row `i` between the braces. -/
def depthAt (b : Body) (i : Nat) : Nat :=
  ((rows b.inner.masked).take i).foldl Field.depthAfter 0

theorem depthBefore_eq_depthAt (b : Body) (ms : Markers) (i : Nat) :
    Field.depthBefore 0 ((rows b.inner.masked).zip (ms.classifyLines (rows b.inner))) i =
      b.depthAt i := by
  have hlen : (rows b.inner.masked).length ≤ (ms.classifyLines (rows b.inner)).length := by
    rw [Markers.length_classifyLines, length_rows_masked]
  rw [Field.depthBefore, depthAt, ← List.map_fst_zip hlen, ← List.map_take, List.foldl_map,
    List.map_fst_zip hlen]

/-- What is read from the rows of executable class is what stands on the rows that count, as long
as nothing is read from a blank row. -/
theorem CutAt.counted_rows_iff (h : b.CutAt file.text start) (ms : Markers)
    {P : Nat → Text → Prop} (hP : ∀ i shown, P i shown → trim shown ≠ []) :
    (∃ i shown cls,
      ((rows b.inner.masked).zip (ms.classifyLines (rows b.inner)))[i]? = some (shown, cls) ∧
        cls.isExecutable = true ∧ P i shown) ↔
      ∃ i row shown cls lineClass, b.RowAt file ms i row shown cls lineClass ∧
        Counts i row lineClass ∧ P i shown := by
  constructor
  · rintro ⟨i, shown, cls, hget, hcls, hread⟩
    obtain ⟨hshown, hclass⟩ := List.getElem?_zip_eq_some.mp hget
    have hlt : i < (rows b.inner).length := by
      rw [← Markers.length_classifyLines ms]
      exact (List.getElem?_eq_some_iff.mp hclass).1
    obtain ⟨shown', cls', lineClass, hat, hcounts⟩ :=
      h.exists_rowAt ms (List.getElem?_eq_getElem hlt)
    obtain rfl := Option.some.inj (hshown.symm.trans hat.shown_eq)
    obtain rfl := Option.some.inj (hclass.symm.trans hat.class_eq)
    exact ⟨i, _, _, _, _, hat, (hcounts.mp hcls).2, hread⟩
  · rintro ⟨i, row, shown, cls, lineClass, hat, hcounts, hread⟩
    obtain ⟨shown', cls', lineClass', hat', hiff⟩ := h.exists_rowAt ms hat.row_eq
    obtain rfl := Option.some.inj (hat.class_eq.symm.trans hat'.class_eq)
    obtain rfl := Option.some.inj (hat.lineClass_eq.symm.trans hat'.lineClass_eq)
    have hrow : trim row ≠ [] := fun hblank =>
      hP i shown hread (trim_masked_row hat.row_eq hat.shown_eq hblank)
    refine ⟨i, shown, cls, ?_, hiff.mpr ⟨hrow, hcounts⟩, hread⟩
    exact List.getElem?_zip_eq_some.mpr ⟨hat.shown_eq, hat.class_eq⟩

theorem CutAt.exists_enumerator_iff (h : b.CutAt file.text start) (n : Text) :
    (∃ v ∈ Enumerator.all b.inner b.openLine ms, v.name = n) ↔
      ∃ i row shown cls lineClass, b.RowAt file ms i row shown cls lineClass ∧
        Counts i row lineClass ∧ n ∈ Enumerator.namesOfRow shown := by
  have hread := Enumerator.exists_name_ofRows
    ((rows b.inner.masked).zip (ms.classifyLines (rows b.inner))) b.openLine [] n
  rw [← h.counted_rows_iff ms (P := fun _ shown => n ∈ Enumerator.namesOfRow shown)]
  · simpa [Enumerator.all] using hread
  · intro i shown hn hblank
    rw [Enumerator.namesOfRow_of_blank hblank] at hn
    cases hn

theorem CutAt.mem_fields_iff (h : b.CutAt file.text start) {fs : List Field}
    (hfs : Field.all b.inner b.openLine ms = .ok fs) (f : Field) :
    f ∈ fs ↔ ∃ i row shown cls lineClass, b.RowAt file ms i row shown cls lineClass ∧
      Counts i row lineClass ∧ b.depthAt i = 0 ∧ '{' ∉ shown ∧ '}' ∉ shown ∧
      ∃ here, Field.ofRow shown (b.openLine + i) = .ok here ∧ f ∈ here := by
  rw [← h.counted_rows_iff ms (P := fun i shown => b.depthAt i = 0 ∧ '{' ∉ shown ∧ '}' ∉ shown ∧
    ∃ here, Field.ofRow shown (b.openLine + i) = .ok here ∧ f ∈ here), Field.mem_ofRows_iff hfs]
  · simp only [depthBefore_eq_depthAt]
    constructor
    · rintro ⟨i, shown, cls, here, hget, hread, hhere, hf⟩
      exact ⟨i, shown, cls, hget, hread.executable, hread.outside, hread.no_opening,
        hread.no_closing, here, hhere, hf⟩
    · rintro ⟨i, shown, cls, hget, hcls, hdepth, hopening, hclosing, here, hhere, hf⟩
      exact ⟨i, shown, cls, here, hget, ⟨hdepth, hopening, hclosing, hcls⟩, hhere, hf⟩
  · rintro i shown ⟨-, -, -, here, hhere, hf⟩ hblank
    rw [Field.ofRow_of_blank hblank] at hhere
    obtain rfl := Except.ok.inj hhere
    cases hf

end Body

/-- **A row between the braces is passed over just when it is blank or the file says so**, by the
class of the line for every row but the first. The first row stands behind the brace, and what the
file says of the brace's line is not asked: the row counts unless a comment comes first in it. The
enumerators of an enum and the fields of a struct are those on the rows that count. -/
theorem Aggregate.rows_count_as_in_file (file : SourceFile) (name : String) (ms : Markers) :
    (∀ (k : Aggregate) (b : Body) (i : Nat) (row : Text),
      k.body? file.text name = some b → (rows b.inner)[i]? = some row →
        ∃ shown cls lineClass, b.RowAt file ms i row shown cls lineClass ∧
          (cls.isExecutable = false ↔
            (∀ c ∈ row, isBlank c = true) ∨ ¬ Body.Counts i row lineClass)) ∧
    (∀ d : EnumDef, EnumDef.find? file name ms = some d →
      ∃ b, Aggregate.enum.body? file.text name = some b ∧
        ∀ n, (∃ v ∈ d.values, v.name = n) ↔
          ∃ i row shown cls lineClass, b.RowAt file ms i row shown cls lineClass ∧
            Body.Counts i row lineClass ∧ n ∈ Enumerator.namesOfRow shown) ∧
    (∀ d : StructDef, StructDef.find? file name ms = .ok (some d) →
      ∃ b, Aggregate.struct.body? file.text name = some b ∧
        ∀ f, f ∈ d.fields ↔
          ∃ i row shown cls lineClass, b.RowAt file ms i row shown cls lineClass ∧
            Body.Counts i row lineClass ∧ b.depthAt i = 0 ∧ '{' ∉ shown ∧ '}' ∉ shown ∧
            ∃ here, Field.ofRow shown (b.openLine + i) = .ok here ∧ f ∈ here) := by
  refine ⟨?_, ?_, ?_⟩
  · intro k b i row hb hrow
    obtain ⟨start, hstart⟩ := k.exists_bodyAt? hb
    obtain ⟨shown, cls, lineClass, hat, hcounts⟩ :=
      (bodyAt?_eq_some_iff.mp hstart).exists_rowAt ms hrow
    refine ⟨shown, cls, lineClass, hat, ?_⟩
    rw [← Bool.not_eq_true, hcounts, ← trim_eq_nil, ne_eq, not_and_or, not_not]
  · intro d hd
    obtain ⟨b, hb, rfl⟩ := Option.map_eq_some_iff.mp hd
    obtain ⟨start, hstart⟩ := Aggregate.exists_bodyAt? hb
    exact ⟨b, hb, (bodyAt?_eq_some_iff.mp hstart).exists_enumerator_iff⟩
  · intro d hd
    obtain ⟨b, hb, -, hfields⟩ := StructDef.exists_body hd
    obtain ⟨start, hstart⟩ := Aggregate.exists_bodyAt? hb
    exact ⟨b, hb, (bodyAt?_eq_some_iff.mp hstart).mem_fields_iff hfields⟩

/-- The second row of the enum is passed over because its line starts in a comment. What stands
on the last rows of the enum and of the struct is read. -/
theorem Aggregate.rows_behind_comment_read :
    ∃ (file : SourceFile) (d : EnumDef) (s : StructDef) (b : Body) (cls : LineClass),
      file.classes Markers.standard = [.code, .comment, .code, .code, .code] ∧
        EnumDef.find? file "E" Markers.standard = some d ∧
        StructDef.find? file "S" Markers.standard = .ok (some s) ∧
        Aggregate.enum.body? file.text "E" = some b ∧
        (Markers.standard.classifyLines (rows b.inner))[1]? = some cls ∧
        cls.isExecutable = false ∧
        (∃ v ∈ d.values, v.name = "D".toList) ∧ ∃ f ∈ s.fields, f.name = "y".toList := by
  let ms := Markers.standard
  let file : SourceFile :=
    ⟨"a.h", ("enum E \x7b A, /* not\n  B, */ C,\n  D \x7d;\n" ++
      "struct S \x7b int x;\n  int y; \x7d;\n").toList⟩
  let e : Body := ⟨0, 7, 35, 1, "enum E \x7b A, /* not\n  B, */ C,\n  D \x7d".toList⟩
  let u : Body := ⟨37, 46, 65, 4, "struct S \x7b int x;\n  int y; \x7d".toList⟩
  let y : Field := ⟨"int".toList, "y".toList, none, "int y;".toList, 5⟩
  have he : Aggregate.enum.body? file.text "E" = some e := by decide +kernel
  have hu : Aggregate.struct.body? file.text "S" = some u := by decide +kernel
  have hclasses : file.classes ms = [.code, .comment, .code, .code, .code] := by decide +kernel
  have hline : ∀ {n : Nat} {c : LineClass}, (file.classes ms)[n]? = some c →
      [.code, .comment, .code, .code, .code][n]? = some c := by
    intro n c hget
    rwa [hclasses] at hget
  obtain ⟨d, hd⟩ : ∃ d, EnumDef.find? file "E" ms = some d := by
    rw [EnumDef.find?, he]
    exact ⟨_, rfl⟩
  have hs : ∃ s, StructDef.find? file "S" ms = .ok (some s) := by
    have hread : (Field.all u.inner u.openLine ms).toOption.isSome = true := by decide +kernel
    obtain ⟨fields, hfields⟩ := Option.isSome_iff_exists.mp hread
    refine ⟨⟨"S", u.startLine, u.endLine, u.text, fields⟩, ?_⟩
    rw [StructDef.find?, hu]
    show (Field.all u.inner u.openLine ms >>= _) = _
    rw [ok_of_toOption hfields]
    rfl
  obtain ⟨s, hs⟩ := hs
  obtain ⟨hrows, henum, -⟩ := Aggregate.rows_count_as_in_file file "E" ms
  obtain ⟨hrows', -, hstruct⟩ := Aggregate.rows_count_as_in_file file "S" ms
  -- The line of the second row starts inside the comment.
  obtain ⟨shown, cls, lineClass, hat, hpassed⟩ := hrows .enum e 1 "  B, */ C,".toList he
    (by decide +kernel)
  have hcomment : .comment = lineClass := Option.some.inj (hline hat.lineClass_eq)
  refine ⟨file, d, s, e, cls, hclasses, hd, hs, he, hat.class_eq, ?_, ?_, ?_⟩
  · rw [hpassed, ← hcomment]
    exact Or.inr (by simp [Body.Counts, LineClass.isExecutable])
  · obtain ⟨b, hb, hnames⟩ := henum d hd
    obtain rfl := Option.some.inj (he.symm.trans hb)
    obtain ⟨shown, cls, lineClass, hat, -⟩ := hrows .enum e 2 "  D ".toList he (by decide +kernel)
    have hshown : shown = "  D ".toList := by
      refine Option.some.inj (hat.shown_eq.symm.trans ?_)
      decide +kernel
    have hcode : .code = lineClass := Option.some.inj (hline hat.lineClass_eq)
    refine (hnames _).mpr ⟨2, _, shown, cls, lineClass, hat, ?_, ?_⟩
    · rw [← hcode]
      rfl
    · rw [hshown]
      decide +kernel
  · obtain ⟨b, hb, hfields⟩ := hstruct s hs
    obtain rfl := Option.some.inj (hu.symm.trans hb)
    obtain ⟨shown, cls, lineClass, hat, -⟩ := hrows' .struct u 1 "  int y; ".toList hu
      (by decide +kernel)
    have hshown : shown = "  int y; ".toList := by
      refine Option.some.inj (hat.shown_eq.symm.trans ?_)
      decide +kernel
    have hcode : .code = lineClass := Option.some.inj (hline hat.lineClass_eq)
    refine ⟨y, (hfields y).mpr ⟨1, _, shown, cls, lineClass, hat, ?_, ?_, ?_⟩, rfl⟩
    · rw [← hcode]
      rfl
    · decide +kernel
    · rw [hshown]
      refine ⟨by decide, by decide, [y], ?_, List.mem_singleton_self y⟩
      apply ok_of_toOption
      decide +kernel

/-- The line of the brace is code, and on it stands an enumerator behind a comment. The comment
comes first behind the brace, so the row does not count and the enumerator is lost. -/
theorem Aggregate.enumerator_behind_comment_lost :
    ∃ (file : SourceFile) (d : EnumDef) (b : Body) (row shown : Text),
      Aggregate.enum.body? file.text "E" = some b ∧
        EnumDef.find? file "E" Markers.standard = some d ∧
        b.RowAt file Markers.standard 0 row shown .comment .code ∧
        Enumerator.namesOfRow shown = ["A".toList] ∧ d.values = [⟨"B".toList, 2⟩] := by
  let file : SourceFile := ⟨"a.h", "enum E \x7b /* first */ A,\n  B \x7d;\n".toList⟩
  let b : Body := ⟨0, 7, 29, 1, "enum E \x7b /* first */ A,\n  B \x7d".toList⟩
  have hb : Aggregate.enum.body? file.text "E" = some b := by decide +kernel
  let row : Text := " /* first */ A,".toList
  let shown : Text := "             A,".toList
  have hat : b.RowAt file Markers.standard 0 row shown .comment .code := by
    refine ⟨?_, ?_, ?_, ⟨"enum E \x7b /* first */ A,".toList, ?_, ?_⟩, ?_⟩
    all_goals decide +kernel
  refine ⟨file, ⟨"E", 1, 2, b.text, [⟨"B".toList, 2⟩]⟩, b, row, shown, hb, ?_, hat, ?_, rfl⟩
  · rw [EnumDef.find?, hb]
    decide +kernel
  · decide +kernel

end StructuralRules
