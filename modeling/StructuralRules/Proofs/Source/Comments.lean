import StructuralRules.Proofs.Source.Shapes

/-!
# What stands inside a comment

The lexer stays in one state from the opener of a comment to its end, whatever
stands in between, so masking shows nothing of it but its line feeds. No line
has another shape either: a line that starts before the comment keeps its first
characters, and a line that starts inside it is a comment. Two texts that differ
inside one comment, byte for byte and not in line feeds, are the same code.
-/

set_option autoImplicit false

namespace StructuralRules

open Text

inductive CommentKind where
  /-- Up to the end of the line. -/
  | line
  /-- Up to the closer, over any number of lines. -/
  | block
  deriving DecidableEq, Repr

namespace CommentKind

def opener : CommentKind → Text
  | .line => ['/', '/']
  | .block => ['/', '*']

/-- What ends the comment. The line feed is no part of it. -/
def closer : CommentKind → Text
  | .line => ['\n']
  | .block => ['*', '/']

/-- The state of the lexer inside. -/
def state : CommentKind → Lex
  | .line => .lineComment
  | .block => .blockComment

/-- The comment goes on through `inside` and ends before `behind`. -/
structure Encloses (k : CommentKind) (inside behind : Text) : Prop where
  open_inside : ¬ k.closer <:+: inside
  closed_behind : behind = [] ∨ k.closer <+: behind

/-- The text with a comment between `before` and `behind`. -/
def within (k : CommentKind) (before inside behind : Text) : Text :=
  before ++ (k.opener ++ (inside ++ behind))

/-- The comment starts where the lexer reads code. -/
structure Stands (k : CommentKind) (before inside behind : Text) : Prop where
  opens : Lex.code.after before k.opener = .code
  encloses : k.Encloses inside behind

end CommentKind

/-! ## Inside one comment -/

namespace Text

/-- Blank but for line feeds. -/
def hush : Text → Text
  | [] => []
  | c :: t => (if c = '\n' then [c] else blanksFor c) ++ hush t

theorem hush_append (s t : Text) : hush (s ++ t) = hush s ++ hush t := by
  induction s with
  | nil => rfl
  | cons c s ih => rw [List.cons_append, hush, ih, hush, List.append_assoc]

theorem mem_hush {t : Text} {c : Char} (h : c ∈ hush t) : c = ' ' ∨ c = '\n' ∧ '\n' ∈ t := by
  induction t with
  | nil => cases h
  | cons d t ih =>
    rw [hush, List.mem_append] at h
    rcases h with h | h
    · split_ifs at h with hd
      · rw [hd, List.mem_singleton] at h
        exact Or.inr ⟨h, by simp [hd]⟩
      · exact Or.inl (mem_blanksFor h)
    · rcases ih h with h | ⟨h, hmem⟩
      · exact Or.inl h
      · exact Or.inr ⟨h, List.mem_cons_of_mem d hmem⟩

theorem blanked_hush (t : Text) : Blanked (hush t) t := by
  induction t with
  | nil => exact .nil
  | cons c t ih =>
    rw [hush]
    split
    · exact .keep c ih
    case isFalse hc => exact .blank c hc ih

end Text

namespace Lex

/-- Of the rest the lexer sees one character. -/
theorem after_congr (s : Lex) (p : Text) {r r' : Text} (h : r.head? = r'.head?) :
    s.after p r = s.after p r' := by
  induction p generalizing s with
  | nil => rfl
  | cons c p ih =>
    have hahead : (p ++ r).head? = (p ++ r').head? := by
      rw [List.head?_append, List.head?_append, h]
    rw [after, after, hahead, ih]

theorem maskedFrom_append_of_head? (s : Lex) (p r : Text) :
    ∃ mp, Blanked mp p ∧ ∀ r' : Text, r'.head? = r.head? →
      maskedFrom s (p ++ r') = mp ++ maskedFrom (s.after p r) r' := by
  induction p generalizing s with
  | nil => exact ⟨[], .nil, fun r' _ => rfl⟩
  | cons c p ih =>
    have hahead : ∀ r' : Text, r'.head? = r.head? → (p ++ r').head? = (p ++ r).head? := by
      intro r' h
      rw [List.head?_append, List.head?_append, h]
    obtain ⟨mp, hb, hm⟩ := ih (s.step c (p ++ r).head?)
    by_cases hc : c = '\n'
    · subst hc
      exact ⟨'\n' :: mp, .keep _ hb, fun r' h => congrArg ('\n' :: ·) (hm r' h)⟩
    · rw [step_of_ne hc] at hm
      refine ⟨(if s.shows (s.next c (p ++ r).head?) then [c] else blanksFor c) ++ mp, ?_, ?_⟩
      · split
        · exact .keep c hb
        · exact .blank c hc hb
      · intro r' h
        rw [List.cons_append, maskedFrom_cons hc, hahead r' h, hm r' h, after, step_of_ne hc,
          List.append_assoc]

end Lex

namespace CommentKind

variable {k : CommentKind} {x r : Text} {c : Char}

theorem after_opener (k : CommentKind) (rest : Text) : Lex.code.after k.opener rest = k.state := by
  cases k <;> rfl

theorem maskedFrom_opener (k : CommentKind) (rest : Text) :
    maskedFrom .code (k.opener ++ rest) = ' ' :: ' ' :: maskedFrom k.state rest := by
  cases k <;> rfl

/-- What the lexer sees of a text with a comment it sees of the opener. -/
theorem head?_opener (k : CommentKind) (rest : Text) :
    (k.opener ++ rest).head? = k.opener.head? := by
  cases k <;> rfl

theorem head?_append_opener (k : CommentKind) (u rest : Text) :
    (u ++ (k.opener ++ rest)).head? = (u ++ k.opener).head? := by
  rw [List.head?_append, head?_opener, List.head?_append]

namespace Encloses

theorem tail (h : k.Encloses (c :: x) r) : k.Encloses x r :=
  ⟨fun hx => h.open_inside (hx.trans (List.suffix_cons c x).isInfix), h.closed_behind⟩

/-- No character inside leads out of the comment. -/
theorem step_eq (h : k.Encloses (c :: x) r) : k.state.step c (x ++ r).head? = k.state := by
  cases k with
  | line =>
    have hc : c ≠ '\n' := by
      rintro rfl
      exact h.open_inside ⟨[], x, rfl⟩
    rw [Lex.step_of_ne hc]
    rfl
  | block =>
    have hends : ¬ (c = '*' ∧ (x ++ r).head? = some '/') := by
      rintro ⟨rfl, hslash⟩
      cases x with
      | cons d x =>
        obtain rfl : d = '/' := Option.some.inj hslash
        exact h.open_inside ⟨[], x, rfl⟩
      | nil =>
        rcases h.closed_behind with rfl | ⟨r', rfl⟩
        · cases hslash
        · exact absurd (Option.some.inj hslash) (by decide)
    unfold Lex.step
    split
    · rfl
    · exact if_neg hends

theorem newline_not_mem (h : CommentKind.line.Encloses x r) : '\n' ∉ x := by
  intro hmem
  obtain ⟨a, b, rfl⟩ := List.append_of_mem hmem
  exact h.open_inside ⟨a, b, by simp [closer]⟩

theorem after_eq (h : k.Encloses x r) : k.state.after x r = k.state := by
  induction x with
  | nil => rfl
  | cons c x ih => rw [Lex.after, h.step_eq, ih h.tail]

/-- Masking shows the line feeds. -/
theorem maskedFrom_eq (h : k.Encloses x r) :
    maskedFrom k.state (x ++ r) = hush x ++ maskedFrom k.state r := by
  induction x with
  | nil => rfl
  | cons c x ih =>
    have hstep := h.step_eq
    by_cases hc : c = '\n'
    · subst hc
      have hafter : k.state.afterNewline = k.state := hstep
      rw [List.cons_append, maskedFrom, if_pos rfl, hafter, ih h.tail]
      rfl
    · rw [Lex.step_of_ne hc] at hstep
      have hshows : k.state.shows k.state = false := by cases k <;> rfl
      rw [List.cons_append, maskedFrom_cons hc, hstep, hshows, ih h.tail, hush, if_neg hc,
        List.append_assoc]
      rfl

theorem hush (h : k.Encloses x r) : k.Encloses (hush x) r := by
  refine ⟨fun hclose => ?_, h.closed_behind⟩
  cases k with
  | line =>
    have hmem : '\n' ∈ Text.hush x := hclose.subset (by simp [closer])
    rcases mem_hush hmem with hspace | ⟨-, hmem⟩
    · exact absurd hspace (by decide)
    · exact h.newline_not_mem hmem
  | block =>
    have hmem : '*' ∈ Text.hush x := hclose.subset (by simp [closer])
    rcases mem_hush hmem with hspace | ⟨hnewline, -⟩
    · exact absurd hspace (by decide)
    · exact absurd hnewline (by decide)

/-- The comment ends where it ends in the text, also when the text is cut behind that. -/
theorem cut {l : Text} {d : Char} (h : k.Encloses x (l ++ d :: r)) (hd : d ∉ k.closer) :
    k.Encloses x l := by
  refine ⟨h.open_inside, ?_⟩
  rcases h.closed_behind with hnil | ⟨rest, hrest⟩
  · simp at hnil
  · rcases List.append_eq_append_iff.mp hrest with ⟨y, hl, -⟩ | ⟨y, hcloser, hy⟩
    · exact Or.inr ⟨y, hl.symm⟩
    · cases y with
      | nil => exact Or.inr ⟨[], by rw [hcloser, List.append_nil, List.append_nil]⟩
      | cons e y =>
        obtain ⟨rfl, -⟩ := List.cons.inj hy
        exact absurd (by rw [hcloser]; simp) hd

/-- On its last line the comment ends where it ends in the text. -/
theorem first_line {l : Text} (hl : '\n' ∉ l) (h : k.Encloses x (l ++ '\n' :: r)) :
    k.Encloses x l := by
  cases k with
  | block => exact h.cut (by decide)
  | line =>
    refine ⟨h.open_inside, Or.inl ?_⟩
    rcases h.closed_behind with hnil | ⟨rest, hrest⟩
    · simp at hnil
    · cases l with
      | nil => rfl
      | cons d l =>
        obtain ⟨rfl, -⟩ := List.cons.inj hrest
        exact absurd List.mem_cons_self hl

end Encloses

/-- Whatever the comment says, the rest of the text is masked in the same way. -/
theorem Stands.masked_eq {before inside behind : Text} (h : k.Stands before inside behind) :
    ∃ mp, Blanked mp before ∧ ∀ y, k.Encloses y behind →
      (k.within before y behind).masked =
        mp ++ (' ' :: ' ' :: (Text.hush y ++ maskedFrom k.state behind)) := by
  obtain ⟨mp, hmp, hmasked⟩ := Lex.maskedFrom_append_of_head? .code before k.opener
  refine ⟨mp, hmp, fun y hy => ?_⟩
  rw [within, masked, hmasked _ (k.head?_opener _), h.opens, maskedFrom_opener, hy.maskedFrom_eq]

end CommentKind

/-! ## Shapes of lines -/

namespace Text

/-- Trimming keeps what stands before a character that is not blank. -/
theorem trimEnd_append_cons (z : Text) {c : Char} (hc : isBlank c = false) (y : Text) :
    z ++ [c] <+: trimEnd (z ++ c :: y) := by
  have hreverse : (z ++ c :: y).reverse = y.reverse ++ c :: z.reverse := by simp
  rw [trimEnd, hreverse, List.dropWhile_append]
  split
  · rw [List.dropWhile_cons_of_neg (by simp [hc])]
    exact ⟨[], by simp⟩
  · exact ⟨(y.reverse.dropWhile isBlank).reverse, by simp⟩

theorem startsWithComment_eq {z w : Text} (h : z <+: w) (hz : 2 ≤ z.length) :
    w.startsWithComment = z.startsWithComment := by
  obtain ⟨rest, rfl⟩ := h
  match z, hz with
  | a :: b :: z, _ => simp [startsWithComment, List.isPrefixOf]

theorem shapes_of_not_mem (b : Bool) {t : Text} (h : '\n' ∉ t) :
    shapes b (pieces t) = if t = [] then [] else [shape b t] := by
  split
  case isTrue ht => rw [ht]; rfl
  case isFalse ht => rw [pieces_last h ht]; rfl

/-- With an opener on it a line is not blank, and it starts as it does up to the opener. -/
theorem trim_opener (k : CommentKind) (l y : Text) :
    (trim (l ++ (k.opener ++ y))).isEmpty = false ∧
      (trim (l ++ (k.opener ++ y))).startsWithComment =
        (trimStart (l ++ k.opener)).startsWithComment := by
  obtain ⟨a, b, hopener, ha, hb⟩ : ∃ a b, k.opener = [a, b] ∧ isBlank a = false ∧
      isBlank b = false := by
    cases k
    · exact ⟨'/', '/', rfl, rfl, rfl⟩
    · exact ⟨'/', '*', rfl, rfl, rfl⟩
  obtain ⟨w, hw⟩ : ∃ w, ∀ z, trimStart (l ++ a :: z) = w ++ a :: z := by
    refine ⟨l.dropWhile isBlank, fun z => ?_⟩
    rw [trimStart, List.dropWhile_append]
    split
    case isTrue hempty =>
      rw [List.isEmpty_iff.mp hempty, List.dropWhile_cons_of_neg (by simp [ha])]
      rfl
    case isFalse => rfl
  have hstart : w ++ [a, b] <+: trim (l ++ (k.opener ++ y)) := by
    have hkept := trimEnd_append_cons (w ++ [a]) hb y
    rw [List.append_assoc, List.append_assoc] at hkept
    rw [trim, hopener, List.cons_append, hw]
    exact hkept
  refine ⟨?_, ?_⟩
  · obtain ⟨rest, hrest⟩ := hstart
    rw [← hrest]
    simp
  · rw [startsWithComment_eq hstart (by simp), hopener, hw]

end Text

namespace CommentKind

variable {k : CommentKind} {v x : Text} {b : Bool}

/-- One line, on which the comment stands behind `v`: it starts in front of the opener, or the
line starts inside the comment. -/
theorem shape_hush {w : Text} (hv : ∀ rest, (Lex.atLineStart b).after v rest = k.state)
    (hstart : b = true ∨ ∃ l, v = l ++ k.opener) (hline : '\n' ∉ v ++ (x ++ w))
    (h : k.Encloses x w) : shape b (v ++ (x ++ w)) = shape b (v ++ (hush x ++ w)) := by
  have hline' : '\n' ∉ v ++ (hush x ++ w) := by
    simp only [List.mem_append, not_or] at hline ⊢
    exact ⟨hline.1, fun hmem => hline.2.1 ((blanked_hush x).newline_mem_iff.mp hmem), hline.2.2⟩
  have hafter : ∀ y, k.Encloses y w →
      (Lex.atLineStart b).after (v ++ (y ++ w)) [] = k.state.after w [] := by
    intro y hy
    rw [Lex.after_append, hv, Lex.after_append, List.append_nil, hy.after_eq]
  refine Prod.ext ?_ ?_
  · rcases hstart with rfl | ⟨l, rfl⟩
    · rfl
    · have htrim := trim_opener k l (x ++ w)
      have htrim' := trim_opener k l (hush x ++ w)
      rw [List.append_assoc, List.append_assoc]
      exact shape_fst_congr (htrim.1.trans htrim'.1.symm) (htrim.2.trans htrim'.2.symm) b
  · rw [shape_snd, shape_snd, Lex.scanLine, Lex.scanLine, Lex.scanFrom_endsInBlock _ _ hline,
      Lex.scanFrom_endsInBlock _ _ hline']
    exact decide_eq_decide.mpr (by
      show (Lex.atLineStart b).after _ [] = _ ↔ (Lex.atLineStart b).after _ [] = _
      rw [hafter x h, hafter _ h.hush])

/-- Without a line feed in `x` its line ends behind the comment. -/
theorem shapes_hush_last {r : Text} (hv : ∀ rest, (Lex.atLineStart b).after v rest = k.state)
    (hstart : b = true ∨ ∃ l, v = l ++ k.opener) (hline : '\n' ∉ v) (hx : '\n' ∉ x)
    (h : k.Encloses x r) :
    shapes b (pieces (v ++ (x ++ r))) = shapes b (pieces (v ++ (hush x ++ r))) := by
  have hx' : '\n' ∉ hush x := fun hmem => hx ((blanked_hush x).newline_mem_iff.mp hmem)
  by_cases hr : '\n' ∈ r
  · obtain ⟨w, r, rfl, hw⟩ := List.eq_append_cons_of_mem hr
    have hfirst : '\n' ∉ v ++ (x ++ w) := by simp [hline, hx, hw]
    have hfirst' : '\n' ∉ v ++ (hush x ++ w) := by simp [hline, hx', hw]
    have hcut : ∀ y, v ++ (y ++ (w ++ '\n' :: r)) = (v ++ (y ++ w)) ++ '\n' :: r := by simp
    rw [hcut, hcut, pieces_line hfirst, pieces_line hfirst', shapes, shapes,
      shape_hush hv hstart hfirst (h.first_line hw)]
  · have hfirst : '\n' ∉ v ++ (x ++ r) := by simp [hline, hx, hr]
    have hfirst' : '\n' ∉ v ++ (hush x ++ r) := by simp [hline, hx', hr]
    have hempty : v ++ (x ++ r) = [] ↔ v ++ (hush x ++ r) = [] := by
      simp only [List.append_eq_nil_iff, (blanked_hush x).eq_nil_iff]
    rw [shapes_of_not_mem b hfirst, shapes_of_not_mem b hfirst', shape_hush hv hstart hfirst h]
    simp only [hempty]

/-- The lines from the one on which `x` starts. -/
theorem shapes_hush {r : Text} (hv : ∀ rest, (Lex.atLineStart b).after v rest = k.state)
    (hstart : b = true ∨ ∃ l, v = l ++ k.opener) (hline : '\n' ∉ v) (h : k.Encloses x r) :
    shapes b (pieces (v ++ (x ++ r))) = shapes b (pieces (v ++ (hush x ++ r))) := by
  induction x using line_induction generalizing v b with
  | nil => rfl
  | last x hx _ => exact shapes_hush_last hv hstart hline hx h
  | line x y hx ih =>
    cases k with
    | line => exact absurd h.newline_not_mem (by simp)
    | block =>
      have hx' : '\n' ∉ hush x := fun hmem => hx ((blanked_hush x).newline_mem_iff.mp hmem)
      have hfirst : '\n' ∉ v ++ x := by simp [hline, hx]
      have hfirst' : '\n' ∉ v ++ hush x := by simp [hline, hx']
      have hopen : CommentKind.block.Encloses x [] :=
        ⟨fun hc => h.open_inside (hc.trans (List.prefix_append x _).isInfix), Or.inl rfl⟩
      have hrest : CommentKind.block.Encloses y r :=
        ⟨fun hc => h.open_inside (hc.trans ⟨x ++ ['\n'], [], by simp⟩), h.closed_behind⟩
      have hshape : shape b (v ++ x) = shape b (v ++ hush x) := by
        simpa using shape_hush (w := []) hv hstart (by simpa using hfirst) hopen
      -- The next line starts inside the comment.
      have hblock : (shape b (v ++ x)).2 = true := by
        rw [shape_snd, Lex.scanLine, Lex.scanFrom_endsInBlock _ _ hfirst, decide_eq_true_iff]
        show (Lex.atLineStart b).after (v ++ x) [] = .blockComment
        rw [Lex.after_append, hv, hopen.after_eq]
        rfl
      have hcut : v ++ (x ++ '\n' :: y ++ r) = (v ++ x) ++ '\n' :: (y ++ r) := by simp
      have hcut' : v ++ (hush (x ++ '\n' :: y) ++ r) =
          (v ++ hush x) ++ '\n' :: (hush y ++ r) := by
        rw [hush_append]
        simp [hush]
      rw [hcut, hcut', pieces_line hfirst, pieces_line hfirst', shapes, shapes, ← hshape, hblock]
      have hnext := ih (b := true) (v := []) (fun _ => rfl) (Or.inl rfl) (by simp) hrest
      exact congrArg _ hnext

/-- The comment and all lines around it. -/
theorem shapes_within {before inside behind : Text} {b : Bool}
    (hopens : (Lex.atLineStart b).after before k.opener = .code)
    (h : k.Encloses inside behind) :
    shapes b (pieces (k.within before inside behind)) =
      shapes b (pieces (k.within before (hush inside) behind)) := by
  have hopener : '\n' ∉ k.opener := by cases k <;> decide
  -- The comment opens on the first line.
  have hfirst : ∀ l, '\n' ∉ l → ∀ b, (Lex.atLineStart b).after l k.opener = .code →
      shapes b (pieces (k.within l inside behind)) =
        shapes b (pieces (k.within l (hush inside) behind)) := by
    intro l hl b hopens
    have hv : ∀ rest, (Lex.atLineStart b).after (l ++ k.opener) rest = k.state := by
      intro rest
      rw [Lex.after_append, Lex.after_congr _ l (k.head?_opener rest), hopens, after_opener]
    have hcut : ∀ y, k.within l y behind = (l ++ k.opener) ++ (y ++ behind) := by simp [within]
    rw [hcut, hcut]
    exact shapes_hush hv (Or.inr ⟨l, rfl⟩) (by simp [hl, hopener]) h
  induction before using line_induction generalizing b with
  | nil => exact hfirst [] (by simp) b hopens
  | last l hl _ => exact hfirst l hl b hopens
  | line l before hl ih =>
    have hcut : ∀ y, k.within (l ++ '\n' :: before) y behind =
        l ++ '\n' :: k.within before y behind := by
      intro y
      simp [within]
    have hnext : (Lex.atLineStart (shape b l).2).after before k.opener = .code := by
      have hsplit : l ++ '\n' :: before = (l ++ ['\n']) ++ before := by simp
      rw [hsplit, Lex.after_append, Lex.after_line b hl] at hopens
      rw [← shape_dropReturns b hl]
      exact hopens
    rw [hcut, hcut, pieces_line hl, pieces_line hl, shapes, shapes, ih hnext]

end CommentKind

/-! ## Classes of lines -/

/-- A line that ends a block comment is not blank. -/
theorem Text.not_blank_of_closes {l : Text} (hl : '\n' ∉ l) (h : (shape true l).2 = false) :
    (trim l).isEmpty = false := by
  rw [← Bool.not_eq_true, List.isEmpty_iff]
  intro hblank
  have hopen : CommentKind.block.Encloses l [] := by
    refine ⟨fun hclose => ?_, Or.inl rfl⟩
    have hstar : '*' ∈ l := hclose.subset (by simp [CommentKind.closer])
    exact absurd (trim_eq_nil.mp hblank '*' hstar) (by decide)
  have hstays : (Lex.atLineStart true).after l [] = .blockComment := hopen.after_eq
  rw [shape_snd, Lex.scanLine, Lex.scanFrom_endsInBlock _ _ hl, decide_eq_false_iff_not] at h
  exact h hstays

/-- Lines of the same shapes with markers on the same lines have the same classes. Inside a
block comment it does not matter which line was the last that is not blank: the line that ends
the comment takes its place. -/
theorem Markers.classifyFrom_congr {ms : Markers} {ls ls' : List Text}
    (hmarks : List.Forall₂ (fun l l' => ms.marks l = ms.marks l') ls ls')
    (hls : ∀ l ∈ ls, '\n' ∉ l) (hls' : ∀ l ∈ ls', '\n' ∉ l) {b : Bool}
    (hshapes : shapes b ls = shapes b ls') {previous previous' : Option Text}
    (hprevious : b = false → previous.any ms.marks = previous'.any ms.marks) :
    ms.classifyFrom b previous ls = ms.classifyFrom b previous' ls' := by
  induction hmarks generalizing b previous previous' with
  | nil => rfl
  | @cons l l' ls ls' hmark _ ih =>
    rw [shapes, shapes] at hshapes
    obtain ⟨hshape, hrest⟩ := List.cons.inj hshapes
    rw [← hshape] at hrest
    have hclass : (ms.classify l previous b).1 = (ms.classify l' previous' b).1 := by
      rw [classify_fst, classify_fst, ← hshape, excuse_eq_marks, excuse_eq_marks, hmark]
      cases b with
      | true => rfl
      | false => rw [hprevious rfl]
    have hopen : (ms.classify l' previous' b).2 = (shape b l).2 := by rw [hshape]; rfl
    have hnext : (shape b l).2 = false →
        (if (trim l).isEmpty then previous else some l).any ms.marks =
          (if (trim l').isEmpty then previous' else some l').any ms.marks := by
      intro hclosed
      cases b with
      | true =>
        rw [not_blank_of_closes (hls l List.mem_cons_self) hclosed,
          not_blank_of_closes (hls' l' List.mem_cons_self) (hshape ▸ hclosed)]
        exact hmark
      | false =>
        have hblank : (trim l).isEmpty = (trim l').isEmpty := by
          rw [Bool.eq_iff_iff, ← shape_eq_blank_iff, ← shape_eq_blank_iff, hshape]
        rw [hblank]
        split
        · exact hprevious rfl
        · exact hmark
    rw [classifyFrom, classifyFrom]
    dsimp only
    rw [hclass, hopen]
    exact congrArg _ (ih (fun l hl => hls l (List.mem_cons_of_mem _ hl))
      (fun l hl => hls' l (List.mem_cons_of_mem _ hl)) hrest hnext)

/-- The classes of two files with the same code and with markers on the same lines. -/
theorem Text.SameCode.classes_eq {f f' : SourceFile} (h : SameCode f.text f'.text) {ms : Markers}
    (hmarks : ∀ n l l', f.line? n = some l → f'.line? n = some l' →
      ((∃ m ∈ ms, m.toList <:+: l) ↔ ∃ m ∈ ms, m.toList <:+: l')) :
    f.classes ms = f'.classes ms := by
  have hshapes : shapes false f.lines = shapes false f'.lines := by
    rw [SourceFile.lines, SourceFile.lines, shapes_lines, shapes_lines, h.shapes_eq]
  have hlength : f.lines.length = f'.lines.length := by
    rw [← length_shapes false, hshapes, length_shapes]
  have hforall : List.Forall₂ (fun l l' => ms.marks l = ms.marks l') f.lines f'.lines := by
    refine List.forall₂_iff_get.mpr ⟨hlength, fun i hi hi' => ?_⟩
    rw [Bool.eq_iff_iff, Markers.marks_iff, Markers.marks_iff]
    exact hmarks (i + 1) _ _ (List.getElem?_eq_getElem hi) (List.getElem?_eq_getElem hi')
  exact Markers.classifyFrom_congr hforall (fun l hl => newline_not_mem_of_mem_lines hl)
    (fun l hl => newline_not_mem_of_mem_lines hl) hshapes fun _ => rfl

namespace CommentKind

variable {k : CommentKind}

/-! ## Two texts that differ inside one comment -/

/-- The comment may say `inside` or `inside'`, with the same line feeds at the same bytes. -/
structure Swaps (k : CommentKind) (before inside inside' behind : Text) : Prop
    extends k.Stands before inside behind where
  encloses' : k.Encloses inside' behind
  hush_eq : hush inside = hush inside'

/-- **The texts are the same code.** -/
theorem Swaps.sameCode {before inside inside' behind : Text}
    (h : k.Swaps before inside inside' behind) :
    SameCode (k.within before inside behind) (k.within before inside' behind) := by
  obtain ⟨mp, -, hmasked⟩ := h.toStands.masked_eq
  refine ⟨?_, ?_⟩
  · rw [hmasked _ h.encloses, hmasked _ h.encloses', h.hush_eq]
  · have hopens : (Lex.atLineStart false).after before k.opener = .code := h.opens
    rw [shapes_within hopens h.encloses, shapes_within hopens h.encloses', h.hush_eq]

end CommentKind

namespace Bytes

/-- Some bytes, none of them a line feed, have been replaced by bytes that are no line feed, no
star and no slash. -/
def Replaced (bs bs' : Bytes) : Prop :=
  List.Forall₂ (fun b b' => b' = b ∨
    b ≠ '\n'.toUInt8 ∧ b' ∉ ['\n'.toUInt8, '*'.toUInt8, '/'.toUInt8]) bs bs'

/-- A byte that a replacement never is has been there before. -/
theorem Replaced.split {bs as rest : Bytes} {b : UInt8}
    (h : Replaced bs (as ++ b :: rest)) (hb : b ∈ ['\n'.toUInt8, '*'.toUInt8, '/'.toUInt8]) :
    ∃ as' rest', bs = as' ++ b :: rest' ∧ Replaced as' as ∧ Replaced rest' rest := by
  induction as generalizing bs with
  | nil =>
    cases h with
    | @cons a _ rest' _ hab hrest =>
      rcases hab with rfl | ⟨-, hne⟩
      · exact ⟨[], rest', rfl, .nil, hrest⟩
      · exact absurd hb hne
  | cons a as ih =>
    cases h with
    | @cons a' _ bs' _ hab hrest =>
      obtain ⟨as', rest', rfl, has, hrest⟩ := ih hrest
      exact ⟨a' :: as', rest', rfl, .cons hab has, hrest⟩

end Bytes

namespace Text

theorem toBytes_hush (t : Text) :
    (hush t).toBytes = t.toBytes.map fun b => if b = '\n'.toUInt8 then b else ' '.toUInt8 := by
  induction t with
  | nil => rfl
  | cons c t ih =>
    rw [hush, toBytes_append, ih, toBytes_cons, List.map_append]
    congr 1
    split
    case isTrue hc => rw [hc]; rfl
    case isFalse hc =>
      rw [toBytes_blanksFor, ← String.length_utf8EncodeChar]
      refine (List.map_eq_replicate_iff.mpr fun b hb => if_neg ?_).symm
      rintro rfl
      obtain ⟨hlt, heq⟩ := encode_eq_of_mem hb (by decide)
      exact hc ((toUInt8_inj (by decide) hlt).mp heq).symm

theorem hush_eq_of_replaced {t t' : Text} (h : Bytes.Replaced t.toBytes t'.toBytes) :
    hush t = hush t' := by
  apply toBytes_injective
  rw [toBytes_hush, toBytes_hush]
  generalize t.toBytes = bs, t'.toBytes = bs' at h
  induction h with
  | nil => rfl
  | cons hb _ ih =>
    rw [List.map_cons, List.map_cons, ih]
    congr 1
    rcases hb with rfl | ⟨hb, hb'⟩
    · rfl
    · rw [if_neg hb, if_neg fun h => hb' (by simp [h])]

/-- A character that a replacement never is has been there before. -/
theorem split_of_replaced {t p q : Text} {c : Char} (hc : c ∈ ['\n', '*', '/'])
    (h : Bytes.Replaced t.toBytes (p ++ c :: q).toBytes) :
    ∃ p' q' : Text, t = p' ++ c :: q' ∧ Bytes.Replaced p'.toBytes p.toBytes ∧
      Bytes.Replaced q'.toBytes q.toBytes := by
  obtain ⟨hascii, hbyte⟩ : c.toNat < 128 ∧
      c.toUInt8 ∈ ['\n'.toUInt8, '*'.toUInt8, '/'.toUInt8] := by
    simp only [List.mem_cons, List.not_mem_nil, or_false] at hc
    rcases hc with rfl | rfl | rfl <;> decide
  rw [toBytes_append, toBytes_cons, encode_of_ascii hascii] at h
  obtain ⟨as, rest, ht, hp, hq⟩ := h.split hbyte
  obtain ⟨p', q', rfl, rfl, rfl⟩ := exists_append_of_ascii hascii ht
  exact ⟨p', q', rfl, hp, hq⟩

theorem prefix_of_replaced {w t q : Text} (hw : ∀ c ∈ w, c ∈ ['\n', '*', '/'])
    (h : Bytes.Replaced t.toBytes (w ++ q).toBytes) : w <+: t := by
  induction w generalizing t with
  | nil => exact List.nil_prefix
  | cons c w ih =>
    obtain ⟨p, r, rfl, hp, hr⟩ := split_of_replaced (p := []) (hw c List.mem_cons_self) h
    obtain rfl : p = [] := toBytes_eq_nil.mp (List.forall₂_nil_right_iff.mp hp)
    obtain ⟨v, rfl⟩ := ih (fun d hd => hw d (List.mem_cons_of_mem c hd)) hr
    exact ⟨v, rfl⟩

theorem infix_of_replaced {w t t' : Text} (hw : ∀ c ∈ w, c ∈ ['\n', '*', '/'])
    (h : Bytes.Replaced t.toBytes t'.toBytes) (hword : w <:+: t') : w <:+: t := by
  obtain ⟨p, q, rfl⟩ := hword
  cases w with
  | nil => exact List.nil_infix
  | cons c w =>
    rw [List.append_assoc, List.cons_append] at h
    obtain ⟨p', r, rfl, -, hr⟩ := split_of_replaced (hw c List.mem_cons_self) h
    obtain ⟨v, rfl⟩ := prefix_of_replaced (fun d hd => hw d (List.mem_cons_of_mem c hd)) hr
    exact ⟨p', v, by simp⟩

end Text

namespace CommentKind

variable {k : CommentKind}

/-- Replacements do not end the comment. -/
theorem Encloses.replaced {x x' r : Text} (h : k.Encloses x r)
    (hx : Bytes.Replaced x.toBytes x'.toBytes) : k.Encloses x' r := by
  have hcloser : ∀ c ∈ k.closer, c ∈ ['\n', '*', '/'] := by
    cases k <;> simp [closer]
  exact ⟨fun hclose => h.open_inside (infix_of_replaced hcloser hx hclose), h.closed_behind⟩

/-- Whatever bytes inside the comment are replaced, the result is a text in which the comment
says something else. -/
theorem Stands.replaced {before inside behind t' : Text} {bytes : Bytes}
    (h : k.Stands before inside behind) (hbytes : Bytes.Replaced inside.toBytes bytes)
    (ht' : t'.toBytes = (before ++ k.opener).toBytes ++ (bytes ++ behind.toBytes)) :
    ∃ inside', t' = k.within before inside' behind ∧ k.Swaps before inside inside' behind := by
  obtain ⟨rest, rfl, hrest⟩ := exists_append_of_toBytes ht'
  obtain ⟨inside', rfl, rfl⟩ : ∃ inside', rest = inside' ++ behind ∧ inside'.toBytes = bytes := by
    rcases h.encloses.closed_behind with rfl | ⟨behind', rfl⟩
    · exact ⟨rest, by simp, by simpa using hrest⟩
    · obtain ⟨a, closer, hcloser, ha⟩ : ∃ a closer, k.closer = a :: closer ∧ a.toNat < 128 := by
        cases k
        · exact ⟨'\n', [], rfl, by decide⟩
        · exact ⟨'*', ['/'], rfl, by decide⟩
      rw [hcloser, List.cons_append, toBytes_cons, encode_of_ascii ha] at hrest
      obtain ⟨inside', r, rfl, hinside, hr⟩ := exists_append_of_ascii ha hrest
      obtain rfl := toBytes_injective hr
      exact ⟨inside', by rw [hcloser]; rfl, hinside⟩
  refine ⟨inside', by simp [within], h, h.encloses.replaced hbytes, ?_⟩
  exact hush_eq_of_replaced hbytes

end CommentKind
end StructuralRules
