import StructuralRules.Proofs.Source.BodyRows

/-!
# Members and the lines they stand on

Masking is cut at the braces of a body. The lexer reads code in front of each of
the two braces, and no brace is what it looks ahead for, so what stands between
them is masked on its own as it is masked in the file. Rows of the one are then
parts of lines of the other. The braces enclose what is between them, so the
depth that is counted along the rows never falls below zero, and a row at depth
zero stands outside all braces. An enumerator keeps the first row that names it.
-/

set_option autoImplicit false

namespace StructuralRules

open Text

/-! ## Masking a text in two parts -/

namespace Lex

/-- Where code follows, the lexer has not looked at what is ahead. -/
theorem next_none_of_code {s : Lex} {d c : Char} (hslash : c ≠ '/') (hstar : c ≠ '*')
    (h : s.next d (some c) = .code) : s.next d none = .code := by
  cases s with
  | code => simpa [next, hslash, hstar] using h
  | blockComment => simp [next, hslash] at h
  | literal q =>
    simp only [next] at h ⊢
    split_ifs at h ⊢ with hescape hquote
    · simp at hescape
    · rfl
  | lineComment => cases h
  | opening => cases h
  | closing => rfl
  | escaped q => cases h

/-- Masking is cut in front of a character that is read as code. -/
theorem maskedFrom_append_of_code (s : Lex) (p : Text) {c : Char} (hslash : c ≠ '/')
    (hstar : c ≠ '*') (r : Text) (h : s.after p (c :: r) = .code) :
    maskedFrom s (p ++ c :: r) = maskedFrom s p ++ maskedFrom .code (c :: r) := by
  induction p generalizing s with
  | nil =>
    obtain rfl : s = .code := h
    rfl
  | cons d p ih =>
    by_cases hd : d = '\n'
    · subst hd
      exact congrArg ('\n' :: ·) (ih s.afterNewline h)
    · rw [after, step_of_ne hd] at h
      rw [List.cons_append, maskedFrom_cons hd, maskedFrom_cons hd, ih _ h, List.append_assoc]
      cases p with
      | nil =>
        have hcode : s.next d (some c) = .code := h
        have hnone := next_none_of_code hslash hstar hcode
        show (if s.shows (s.next d (some c)) then [d] else blanksFor d) ++
            (maskedFrom (s.next d (some c)) [] ++ maskedFrom .code (c :: r)) =
          (if s.shows (s.next d none) then [d] else blanksFor d) ++
            (maskedFrom (s.next d none) [] ++ maskedFrom .code (c :: r))
        rw [hcode, hnone]
      | cons e p => rfl

end Lex

namespace Text

/-- A text is masked in two parts in front of a brace that is read as code. -/
theorem masked_append_brace {p : Text} {c : Char} (hc : c = '{' ∨ c = '}') {r : Text}
    (h : Lex.code.after p (c :: r) = .code) : (p ++ c :: r).masked = p.masked ++ c :: r.masked := by
  have hbrace : maskedFrom .code (c :: r) = c :: r.masked := by
    obtain rfl | rfl := hc
    · rfl
    · rfl
  have hcalm : c ≠ '/' ∧ c ≠ '*' := by
    obtain rfl | rfl := hc
    · decide
    · decide
  rw [masked, Lex.maskedFrom_append_of_code _ _ hcalm.1 hcalm.2 _ h, hbrace, ← masked]

/-! ## Rows and pieces as parts of a longer text -/

/-- What is a piece of a part is a part of a piece. -/
theorem pieces_within {x l b : Text} {i : Nat} (h : (pieces x)[i]? = some l) (a : Text)
    (hb : b ≠ []) :
    ∃ line, (pieces (a ++ (x ++ b)))[newlines a + i]? = some line ∧ l <:+: line := by
  obtain ⟨r, hx, -⟩ := pieces_split h
  have hlines : ∀ l' ∈ (pieces x).take i, '\n' ∉ l' := fun l' hl' =>
    newline_not_mem_of_mem_pieces (List.mem_of_mem_take hl')
  have hl : '\n' ∉ l := newline_not_mem_of_mem_pieces (List.mem_of_getElem? h)
  obtain ⟨top, lead, hfront, hlead, htop⟩ := exists_ended (a ++ ended ((pieces x).take i))
  have hcount : newlines a + i = top.length := by
    have hlen := newlines_ended hlines
    have hlt := (List.getElem?_eq_some_iff.mp h).1
    have hsame := congrArg newlines hfront
    rw [newlines, newlines, List.count_append, List.count_append, List.count_eq_zero.mpr hlead,
      ← newlines, ← newlines, ← newlines, newlines_ended htop, hlen, List.length_take] at hsame
    omega
  have hline : '\n' ∉ lead ++ l := by simp [hlead, hl]
  obtain ⟨y, ys, hy⟩ : ∃ y ys, pieces (r ++ b) = y :: ys := by
    apply List.exists_cons_of_ne_nil
    simp [pieces_eq_nil, hb]
  have htext : a ++ (x ++ b) = ended top ++ ((lead ++ l) ++ (r ++ b)) := by
    calc a ++ (x ++ b) = (a ++ ended ((pieces x).take i)) ++ (l ++ (r ++ b)) := by
          conv_lhs => rw [hx]
          simp
      _ = ended top ++ ((lead ++ l) ++ (r ++ b)) := by
          rw [hfront]
          simp
  refine ⟨(lead ++ l) ++ y, ?_, lead, y, rfl⟩
  rw [htext, pieces_ended_append htop, pieces_append hline hy, hcount]
  simp

/-- A part of a line stays a part when both are cut at their ends. -/
theorem dropReturns_of_infix {l line : Text} (h : l <:+: line) :
    dropReturns l <:+: dropReturns line := by
  obtain ⟨u, v, rfl⟩ := h
  obtain hnil | ⟨w, c, hw, hc⟩ := dropReturns_cases l
  · rw [hnil]
    exact List.nil_infix
  · obtain ⟨k, hk⟩ := exists_dropReturns l
    have hcut : u ++ l ++ v = (u ++ w) ++ c :: (List.replicate k '\r' ++ v) := by
      rw [hk, hw]
      simp
    rw [hcut, dropReturns_append_cons _ hc, hw]
    exact ⟨u, dropReturns (List.replicate k '\r' ++ v), by simp⟩

theorem infix_dropReturns {l line : Text} {c : Char} (hc : c ≠ '\r') (h : l ++ [c] <:+: line) :
    l ++ [c] <:+: dropReturns line := by
  have hcut := dropReturns_of_infix h
  rwa [dropReturns_append_cons l hc, dropReturns] at hcut

theorem infix_trim_self (t : Text) : trim t <:+: t := by
  obtain ⟨r, hr, -⟩ := exists_trimEnd (trimStart t)
  have hprefix : trim t <+: trimStart t := ⟨r, hr.symm⟩
  exact hprefix.isInfix.trans (List.dropWhile_suffix isBlank).isInfix

theorem row_prefix {t row : Text} {rest : List Text} (h : rows t = row :: rest) : row <+: t := by
  fun_induction rows t generalizing row rest with
  | case1 => cases h
  | case2 => exact (List.cons.inj h).1 ▸ List.nil_prefix
  | case3 => exact (List.cons.inj h).1 ▸ List.nil_prefix
  | case4 c t => exact (List.cons.inj h).1 ▸ ⟨t, rfl⟩
  | case5 c t _ _ p ps hrows ih =>
    obtain ⟨v, hv⟩ := ih hrows
    exact (List.cons.inj h).1 ▸ ⟨v, by rw [List.cons_append, hv]⟩

/-- A row stands behind the rows before it. -/
theorem rows_split {t row : Text} {i : Nat} (h : (rows t)[i]? = some row) :
    ∃ u v, t = u ++ (row ++ v) ∧ newlines u = i ∧
      ∀ c, c ≠ '\n' → c ≠ '\r' → ((rows t).take i).flatten.count c = u.count c := by
  fun_induction rows t generalizing i row with
  | case1 => simp at h
  | case2 t ih =>
    cases i with
    | zero =>
      obtain rfl := Option.some.inj h
      exact ⟨[], '\n' :: t, rfl, rfl, fun _ _ _ => rfl⟩
    | succ i =>
      obtain ⟨u, v, rfl, hu, hcount⟩ := ih h
      refine ⟨'\n' :: u, v, rfl, ?_, fun c hn hr => ?_⟩
      · rw [newlines, List.count_cons_self, ← newlines, hu]
      · rw [List.take_succ_cons, List.flatten_cons, List.nil_append, hcount c hn hr,
          List.count_cons_of_ne hn.symm]
  | case3 t ih =>
    cases i with
    | zero =>
      obtain rfl := Option.some.inj h
      exact ⟨[], '\r' :: '\n' :: t, rfl, rfl, fun _ _ _ => rfl⟩
    | succ i =>
      obtain ⟨u, v, rfl, hu, hcount⟩ := ih h
      refine ⟨'\r' :: '\n' :: u, v, rfl, ?_, fun c hn hr => ?_⟩
      · rw [newlines, List.count_cons_of_ne (by decide), List.count_cons_self, ← newlines, hu]
      · rw [List.take_succ_cons, List.flatten_cons, List.nil_append, hcount c hn hr,
          List.count_cons_of_ne hr.symm, List.count_cons_of_ne hn.symm]
  | case4 d t _ _ hrows ih =>
    cases i with
    | zero =>
      obtain rfl := Option.some.inj h
      exact ⟨[], t, rfl, rfl, fun _ _ _ => rfl⟩
    | succ i => simp at h
  | case5 d t hnewline _ p ps hrows ih =>
    have hd : d ≠ '\n' := fun hd => hnewline hd
    cases i with
    | zero =>
      obtain rfl := Option.some.inj h
      obtain ⟨v, hv⟩ := row_prefix hrows
      exact ⟨[], v, by rw [List.nil_append, List.cons_append, hv], rfl, fun _ _ _ => rfl⟩
    | succ i =>
      have hget : (rows t)[i + 1]? = some row := by rwa [hrows]
      obtain ⟨u, v, ht, hu, hcount⟩ := ih hget
      refine ⟨d :: u, v, by rw [ht, List.cons_append], ?_, fun c hn hr => ?_⟩
      · rw [newlines, List.count_cons_of_ne hd, ← newlines, hu]
      · have hrest := hcount c hn hr
        rw [hrows, List.take_succ_cons, List.flatten_cons, List.count_append] at hrest
        rw [List.take_succ_cons, List.flatten_cons, List.count_append, List.count_cons,
          List.count_cons]
        omega

end Text

/-! ## Masked bodies -/

namespace Body

variable {b : Body} {t front behind : Text} {start : Nat}

/-- The masked text is cut at the braces of `b`. Between them stands what is between the braces
of the text, masked on its own. -/
structure MaskedAt (b : Body) (t front behind : Text) : Prop where
  text_eq : t.masked = front ++ '{' :: (b.inner.masked ++ '}' :: behind)
  opening_eq : b.opening = byteLength front
  stop_eq : b.stop = byteLength front + byteLength b.inner.masked + 2
  openLine_eq : b.openLine = newlines front + 1
  endLine_eq : b.endLine = b.openLine + newlines b.inner.masked
  enclosed : Enclosed '{' '}' ('{' :: (b.inner.masked ++ ['}']))

theorem CutAt.exists_maskedAt (h : b.CutAt t start) :
    ∃ front behind, b.MaskedAt t front behind := by
  obtain ⟨before, head, inner, behind, hsits⟩ := bodyAt?_sits (bodyAt?_eq_some_iff.mpr h)
  obtain ⟨hopening, hbehind⟩ := hsits.code_around_opening h
  obtain ⟨braced, hbraced, henclosed⟩ := h.closes
  obtain ⟨p, q, hmasked, hlen, hstop⟩ := slice?_eq_some.mp hbraced
  have hbraces : byteLength ['{'] = 1 ∧ byteLength ['}'] = 1 := ⟨rfl, rfl⟩
  have htext : t = (before ++ head) ++ '{' :: (inner ++ '}' :: behind) := by
    rw [hsits.text_eq]
    simp
  -- The closing brace is shown, so code is read in front of it.
  have hclosing : Lex.code.after inner ('}' :: behind) = .code := by
    obtain ⟨r, rfl⟩ := henclosed.closes
    have hshown : ((before ++ head ++ '{' :: inner) ++ '}' :: behind).masked =
        (p ++ r) ++ '}' :: q := by
      rw [List.append_assoc, List.cons_append, ← htext, hmasked]
      simp
    have hsize : byteLength (p ++ r) = byteLength (before ++ head ++ '{' :: inner) := by
      have hopen := hsits.opening_eq
      have hclose := hsits.stop_eq
      have hbrace : '{'.utf8Size = 1 := rfl
      simp only [byteLength_append, byteLength_cons, hbrace, hbraces.2] at hstop ⊢
      omega
    have hcode := (code_around_shown hshown hsize (by decide)).1
    have hcut : before ++ head ++ '{' :: inner = (before ++ head ++ ['{']) ++ inner := by simp
    rw [hcut, Lex.after_append] at hcode
    exact (congrArg (Lex.after · inner ('}' :: behind)) hbehind).symm.trans hcode
  have hwhole : t.masked =
      (before ++ head).masked ++ '{' :: (b.inner.masked ++ '}' :: behind.masked) := by
    rw [htext, masked_append_brace (Or.inl rfl) hopening, masked_append_brace (Or.inr rfl) hclosing,
      hsits.inner_eq]
  have hfront := blanked_masked (before ++ head)
  have hinner := blanked_masked inner
  refine ⟨_, _, hwhole, ?_, ?_, ?_, ?_, ?_⟩
  · rw [hfront.byteLength_eq, byteLength_append, hsits.opening_eq]
  · rw [hfront.byteLength_eq, hsits.inner_eq, hinner.byteLength_eq, byteLength_append,
      hsits.stop_eq]
  · rw [hfront.newlines_eq, hsits.openLine_eq, hsits.startLine_eq, newlines, newlines, newlines,
      List.count_append]
    omega
  · rw [hsits.inner_eq, hinner.newlines_eq, hsits.openLine_add]
  · -- What is between the braces, with them, is what the counter found closed.
    have hsame : p ++ (braced ++ q) =
        (before ++ head).masked ++ (('{' :: (b.inner.masked ++ ['}'])) ++ behind.masked) := by
      rw [← hmasked, hwhole]
      simp
    obtain ⟨-, hrest⟩ := append_inj_of_byteLength hsame (by
      rw [hlen, hsits.opening_eq, hfront.byteLength_eq, byteLength_append])
    have hsize : byteLength braced = byteLength ('{' :: (b.inner.masked ++ ['}'])) := by
      have hopen := hsits.opening_eq
      have hclose := hsits.stop_eq
      have hbrace : '{'.utf8Size = 1 := rfl
      rw [byteLength_cons, byteLength_append, hsits.inner_eq, hinner.byteLength_eq, hbrace,
        hbraces.2]
      omega
    exact (append_inj_of_byteLength hrest hsize).1 ▸ henclosed

namespace MaskedAt

/-- No part at the front of what is between the braces closes more braces than it opens. -/
theorem count_le (h : b.MaskedAt t front behind) {u v : Text} (huv : b.inner.masked = u ++ v) :
    u.count '}' ≤ u.count '{' := by
  have hlt := h.enclosed.inside ('{' :: u) (v ++ ['}']) (by rw [huv]; simp) (by simp) (by simp)
  rw [List.count_cons_of_ne (by decide), List.count_cons_self] at hlt
  omega

end MaskedAt

theorem MaskedAt.slice?_eq (h : b.MaskedAt t front behind) :
    slice? t.masked (b.opening + 1) (b.stop - 1) = some b.inner.masked := by
  have hbrace : byteLength ['{'] = 1 := rfl
  refine slice?_eq_some.mpr ⟨front ++ ['{'], '}' :: behind, ?_, ?_, ?_⟩
  · rw [h.text_eq]
    simp
  · rw [h.opening_eq, byteLength_append, hbrace]
  · rw [h.stop_eq, byteLength_append, hbrace]
    omega

/-- The rows between the braces are on lines from the header through the closing brace. -/
theorem MaskedAt.line_bounds (h : b.MaskedAt t front behind) {n : Nat}
    (hn : b.openLine ≤ n ∧ n ≤ b.openLine + newlines b.inner) :
    b.startLine ≤ n ∧ n ≤ b.endLine := by
  have hopen : b.startLine ≤ b.openLine := Nat.le_add_right _ _
  have hend := h.endLine_eq
  rw [(blanked_masked b.inner).newlines_eq] at hend
  omega

/-- The counter along rows that close no more braces than are open gives what is open. -/
theorem foldl_depthAfter (ls : List Text)
    (h : ∀ k ≤ ls.length, (ls.take k).flatten.count '}' ≤ (ls.take k).flatten.count '{') :
    ls.foldl Field.depthAfter 0 + ls.flatten.count '}' = ls.flatten.count '{' := by
  induction ls using List.reverseRecOn with
  | nil => rfl
  | append_singleton ls l ih =>
    have hls := ih fun k hk => by
      have hle := h k (by rw [List.length_append]; omega)
      rwa [List.take_append_of_le_length hk] at hle
    have hwhole := h _ (Nat.le_refl _)
    rw [List.take_length, List.flatten_append, List.flatten_singleton, List.count_append,
      List.count_append] at hwhole
    rw [List.foldl_append, List.foldl_cons, List.foldl_nil, Field.depthAfter, List.flatten_append,
      List.flatten_singleton, List.count_append, List.count_append]
    omega

/-- The row stands in `inner` behind `i` line ends, and the counter says how many braces are open
in front of it. -/
structure RowIn (b : Body) (i : Nat) (row u v : Text) : Prop where
  text_eq : b.inner.masked = u ++ (row ++ v)
  newlines_eq : newlines u = i
  depth_eq : b.depthAt i + u.count '}' = u.count '{'

theorem MaskedAt.exists_rowIn (h : b.MaskedAt t front behind) {i : Nat} {row : Text}
    (hrow : (rows b.inner.masked)[i]? = some row) : ∃ u v, b.RowIn i row u v := by
  obtain ⟨u, v, hsplit, hnewlines, hcount⟩ := rows_split hrow
  have hlt := (List.getElem?_eq_some_iff.mp hrow).1
  refine ⟨u, v, hsplit, hnewlines, ?_⟩
  have hdepth := foldl_depthAfter ((rows b.inner.masked).take i) fun k hk => by
    rw [List.length_take] at hk
    have hk : k < (rows b.inner.masked).length ∧ k ≤ i := by omega
    obtain ⟨u', v', hsplit', -, hcount'⟩ := rows_split (List.getElem?_eq_getElem hk.1)
    rw [List.take_take, Nat.min_eq_left hk.2, hcount' '}' (by decide) (by decide),
      hcount' '{' (by decide) (by decide)]
    exact h.count_le hsplit'
  rwa [hcount '}' (by decide) (by decide), hcount '{' (by decide) (by decide)] at hdepth

/-- The counter never falls below zero: what a row closes is open. -/
theorem MaskedAt.closes_le (h : b.MaskedAt t front behind) {i : Nat} {row : Text}
    (hrow : (rows b.inner.masked)[i]? = some row) :
    row.count '}' ≤ b.depthAt i + row.count '{' := by
  obtain ⟨u, v, hin⟩ := h.exists_rowIn hrow
  have hle := h.count_le (u := u ++ row) (v := v) (by rw [hin.text_eq, List.append_assoc])
  have hdepth := hin.depth_eq
  rw [List.count_append, List.count_append] at hle
  omega

/-- A row between the braces is part of a line of the masked file. -/
theorem MaskedAt.exists_line {file : SourceFile} (h : b.MaskedAt file.text front behind) {i : Nat}
    {row : Text} (hrow : (rows b.inner.masked)[i]? = some row) :
    ∃ line, file.masked.line? (b.openLine + i) = some line ∧ dropReturns row <:+: line := by
  obtain ⟨l, hl, hreturns⟩ := exists_piece_of_row hrow
  have htext : file.text.masked = (front ++ ['{']) ++ (b.inner.masked ++ '}' :: behind) := by
    rw [h.text_eq]
    simp
  have hcount : newlines (front ++ ['{']) = newlines front := by
    simp [newlines, List.count_append]
  obtain ⟨line, hline, hpart⟩ := pieces_within hl (front ++ ['{']) (b := '}' :: behind) (by simp)
  rw [← htext, hcount] at hline
  refine ⟨dropReturns line, ?_, ?_⟩
  · rw [h.openLine_eq, Nat.add_right_comm]
    show ((pieces file.text.masked).map dropReturns)[newlines front + i]? = _
    rw [List.getElem?_map, hline, Option.map_some]
  · rw [← hreturns]
    exact dropReturns_of_infix hpart

end Body

/-! ## Fields -/

namespace Field

/-- Cutting a row behind its semicolons loses nothing. -/
theorem flatten_declarations (row : Text) : (declarations row).flatten = row := by
  induction row with
  | nil => rfl
  | cons c row ih =>
    rw [declarations]
    split_ifs with hc
    · rw [List.flatten_cons, ih, List.singleton_append]
    · split
      · next hnil =>
        rw [hnil] at ih
        rw [← ih]
        rfl
      · next d ds hcons =>
        rw [hcons, List.flatten_cons] at ih
        rw [List.flatten_cons, List.cons_append, ih]

theorem infix_of_mem_declarations {row d : Text} (h : d ∈ declarations row) : d <:+: row := by
  have hpart := List.infix_of_mem_flatten h
  rwa [flatten_declarations] at hpart

theorem parse_declaration {declaration : Text} {line : Nat} {f : Field}
    (h : parse declaration line = .ok (some f)) :
    f.declaration = declaration ∧ ∃ d, declaration = d ++ [';'] := by
  unfold parse at h
  split at h
  · next hlast =>
    refine ⟨?_, List.getLast?_eq_some_iff.mp hlast⟩
    dsimp only at h
    split at h
    · cases h
    · obtain ⟨⟨type, name⟩, -, h⟩ := bind_eq_ok.mp h
      dsimp only at h
      split at h
      · rw [pure_eq_ok, Option.some.injEq] at h
        rw [← h]
      · cases h
  · cases h

/-- A field's declaration is cut out of its row through a semicolon. -/
theorem ofRow_declaration {row : Text} {line : Nat} {fs : List Field} (h : ofRow row line = .ok fs)
    {f : Field} (hf : f ∈ fs) : f.declaration <:+: row ∧ ∃ d, f.declaration = d ++ [';'] := by
  obtain ⟨read, hread, hfs⟩ := bind_eq_ok.mp h
  rw [pure_eq_ok] at hfs
  subst hfs
  have hmem : some f ∈ read := by simpa using hf
  obtain ⟨d, hd, hparse⟩ := mem_of_mapM_eq_ok hread hmem
  obtain ⟨hdecl, hlast⟩ := parse_declaration hparse
  rw [hdecl]
  exact ⟨(infix_trim_self d).trans (infix_of_mem_declarations hd), hlast⟩

end Field

/-- The field is declared on row `i` between the braces of `b`, as part of a line of the masked
file, and the row stands outside all braces and holds none. -/
structure Body.FieldAt (b : Body) (file : SourceFile) (f : Field) (i : Nat) (row line : Text) :
    Prop where
  row_eq : (rows b.inner.masked)[i]? = some row
  fieldLine_eq : f.line = b.openLine + i
  line_eq : file.masked.line? f.line = some line
  part_of_line : dropReturns row <:+: line
  in_row : f.declaration <:+: row
  in_line : f.declaration <:+: line
  no_opening : '{' ∉ row
  no_closing : '}' ∉ row
  outside : ∃ u v, b.inner.masked = u ++ (row ++ v) ∧ newlines u = i ∧ u.count '{' = u.count '}'

theorem Body.MaskedAt.exists_fieldAt {b : Body} {file : SourceFile} {front behind : Text}
    (h : b.MaskedAt file.text front behind) {ms : Markers} {fs : List Field}
    (hfs : Field.all b.inner b.openLine ms = .ok fs) {f : Field} (hf : f ∈ fs) :
    ∃ i row line, b.FieldAt file f i row line := by
  obtain ⟨i, row, cls, here, hget, hreads, hhere, hfield⟩ := (Field.mem_ofRows_iff hfs).mp hf
  obtain ⟨hrow, -⟩ := List.getElem?_zip_eq_some.mp hget
  obtain ⟨line, hline, hpart⟩ := h.exists_line hrow
  obtain ⟨u, v, hin⟩ := h.exists_rowIn hrow
  have hfieldLine := Field.ofRow_line hhere f hfield
  obtain ⟨hinRow, d, hd⟩ := Field.ofRow_declaration hhere hfield
  have hdepth := hreads.outside
  rw [Body.depthBefore_eq_depthAt] at hdepth
  have hcount := hin.depth_eq
  refine ⟨i, row, line, hrow, hfieldLine, ?_, hpart, hinRow, ?_, hreads.no_opening,
    hreads.no_closing, u, v, hin.text_eq, hin.newlines_eq, ?_⟩
  · rw [hfieldLine]
    exact hline
  · rw [hd] at hinRow ⊢
    exact (infix_dropReturns (by decide) hinRow).trans hpart
  · omega

/-! ## Enumerators -/

namespace Enumerator

/-- The names that a row with its class gives. -/
def readOn (r : Text × LineClass) : List Text :=
  if r.2.isExecutable then namesOfRow r.1 else []

/-- Row `i` gives the name, and no row before it does. -/
def FirstOn (rows : List (Text × LineClass)) (n : Text) (i : Nat) : Prop :=
  (∃ r, rows[i]? = some r ∧ n ∈ readOn r) ∧ ∀ j r, j < i → rows[j]? = some r → n ∉ readOn r

section Rows

variable {r : Text × LineClass} {rows : List (Text × LineClass)} {n : Text} {i line : Nat}
  {values : List Enumerator} {v u : Enumerator}

theorem firstOn_zero : FirstOn (r :: rows) n 0 ↔ n ∈ readOn r := by
  simp [FirstOn]

theorem firstOn_succ : FirstOn (r :: rows) n (i + 1) ↔ n ∉ readOn r ∧ FirstOn rows n i := by
  constructor
  · rintro ⟨hget, hearlier⟩
    refine ⟨hearlier 0 r (Nat.succ_pos i) rfl, hget, fun j r' hj hr' => ?_⟩
    exact hearlier (j + 1) r' (Nat.succ_lt_succ hj) hr'
  · rintro ⟨hfirst, hget, hearlier⟩
    refine ⟨hget, fun j r' hj hr' => ?_⟩
    cases j with
    | zero =>
      obtain rfl := Option.some.inj hr'
      exact hfirst
    | succ j => exact hearlier j r' (Nat.lt_of_succ_lt_succ hj) hr'

theorem mem_insert_iff :
    v ∈ insert values u ↔ v ∈ values ∨ (∀ w ∈ values, w.name ≠ u.name) ∧ v = u := by
  have hknown : values.any (·.name == u.name) = true ↔ ¬ ∀ w ∈ values, w.name ≠ u.name := by
    simp
  unfold insert
  split_ifs with h
  · simp [hknown.mp h]
  · rw [hknown, not_not] at h
    rw [List.mem_append, List.mem_singleton, and_iff_right h]

/-- The names of one row, put in with their line: a name that is known stays on its line. -/
theorem mem_foldl_insert_iff {names : List Text} :
    v ∈ names.foldl (fun vs name => insert vs ⟨name, line⟩) values ↔
      v ∈ values ∨ (∀ w ∈ values, w.name ≠ v.name) ∧ v.name ∈ names ∧ v.line = line := by
  induction names generalizing values with
  | nil => simp
  | cons name names ih =>
    have hfresh : (∀ w ∈ insert values ⟨name, line⟩, w.name ≠ v.name) ↔
        (∀ w ∈ values, w.name ≠ v.name) ∧ name ≠ v.name := by
      have hname := exists_name_insert values ⟨name, line⟩ v.name
      rw [← not_iff_not] at hname
      simpa using hname
    rw [List.foldl_cons, ih, mem_insert_iff, hfresh]
    constructor
    · intro hv
      obtain (hv | ⟨hnew, rfl⟩) | ⟨⟨hnew, -⟩, hmem, hline⟩ := hv
      · exact Or.inl hv
      · exact Or.inr ⟨hnew, List.mem_cons_self, rfl⟩
      · exact Or.inr ⟨hnew, List.mem_cons_of_mem name hmem, hline⟩
    · intro hv
      obtain hv | ⟨hnew, hmem, hline⟩ := hv
      · exact Or.inl (Or.inl hv)
      · by_cases hname : name = v.name
        · subst hname
          exact Or.inl (Or.inr ⟨hnew, by rw [← hline]⟩)
        · have hrest := (List.mem_cons.mp hmem).resolve_left (Ne.symm hname)
          exact Or.inr ⟨⟨hnew, hname⟩, hrest, hline⟩

/-- **A name is kept with the first row that gives it.** -/
theorem mem_ofRows_iff :
    v ∈ ofRows line values rows ↔ v ∈ values ∨
      (∀ w ∈ values, w.name ≠ v.name) ∧ ∃ i, v.line = line + i ∧ FirstOn rows v.name i := by
  induction rows generalizing line values with
  | nil => simp [ofRows, FirstOn]
  | cons r rest ih =>
    have hnone : (∀ w ∈ (readOn r).foldl (fun vs name => insert vs ⟨name, line⟩) values,
        w.name ≠ v.name) ↔ (∀ w ∈ values, w.name ≠ v.name) ∧ v.name ∉ readOn r := by
      have hname := exists_name_foldl line (readOn r) values v.name
      rw [← not_iff_not] at hname
      simpa using hname
    show v ∈ ofRows (line + 1) ((readOn r).foldl (fun vs name => insert vs ⟨name, line⟩) values)
      rest ↔ _
    rw [ih, hnone, mem_foldl_insert_iff]
    constructor
    · intro hv
      obtain (hv | ⟨hnew, hmem, hline⟩) | ⟨⟨hnew, hfirst⟩, i, hline, hon⟩ := hv
      · exact Or.inl hv
      · exact Or.inr ⟨hnew, 0, hline, firstOn_zero.mpr hmem⟩
      · exact Or.inr ⟨hnew, i + 1, by omega, firstOn_succ.mpr ⟨hfirst, hon⟩⟩
    · intro hv
      obtain hv | ⟨hnew, i, hline, hon⟩ := hv
      · exact Or.inl (Or.inl hv)
      · cases i with
        | zero => exact Or.inl (Or.inr ⟨hnew, firstOn_zero.mp hon, hline⟩)
        | succ i =>
          obtain ⟨hfirst, hon⟩ := firstOn_succ.mp hon
          exact Or.inr ⟨⟨hnew, hfirst⟩, i, by omega, hon⟩

/-- The names are distinct, and the lines do not decrease and end before `line`. -/
structure InOrder (values : List Enumerator) (line : Nat) : Prop where
  pairwise : values.Pairwise fun v w => v.name ≠ w.name ∧ v.line ≤ w.line
  le_line : ∀ v ∈ values, v.line ≤ line

theorem InOrder.insert (h : InOrder values line) (name : Text) :
    InOrder (insert values ⟨name, line⟩) line := by
  unfold Enumerator.insert
  split_ifs with hknown
  · exact h
  · simp only [List.any_eq_true, beq_iff_eq, not_exists, not_and] at hknown
    refine ⟨List.pairwise_append.mpr ⟨h.pairwise, List.pairwise_singleton _ _, ?_⟩, ?_⟩
    · intro v hv w hw
      obtain rfl := List.mem_singleton.mp hw
      exact ⟨hknown v hv, h.le_line v hv⟩
    · intro v hv
      obtain hv | hv := List.mem_append.mp hv
      · exact h.le_line v hv
      · rw [List.mem_singleton.mp hv]

theorem InOrder.foldl (h : InOrder values line) (names : List Text) :
    InOrder (names.foldl (fun vs name => Enumerator.insert vs ⟨name, line⟩) values) line := by
  induction names generalizing values with
  | nil => exact h
  | cons name names ih => exact ih (h.insert name)

theorem InOrder.ofRows (h : InOrder values line) (rows : List (Text × LineClass)) :
    (ofRows line values rows).Pairwise fun v w => v.name ≠ w.name ∧ v.line ≤ w.line := by
  induction rows generalizing line values with
  | nil => exact h.pairwise
  | cons r rest ih =>
    have hrow := h.foldl (readOn r)
    apply ih
    exact ⟨hrow.pairwise, fun v hv => Nat.le_succ_of_le (hrow.le_line v hv)⟩

end Rows

/-- A name that a row gives is part of the row and ends in a character of identifiers. -/
theorem infix_of_mem_namesOfRow {row n : Text} (h : n ∈ namesOfRow row) :
    n <:+: row ∧ ∃ n' c, n = n' ++ [c] ∧ isIdentChar c = true := by
  obtain ⟨hitem, hident⟩ := List.mem_filter.mp h
  obtain ⟨item, hmem, rfl⟩ := List.mem_map.mp hitem
  obtain ⟨piece, hpiece, rfl⟩ := List.mem_map.mp hmem
  obtain ⟨k, hk⟩ := List.mem_iff_getElem?.mp hpiece
  obtain ⟨-, -, -, u, v, -, -, hrow, -⟩ := (topLevelPieces_getElem?_iff (Blanked.refl row)).mp hk
  have hpart : piece <:+: row := ⟨u, v, by rw [hrow, List.append_assoc]⟩
  refine ⟨?_, ?_⟩
  · have hname := infix_trim_self ((trim piece).takeWhile (· != '='))
    have hitem := (List.takeWhile_prefix (· != '=') (l := trim piece)).isInfix
    exact ((hname.trans hitem).trans (infix_trim_self piece)).trans hpart
  · obtain hnil | ⟨n', c, hn⟩ := List.eq_nil_or_concat (trim ((trim piece).takeWhile (· != '=')))
    · rw [hnil] at hident
      cases hident
    · rw [List.concat_eq_append] at hn
      refine ⟨n', c, hn, ?_⟩
      rw [hn] at hident
      exact isIdentChar_of_isIdentifier hident (by simp)

end Enumerator

/-- The enumerator has the line of row `i` between the braces of `b`, the first executable row that
gives its name, and the name stands on that line of the masked file. -/
structure Body.EnumeratorAt (b : Body) (file : SourceFile) (ms : Markers) (v : Enumerator) (i : Nat)
    (line : Text) : Prop where
  enumeratorLine_eq : v.line = b.openLine + i
  first : Enumerator.FirstOn
    ((rows b.inner.masked).zip (ms.classifyLines (rows b.inner))) v.name i
  line_eq : file.masked.line? v.line = some line
  in_line : v.name <:+: line

theorem Body.MaskedAt.mem_enumerators_iff {b : Body} {file : SourceFile} {front behind : Text}
    (h : b.MaskedAt file.text front behind) (ms : Markers) (v : Enumerator) :
    v ∈ Enumerator.all b.inner b.openLine ms ↔ ∃ i line, b.EnumeratorAt file ms v i line := by
  rw [Enumerator.all, Enumerator.mem_ofRows_iff]
  constructor
  · intro hv
    obtain ⟨-, i, hvline, hfirst⟩ := hv.resolve_left (by simp)
    obtain ⟨r, hr, hname⟩ := hfirst.1
    rw [Enumerator.readOn] at hname
    split_ifs at hname with hcls
    · obtain ⟨hrow, -⟩ := List.getElem?_zip_eq_some.mp hr
      obtain ⟨line, hline, hpart⟩ := h.exists_line hrow
      obtain ⟨hinRow, n, c, hn, hc⟩ := Enumerator.infix_of_mem_namesOfRow hname
      have hreturn : c ≠ '\r' := fun hreturn => by
        rw [hreturn] at hc
        cases hc
      rw [hn] at hinRow
      refine ⟨i, line, hvline, hfirst, hvline ▸ hline, ?_⟩
      rw [hn]
      exact (infix_dropReturns hreturn hinRow).trans hpart
    · cases hname
  · rintro ⟨i, line, hat⟩
    exact Or.inr ⟨by simp, i, hat.enumeratorLine_eq, hat.first⟩

/-! ## Members of structs and enums -/

theorem StructDef.find?_eq_ok_some {file : SourceFile} {name : String} {ms : Markers}
    {d : StructDef} (h : find? file name ms = .ok (some d)) :
    ∃ b fields, Aggregate.struct.body? file.text name = some b ∧
      Field.all b.inner b.openLine ms = .ok fields ∧
      d = ⟨name, b.startLine, b.endLine, b.text, fields⟩ := by
  unfold find? at h
  split at h
  · cases h
  · next b hb =>
    obtain ⟨fields, hfields, h⟩ := bind_eq_ok.mp h
    rw [pure_eq_ok, Option.some.injEq] at h
    exact ⟨b, fields, hb, hfields, h.symm⟩

/-- **Members are read from the text and the lines where they stand.** What is between the braces
of a body is masked on its own as it is in the file, and the depth that is counted along it never
falls below zero. A field stands on its line of the masked file, in a row outside all braces of the
body. An enumerator stands on its line, the first executable one that gives its name; no name is
kept twice, and the lines do not decrease. -/
theorem Aggregate.members_stand_on_lines (file : SourceFile) (name : String) (ms : Markers) :
    (∀ (header : Regex) (b : Body),
      firstBody? file.text header = some b ∨ b ∈ bodies file.text header →
        slice? file.text.masked (b.opening + 1) (b.stop - 1) = some b.inner.masked ∧
        ∀ i row, (rows b.inner.masked)[i]? = some row →
          row.count '}' ≤ b.depthAt i + row.count '{') ∧
    (∀ d : StructDef, StructDef.find? file name ms = .ok (some d) →
      ∃ b, Aggregate.struct.body? file.text name = some b ∧
        ∀ f ∈ d.fields, d.startLine ≤ f.line ∧ f.line ≤ d.endLine ∧
          ∃ i row line, b.FieldAt file f i row line) ∧
    (∀ d : EnumDef, EnumDef.find? file name ms = some d →
      (d.values.map (·.name)).Nodup ∧ (d.values.map (·.line)).Pairwise (· ≤ ·) ∧
      ∃ b, Aggregate.enum.body? file.text name = some b ∧
        (∀ v ∈ d.values, d.startLine ≤ v.line ∧ v.line ≤ d.endLine) ∧
        ∀ v, v ∈ d.values ↔ ∃ i line, b.EnumeratorAt file ms v i line) := by
  refine ⟨?_, ?_, ?_⟩
  · intro header b hb
    have hstart : ∃ start, bodyAt? file.text file.text.masked start = some b := by
      obtain hb | hb := hb
      · exact exists_bodyAt?_of_firstBody? hb
      · exact exists_bodyAt?_of_mem_bodiesFrom hb
    obtain ⟨start, hstart⟩ := hstart
    obtain ⟨front, behind, hmasked⟩ := (bodyAt?_eq_some_iff.mp hstart).exists_maskedAt
    exact ⟨hmasked.slice?_eq, fun i row hrow => hmasked.closes_le hrow⟩
  · intro d hd
    obtain ⟨b, fields, hb, hfields, rfl⟩ := StructDef.find?_eq_ok_some hd
    obtain ⟨start, hstart⟩ := Aggregate.exists_bodyAt? hb
    obtain ⟨front, behind, hmasked⟩ := (bodyAt?_eq_some_iff.mp hstart).exists_maskedAt
    refine ⟨b, hb, fun f hf => ?_⟩
    have hline := hmasked.line_bounds (Field.all_line hfields f hf)
    exact ⟨hline.1, hline.2, hmasked.exists_fieldAt hfields hf⟩
  · intro d hd
    obtain ⟨b, hb, rfl⟩ := Option.map_eq_some_iff.mp hd
    obtain ⟨start, hstart⟩ := Aggregate.exists_bodyAt? hb
    obtain ⟨front, behind, hmasked⟩ := (bodyAt?_eq_some_iff.mp hstart).exists_maskedAt
    have horder : (Enumerator.all b.inner b.openLine ms).Pairwise
        fun v w => v.name ≠ w.name ∧ v.line ≤ w.line :=
      Enumerator.InOrder.ofRows ⟨.nil, by simp⟩ _
    refine ⟨List.pairwise_map.mpr (horder.imp And.left),
      List.pairwise_map.mpr (horder.imp And.right), b, hb, ?_, hmasked.mem_enumerators_iff ms⟩
    intro v hv
    exact hmasked.line_bounds (Enumerator.all_line _ _ _ v hv)

/-- The members of the inner struct are left out, and the brace in the comment closes nothing. The
enumerator that stands on two lines keeps the first. -/
theorem Aggregate.members_beside_nested_struct :
    ∃ (file : SourceFile) (b : Body) (s : StructDef) (e : EnumDef),
      firstBody? file.text (Aggregate.struct.taggedHeader "S") = some b ∧
        slice? file.text.masked (b.opening + 1) (b.stop - 1) = some b.inner.masked ∧
        StructDef.find? file "S" Markers.standard = .ok (some s) ∧
        s.fields.map (·.name) = ["x".toList, "y".toList] ∧
        (∀ f ∈ s.fields, s.startLine ≤ f.line ∧ f.line ≤ s.endLine ∧
          ∃ i row line, b.FieldAt file f i row line) ∧
        EnumDef.find? file "E" Markers.standard = some e ∧
        (e.values.map (·.name)).Nodup ∧ (e.values.map (·.line)).Pairwise (· ≤ ·) ∧
        ⟨"A".toList, 5⟩ ∈ e.values ∧ ⟨"A".toList, 6⟩ ∉ e.values := by
  let ms := Markers.standard
  let file : SourceFile :=
    ⟨"a.h", ("struct S \x7b\n  struct \x7b int a; \x7d in;\n  int x; int y[2]; // \x7d\n\x7d;\n" ++
      "enum E \x7b A, B = '\x7b',\n  A, C \x7d;\n").toList⟩
  let b : Body := ⟨0, 9, 60, 1,
    "struct S \x7b\n  struct \x7b int a; \x7d in;\n  int x; int y[2]; // \x7d\n\x7d".toList⟩
  have hfirst : firstBody? file.text (Aggregate.struct.taggedHeader "S") = some b := by
    decide +kernel
  have hb : Aggregate.struct.body? file.text "S" = some b := by
    rw [Aggregate.body?, hfirst, Option.some_or]
  let fields : List Field := [⟨"int".toList, "x".toList, none, "int x;".toList, 3⟩,
    ⟨"int".toList, "y".toList, some "[2]".toList, "int y[2];".toList, 3⟩]
  have hfields : (Field.all b.inner b.openLine ms).toOption = some fields := by decide +kernel
  have hs : StructDef.find? file "S" ms =
      .ok (some ⟨"S", b.startLine, b.endLine, b.text, fields⟩) := by
    rw [StructDef.find?, hb]
    show (Field.all b.inner b.openLine ms >>= _) = _
    rw [ok_of_toOption hfields]
    rfl
  have he : (EnumDef.find? file "E" ms).map (·.values) = some
      [⟨"A".toList, 5⟩, ⟨"B".toList, 5⟩, ⟨"C".toList, 6⟩] := by
    decide +kernel
  obtain ⟨e, he, hvalues⟩ := Option.map_eq_some_iff.mp he
  obtain ⟨hbodies, hstruct, -⟩ := Aggregate.members_stand_on_lines file "S" ms
  obtain ⟨-, -, henum⟩ := Aggregate.members_stand_on_lines file "E" ms
  obtain ⟨b', hb', hread⟩ := hstruct _ hs
  obtain rfl := Option.some.inj (hb.symm.trans hb')
  obtain ⟨hnodup, horder, -⟩ := henum e he
  refine ⟨file, b, _, e, hfirst, (hbodies _ b (Or.inl hfirst)).1, hs, rfl, hread, he, hnodup,
    horder, ?_, ?_⟩
  · rw [hvalues]
    decide
  · rw [hvalues]
    decide

end StructuralRules
