import StructuralRules.Proofs.Source.Arguments
import StructuralRules.Proofs.Source.Shapes

/-!
# Call sites

The header of a call reads a name, blanks and a parenthesis, and it starts at a
word boundary. No second header starts inside of what one reads: behind the first
character of the name there is no boundary in front of a name. So the search
finds every header, and what is kept of them is told by the list behind the
header, by what follows the list, by what stands before the name on its line and
by the class of that line.
-/

set_option autoImplicit false

namespace StructuralRules

open Text

namespace Call

/-! ## Headers of calls -/

/-- The masked text is cut in front of a name, behind it and behind a parenthesis; the name
starts at a word boundary, and nothing but blanks stands before the parenthesis. -/
structure HeaderAt (masked name before blanks rest : Text) : Prop where
  text_eq : masked = before ++ (name ++ (blanks ++ '(' :: rest))
  boundary : before.getLast?.any Unicode.isWord = false
  blank : ∀ c ∈ blanks, isBlank c = true

theorem isWord_of_isIdentChar {c : Char} (h : isIdentChar c = true) : Unicode.isWord c = true := by
  have hascii : c.toNat < 128 := by
    have hrange := toNat_of_isIdentChar h
    omega
  rw [Unicode.isWord, if_pos hascii]
  exact h

/-- At a word boundary an identifier has no word character before it. -/
theorem boundary_iff {name : Text} (hname : isIdentifier name = true) (before : Option Char)
    (rest : Text) :
    (Anchor.word .boundary true).holds before (name ++ rest).head? = true ↔
      before.any Unicode.isWord = false := by
  cases name with
  | nil => cases hname
  | cons c name =>
    have hword := isWord_of_isIdentChar (isIdentChar_of_isIdentifier hname List.mem_cons_self)
    show (before.any Unicode.isWord != Unicode.isWord c) = true ↔ _
    rw [hword]
    cases before.any Unicode.isWord <;> decide

theorem header_reads {name : String} (hname : isIdentifier name.toList = true)
    {before : Option Char} {u rest : Text} :
    Regex.Reads (header name) before u rest ↔ before.any Unicode.isWord = false ∧
      ∃ blanks, u = name.toList ++ (blanks ++ ['(']) ∧ ∀ c ∈ blanks, isBlank c = true := by
  show Regex.Reads (.cat (.anchor (.word .boundary true)) (.cat (.literal name.toList)
    (.cat (.star true (.set .space)) (.char '(')))) before u rest ↔ _
  rw [Regex.reads_cat]
  constructor
  · rintro ⟨v, w, hu, hanchor, hw⟩
    obtain ⟨rfl, hholds⟩ := Regex.reads_anchor.mp hanchor
    obtain ⟨x, y, rfl, hliteral, hy⟩ := Regex.reads_cat.mp hw
    obtain ⟨blanks, z, rfl, hblanks, hparen⟩ := Regex.reads_cat.mp hy
    obtain rfl := Regex.reads_literal.mp hliteral
    obtain rfl := Regex.reads_char.mp hparen
    rw [List.append_assoc] at hholds
    exact ⟨(boundary_iff hname _ _).mp hholds, blanks, hu, Regex.reads_star_set.mp hblanks⟩
  · rintro ⟨hboundary, blanks, hu, hblank⟩
    refine ⟨[], u, rfl, Regex.reads_anchor.mpr ⟨rfl, ?_⟩, Regex.reads_cat.mpr
      ⟨name.toList, blanks ++ ['('], hu, Regex.reads_literal.mpr rfl, Regex.reads_cat.mpr
        ⟨blanks, ['('], rfl, Regex.reads_star_set.mpr hblank, Regex.reads_char.mpr rfl⟩⟩⟩
    rw [hu, List.append_assoc]
    exact (boundary_iff hname _ _).mpr hboundary

theorem append_cons_inj {u v x y : Text} {c : Char} (hu : c ∉ u) (hv : c ∉ v)
    (h : u ++ c :: x = v ++ c :: y) : u = v ∧ x = y := by
  induction u generalizing v with
  | nil =>
    cases v with
    | nil => exact ⟨rfl, (List.cons.inj h).2⟩
    | cons d v => exact absurd (by rw [(List.cons.inj h).1]; exact List.mem_cons_self) hv
  | cons d u ih =>
    cases v with
    | nil => exact absurd (by rw [(List.cons.inj h).1]; exact List.mem_cons_self) hu
    | cons e v =>
      obtain ⟨rfl, hrest⟩ := List.cons.inj h
      obtain ⟨rfl, hx⟩ := ih (fun h => hu (List.mem_cons_of_mem d h))
        (fun h => hv (List.mem_cons_of_mem d h)) hrest
      exact ⟨rfl, hx⟩

namespace HeaderAt

variable {masked name before blanks rest before' blanks' rest' : Text}

theorem paren_not_mem (h : HeaderAt masked name before blanks rest) : '(' ∉ blanks := by
  intro hmem
  have hblank := h.blank _ hmem
  cases hblank

/-- Two headers that start at the same place are the same. -/
theorem unique (h : HeaderAt masked name before blanks rest)
    (h' : HeaderAt masked name before' blanks' rest')
    (hlen : byteLength before = byteLength before') :
    before = before' ∧ blanks = blanks' ∧ rest = rest' := by
  obtain ⟨rfl, hsame⟩ := append_inj_of_byteLength (h.text_eq.symm.trans h'.text_eq) hlen
  obtain ⟨rfl, rfl⟩ := append_cons_inj h.paren_not_mem h'.paren_not_mem
    (List.append_cancel_left hsame)
  exact ⟨rfl, rfl, rfl⟩

/-- No header starts inside another one. -/
theorem not_inside (hname : isIdentifier name = true) (h : HeaderAt masked name before blanks rest)
    (h' : HeaderAt masked name before' blanks' rest')
    (hlt : byteLength before < byteLength before') :
    byteLength before + byteLength (name ++ (blanks ++ ['('])) ≤ byteLength before' := by
  have hident : ∀ c ∈ name, isIdentChar c = true := fun c => isIdentChar_of_isIdentifier hname
  have hsame := h.text_eq.symm.trans h'.text_eq
  obtain ⟨x, rfl, hx⟩ := exists_append_of_byteLength_le hsame (Nat.le_of_lt hlt)
  have hne : x ≠ [] := by
    intro hnil
    rw [hnil, List.append_nil] at hlt
    exact Nat.lt_irrefl _ hlt
  by_contra hinside
  have hcut : name ++ (blanks ++ '(' :: rest) = (name ++ (blanks ++ ['('])) ++ rest := by simp
  rw [hcut] at hx
  obtain ⟨y, hy, hrest⟩ := exists_append_of_byteLength_le hx.symm (by
    rw [byteLength_append before x] at hinside
    omega)
  -- The name of the second header starts with a character of the first header behind `x`.
  obtain ⟨d, y, rfl⟩ : ∃ d z, y = d :: z := by
    apply List.exists_cons_of_ne_nil
    intro hnil
    rw [hy, hnil, List.append_nil, byteLength_append] at hinside
    omega
  have hd : isIdentChar d = true := by
    cases name with
    | nil => cases hname
    | cons c name =>
      obtain rfl : c = d := (List.cons.inj hrest).1
      exact hident c List.mem_cons_self
  obtain ⟨a, hxa, ha⟩ | ⟨a, hna, -⟩ := List.append_eq_append_iff.mp hy
  · -- It is a blank or the parenthesis.
    have hmem : d ∈ blanks ++ ['('] := by
      rw [ha]
      exact List.mem_append_right a List.mem_cons_self
    obtain hmem | hmem := List.mem_append.mp hmem
    · rw [isIdentChar_of_isBlank (h.blank d hmem)] at hd
      cases hd
    · rw [List.mem_singleton.mp hmem] at hd
      cases hd
  · -- It stands in the name, behind a word character.
    obtain ⟨z, e, rfl⟩ := List.eq_nil_or_concat x |>.resolve_left hne
    have hboundary := h'.boundary
    rw [List.concat_eq_append, ← List.append_assoc, List.getLast?_concat] at hboundary
    have hword := isWord_of_isIdentChar (hident e (by rw [hna]; simp))
    rw [Option.any_some, hword] at hboundary
    cases hboundary

end HeaderAt

/-- **The search finds the headers of calls.** -/
theorem mem_header_spans_iff {name : String} (hname : isIdentifier name.toList = true)
    {masked : Text} {s : Span} :
    s ∈ (header name).spans masked ↔ ∃ before blanks rest,
      HeaderAt masked name.toList before blanks rest ∧
        s = ⟨byteLength before, byteLength (before ++ (name.toList ++ blanks)) + 1⟩ := by
  have hstop : ∀ before blanks : Text,
      byteLength before + byteLength (name.toList ++ (blanks ++ ['('])) =
        byteLength (before ++ (name.toList ++ blanks)) + 1 := by
    intro before blanks
    have hparen : byteLength ['('] = 1 := rfl
    simp only [byteLength_append, hparen]
    omega
  have hfound : ∀ {s : Span}, s ∈ (header name).spans masked → ∃ before blanks rest,
      HeaderAt masked name.toList before blanks rest ∧
        s = ⟨byteLength before, byteLength (before ++ (name.toList ++ blanks)) + 1⟩ := by
    intro s hs
    obtain ⟨before, u, rest, hdelimits, hreads⟩ := Regex.spans_reads hs
    obtain ⟨hboundary, blanks, rfl, hblank⟩ := (header_reads hname).mp hreads
    refine ⟨before, blanks, rest, ⟨?_, hboundary, hblank⟩, ?_⟩
    · rw [hdelimits.text_eq]
      simp
    · rw [← hstop, ← hdelimits.stop_eq, ← hdelimits.start_eq]
  constructor
  · exact hfound
  · rintro ⟨before, blanks, rest, h, hs⟩
    have hreads : Regex.Reads (header name) before.getLast?
        (name.toList ++ (blanks ++ ['('])) rest :=
      (header_reads hname).mpr ⟨h.boundary, blanks, rfl, h.blank⟩
    obtain ⟨s', hs', hplace⟩ := Regex.exists_mem_spans hreads (by
      intro before rest hnil
      obtain ⟨-, blanks, hnil, -⟩ := (header_reads hname).mp hnil
      simp at hnil)
    have htext : before ++ ((name.toList ++ (blanks ++ ['('])) ++ rest) = masked := by
      rw [h.text_eq]
      simp
    rw [htext] at hs'
    obtain ⟨before', blanks', rest', h', rfl⟩ := hfound hs'
    obtain hstart | ⟨hstart, hcovered⟩ := hplace
    · obtain ⟨rfl, rfl, -⟩ := h'.unique h hstart
      rw [hs]
      exact hs'
    · have houtside := h'.not_inside hname h hstart
      rw [hstop] at houtside
      exact absurd hcovered (Nat.not_lt.mpr houtside)

/-! ## What makes a header a call -/

/-- The last line of what stands before an offset is what stands before it on its line. -/
theorem lineHead_eq_of_ended {ls : List Text} {head rest : Text} (hhead : '\n' ∉ head) :
    lineHead ((ended ls ++ head) ++ rest) (byteLength (ended ls ++ head)) = head := by
  have hfree : ∀ c ∈ head.reverse, (c != '\n') = true := by
    intro c hc
    rw [bne_iff_ne]
    intro hnewline
    exact hhead (hnewline ▸ List.mem_reverse.mp hc)
  have hbefore : (ended ls).reverse.takeWhile (· != '\n') = [] := by
    obtain rfl | ⟨ls, l, rfl⟩ := List.eq_nil_or_concat ls
    · rfl
    · simp [ended]
  rw [lineHead, take?_append, Option.getD_some, List.reverse_append,
    List.takeWhile_append_of_pos hfree, hbefore, List.append_nil, List.reverse_reverse]

/-- The list behind the parenthesis of a header is closed, no body follows it, what stands before
the name is no declaration, and the line is executable. -/
structure Passes (file : SourceFile) (masked : Text) (classes : List LineClass) (before list
    behind rest : Text) (cls : LineClass) : Prop where
  rest_eq : rest = list ++ ')' :: behind
  enclosed : Enclosed '(' ')' ('(' :: (list ++ [')']))
  no_body : (trimStart behind).head? ≠ some '{'
  no_declaration : isDeclaration (lineHead masked (byteLength before)) = false
  class_eq : (classes[file.lineOfOffset (byteLength before) - 1]?).getD .code = cls
  executable : cls.isExecutable = true

theorem HeaderAt.exists_atSpan?_iff {file : SourceFile} {masked before blanks rest : Text}
    {classes : List LineClass} {name : String}
    (h : HeaderAt masked name.toList before blanks rest) :
    (∃ call, atSpan? file masked classes name
      ⟨byteLength before, byteLength (before ++ (name.toList ++ blanks)) + 1⟩ = some call) ↔
      ∃ list behind cls, Passes file masked classes before list behind rest cls := by
  have htext : masked = (before ++ (name.toList ++ blanks)) ++ '(' :: rest := by
    rw [h.text_eq]
    simp
  have hdrop : drop? masked (byteLength (before ++ (name.toList ++ blanks)) + 1 - 1) =
      some ('(' :: rest) := by
    rw [Nat.add_sub_cancel, htext, drop?_append]
  -- What follows the list, where the counter stops.
  have hbehind : ∀ {list behind : Text}, rest = list ++ ')' :: behind →
      drop? masked (byteLength (before ++ (name.toList ++ blanks)) +
        byteLength ('(' :: (list ++ [')']))) = some behind := by
    intro list behind hrest
    have hsplit : masked =
        ((before ++ (name.toList ++ blanks)) ++ '(' :: (list ++ [')'])) ++ behind := by
      rw [htext, hrest]
      simp
    rw [← byteLength_append, hsplit, drop?_append]
  constructor
  · rintro ⟨call, hcall⟩
    unfold atSpan? at hcall
    obtain ⟨l, hl, hcall⟩ := Option.bind_eq_some_iff.mp hcall
    obtain rfl := Option.some.inj (hdrop.symm.trans hl)
    obtain ⟨stop, hstop, hcall⟩ := Option.bind_eq_some_iff.mp hcall
    obtain ⟨w, behind, hw, hend, henclosed⟩ := (closeFrom_opener_eq_some_iff (by decide)).mp hstop
    obtain ⟨list, rfl⟩ := henclosed.exists_inner (by decide)
    have hrest : rest = list ++ ')' :: behind := by
      have htail := (List.cons.inj hw).2
      rw [htail]
      simp
    rw [Nat.add_sub_cancel] at hend
    dsimp only at hcall
    rw [hend, hbehind hrest, Option.getD_some] at hcall
    split at hcall
    · cases hcall
    · next hbody =>
      split at hcall
      · cases hcall
      · next hdeclaration =>
        split at hcall
        · cases hcall
        · next hexecutable =>
          refine ⟨list, behind, _, hrest, henclosed, ?_, ?_, rfl, ?_⟩
          · simpa using hbody
          · simpa using hdeclaration
          · simpa using hexecutable
  · rintro ⟨list, behind, cls, hpasses⟩
    have hclose : closeFrom '(' ')' 0 (byteLength (before ++ (name.toList ++ blanks)) + 1 - 1)
        ('(' :: rest) = some (byteLength (before ++ (name.toList ++ blanks)) +
          byteLength ('(' :: (list ++ [')']))) := by
      apply (closeFrom_opener_eq_some_iff (by decide)).mpr
      refine ⟨_, behind, ?_, ?_, hpasses.enclosed⟩
      · rw [hpasses.rest_eq]
        simp
      · rw [Nat.add_sub_cancel]
    simp only [atSpan?, hdrop, hclose, Option.bind_eq_bind, Option.bind_some,
      hbehind hpasses.rest_eq, Option.getD_some, beq_iff_eq, hpasses.no_body,
      hpasses.no_declaration, hpasses.class_eq, hpasses.executable]
    exact ⟨_, rfl⟩

end Call

/-! ## Names in the file itself -/

theorem Text.Blanked.exists_front {w mr t : Text} (h : Blanked (w ++ mr) t) (hw : ' ' ∉ w) :
    ∃ r, t = w ++ r ∧ Blanked mr r := by
  induction w generalizing t with
  | nil => exact ⟨t, rfl, h⟩
  | cons c w ih =>
    have hc : c ≠ ' ' := fun hc => hw (by rw [hc]; exact List.mem_cons_self)
    have hcut : Blanked ([] ++ c :: (w ++ mr)) t := h
    obtain ⟨p, t', rfl, hp, hrest⟩ := hcut.split_at hc
    obtain rfl := hp.eq_nil
    obtain ⟨r, rfl, hr⟩ := ih hrest fun hmem => hw (List.mem_cons_of_mem c hmem)
    exact ⟨r, rfl, hr⟩

/-- A word without spaces that masking shows stands in the text. -/
theorem Text.Blanked.exists_word {mp w mr t : Text} (h : Blanked (mp ++ (w ++ mr)) t)
    (hne : w ≠ []) (hw : ' ' ∉ w) : ∃ p r, t = p ++ (w ++ r) ∧ Blanked mp p := by
  obtain ⟨c, w, rfl⟩ := List.exists_cons_of_ne_nil hne
  have hc : c ≠ ' ' := fun hc => hw (by rw [hc]; exact List.mem_cons_self)
  have hcut : Blanked (mp ++ c :: (w ++ mr)) t := h
  obtain ⟨p, t', rfl, hp, hrest⟩ := hcut.split_at hc
  obtain ⟨r, rfl, -⟩ := hrest.exists_front fun hmem => hw (List.mem_cons_of_mem c hmem)
  exact ⟨p, r, rfl, hp⟩

namespace Call

variable {file : SourceFile} {ms : Markers} {name : String}

/-- The name stands at byte `offset` of the masked text, at a word boundary, before blanks and a
parenthesis that is closed. No opening brace follows the closing parenthesis, what stands before
the name on its line does not read as a declaration, and the line is code, excused or not. -/
structure SiteAt (file : SourceFile) (ms : Markers) (name : Text) (offset : Nat)
    (earlier : List Text) (head blanks list behind : Text) : Prop where
  text_eq : file.text.masked =
    (ended earlier ++ head) ++ (name ++ (blanks ++ '(' :: (list ++ ')' :: behind)))
  offset_eq : offset = byteLength (ended earlier ++ head)
  boundary : (ended earlier ++ head).getLast?.any Unicode.isWord = false
  blank : ∀ c ∈ blanks, isBlank c = true
  enclosed : Enclosed '(' ')' ('(' :: (list ++ [')']))
  no_body : (trimStart behind).head? ≠ some '{'
  earlier_lines : ∀ l ∈ earlier, '\n' ∉ l
  head_line : '\n' ∉ head
  no_declaration : isDeclaration head = false
  line_class : (file.classes ms)[earlier.length]? = some .code ∨
    (file.classes ms)[earlier.length]? = some .exceptionMarked

/-- The line of a header is told by the line feeds before it, and it has a class. -/
theorem HeaderAt.exists_class {n before blanks rest : Text}
    (h : HeaderAt file.text.masked n before blanks rest) (hn : n ≠ []) (ms : Markers) :
    file.lineOfOffset (byteLength before) = newlines before + 1 ∧
      ∃ cls, (file.classes ms)[newlines before]? = some cls := by
  obtain ⟨c, n, rfl⟩ := List.exists_cons_of_ne_nil hn
  have htext : file.masked.text = before ++ c :: (n ++ (blanks ++ '(' :: rest)) := h.text_eq
  constructor
  · have hline := SourceFile.lineOfOffset_byteLength htext
    rwa [SourceFile.lineOfOffset, file.lineStarts_masked] at hline
  · have hlt := newlines_lt_length_pieces before c (n ++ (blanks ++ '(' :: rest))
    rw [← htext, show file.masked.text = file.text.masked from rfl,
      (blanked_masked file.text).pieces.length_eq] at hlt
    have hclasses : (file.classes ms).length = (pieces file.text).length := by
      rw [SourceFile.classes, Markers.length_classifyLines]
      exact List.length_map dropReturns
    exact ⟨_, List.getElem?_eq_getElem (by rwa [hclasses])⟩

theorem isExecutable_iff {cls : LineClass} :
    cls.isExecutable = true ↔ cls = .code ∨ cls = .exceptionMarked := by
  cases cls <;> decide

/-- A header with what makes it a call is a call site. -/
theorem exists_siteAt_iff (hname : isIdentifier name.toList = true) {offset : Nat} :
    (∃ earlier head blanks list behind,
      SiteAt file ms name.toList offset earlier head blanks list behind) ↔
      ∃ before blanks rest, HeaderAt file.text.masked name.toList before blanks rest ∧
        offset = byteLength before ∧ ∃ list behind cls,
          Passes file file.text.masked (file.classes ms) before list behind rest cls := by
  have hne : name.toList ≠ [] := by
    intro hnil
    rw [hnil] at hname
    cases hname
  constructor
  · rintro ⟨earlier, head, blanks, list, behind, h⟩
    have hheader : HeaderAt file.text.masked name.toList (ended earlier ++ head) blanks
        (list ++ ')' :: behind) := ⟨h.text_eq, h.boundary, h.blank⟩
    obtain ⟨hline, cls, hcls⟩ := hheader.exists_class hne ms
    have hcount : newlines (ended earlier ++ head) = earlier.length := by
      rw [newlines, List.count_append, List.count_eq_zero.mpr h.head_line, ← newlines,
        newlines_ended h.earlier_lines, Nat.add_zero]
    refine ⟨_, blanks, _, hheader, h.offset_eq, list, behind, cls, rfl, h.enclosed, h.no_body, ?_,
      ?_, ?_⟩
    · rw [h.text_eq, lineHead_eq_of_ended h.head_line]
      exact h.no_declaration
    · rw [hline, Nat.add_sub_cancel, hcls, Option.getD_some]
    · rw [hcount] at hcls
      have hclass := h.line_class
      rw [hcls, Option.some_inj, Option.some_inj] at hclass
      exact isExecutable_iff.mpr hclass
  · rintro ⟨before, blanks, rest, hheader, hoffset, list, behind, cls, hpasses⟩
    obtain ⟨hline, cls', hcls⟩ := hheader.exists_class hne ms
    obtain ⟨earlier, head, rfl, hhead, hearlier⟩ := exists_ended before
    have hcount : newlines (ended earlier ++ head) = earlier.length := by
      rw [newlines, List.count_append, List.count_eq_zero.mpr hhead, ← newlines,
        newlines_ended hearlier, Nat.add_zero]
    have hdeclaration := hpasses.no_declaration
    rw [hheader.text_eq, lineHead_eq_of_ended hhead] at hdeclaration
    have hclass := hpasses.class_eq
    rw [hline, Nat.add_sub_cancel, hcls, Option.getD_some] at hclass
    refine ⟨earlier, head, blanks, list, behind, ?_, hoffset, hheader.boundary, hheader.blank,
      hpasses.enclosed, hpasses.no_body, hearlier, hhead, hdeclaration, ?_⟩
    · rw [hheader.text_eq, hpasses.rest_eq]
    · rw [← hcount, hcls, hclass, Option.some_inj, Option.some_inj]
      exact isExecutable_iff.mp hpasses.executable

theorem offset_mem_iff (hname : isIdentifier name.toList = true) {offset : Nat} :
    offset ∈ (all file name ms).map (·.offset) ↔ ∃ earlier head blanks list behind,
      SiteAt file ms name.toList offset earlier head blanks list behind := by
  rw [exists_siteAt_iff hname, List.mem_map]
  constructor
  · rintro ⟨call, hcall, hoffset⟩
    obtain ⟨s, hs, hspan⟩ := List.mem_filterMap.mp hcall
    obtain ⟨before, blanks, rest, hheader, rfl⟩ := (mem_header_spans_iff hname).mp hs
    obtain ⟨-, -, -, -, -, -, hstart, -⟩ := exists_list_of_atSpan? hspan
    exact ⟨before, blanks, rest, hheader, hoffset ▸ hstart,
      hheader.exists_atSpan?_iff.mp ⟨call, hspan⟩⟩
  · rintro ⟨before, blanks, rest, hheader, hoffset, hpasses⟩
    obtain ⟨call, hspan⟩ := hheader.exists_atSpan?_iff.mpr hpasses
    obtain ⟨-, -, -, -, -, -, hstart, -⟩ := exists_list_of_atSpan? hspan
    have hs := (mem_header_spans_iff hname).mpr ⟨before, blanks, rest, hheader, rfl⟩
    exact ⟨call, List.mem_filterMap.mpr ⟨_, hs, hspan⟩, by rw [hstart, hoffset]⟩

theorem offsets_pairwise (file : SourceFile) (name : String) (ms : Markers) :
    ((all file name ms).map (·.offset)).Pairwise (· < ·) := by
  have hspans : ((header name).spans file.text.masked).Pairwise (·.start < ·.start) :=
    Regex.spansFrom_pairwise
  apply List.pairwise_map.mpr
  apply List.Pairwise.filterMap _ _ hspans
  intro s s' hlt call hcall call' hcall'
  obtain ⟨-, -, -, -, -, -, hstart, -⟩ := exists_list_of_atSpan? hcall
  obtain ⟨-, -, -, -, -, -, hstart', -⟩ := exists_list_of_atSpan? hcall'
  rwa [hstart, hstart']

/-- **Calls are found where they stand, each once and in text order.** A call has the name's own
place in the text, the line that holds it and the class of that line. -/
theorem all_exact (file : SourceFile) (ms : Markers) {name : String}
    (hname : isIdentifier name.toList = true) :
    ((all file name ms).map (·.offset)).Pairwise (· < ·) ∧
    (∀ offset, offset ∈ (all file name ms).map (·.offset) ↔
      ∃ earlier head blanks list behind,
        SiteAt file ms name.toList offset earlier head blanks list behind) ∧
    ∀ call ∈ all file name ms, call.name = name ∧
      slice? file.text call.offset (call.offset + byteLength name.toList) = some name.toList ∧
      (∃ before, take? file.text call.offset = some before ∧ call.line = newlines before + 1) ∧
      (file.classes ms)[call.line - 1]? = some call.lineClass := by
  refine ⟨offsets_pairwise file name ms, fun _ => offset_mem_iff hname, ?_⟩
  intro call hcall
  have hne : name.toList ≠ [] := by
    intro hnil
    rw [hnil] at hname
    cases hname
  have hspace : ' ' ∉ name.toList := fun hmem => by
    have hident := isIdentChar_of_isIdentifier hname hmem
    cases hident
  obtain ⟨s, hs, hspan⟩ := List.mem_filterMap.mp hcall
  obtain ⟨before, blanks, rest, hheader, rfl⟩ := (mem_header_spans_iff hname).mp hs
  obtain ⟨-, -, -, -, hcallName, hcallLine, hoffset, -⟩ := exists_list_of_atSpan? hspan
  obtain ⟨hline, cls, hcls⟩ := hheader.exists_class hne ms
  obtain ⟨p, r, htext, hp⟩ := (hheader.text_eq ▸ blanked_masked file.text).exists_word hne hspace
  have hclass := lineClass_of_mem_all hcall
  rw [hcallLine, hline, Nat.add_sub_cancel, hcls, Option.getD_some] at hclass
  refine ⟨hcallName, ?_, ⟨p, ?_, ?_⟩, ?_⟩
  · rw [hoffset, hp.byteLength_eq, htext, slice?_append]
  · rw [hoffset, hp.byteLength_eq, htext, take?_append]
  · rw [hcallLine, hline, hp.newlines_eq]
  · rw [hcallLine, hline, Nat.add_sub_cancel, hcls, hclass]

/-- The second call stands in the list of the first one and opens its own list on the next line.
The definition and the comment are no calls. -/
theorem nested_calls_found :
    isIdentifier "f".toList = true ∧ ∃ file : SourceFile,
      (all file "f" Markers.standard).map (fun call => (call.offset, call.line)) =
        [(24, 2), (30, 2)] ∧
      ((all file "f" Markers.standard).map (·.offset)).Pairwise (· < ·) ∧
      (∃ earlier head blanks list behind,
        SiteAt file Markers.standard "f".toList 30 earlier head blanks list behind) ∧
      (¬ ∃ earlier head blanks list behind,
        SiteAt file Markers.standard "f".toList 4 earlier head blanks list behind) ∧
      ∀ call ∈ all file "f" Markers.standard,
        slice? file.text call.offset (call.offset + 1) = some "f".toList := by
  let file : SourceFile := ⟨"a.c",
    "int f(int x) \x7b\n  return f(1 + f\n    (2));\n\x7d\n// f(3)\n".toList⟩
  have hname : isIdentifier "f".toList = true := by decide
  have hcalls : (all file "f" Markers.standard).map (fun call => (call.offset, call.line)) =
      [(24, 2), (30, 2)] := by
    decide +kernel
  have hoffsets : (all file "f" Markers.standard).map (·.offset) = [24, 30] := by
    have hfirst := congrArg (List.map Prod.fst) hcalls
    rwa [List.map_map] at hfirst
  obtain ⟨horder, hsites, hplaces⟩ := all_exact file Markers.standard hname
  refine ⟨hname, file, hcalls, horder, ?_, ?_, fun call hcall => (hplaces call hcall).2.1⟩
  · apply (hsites 30).mp
    rw [hoffsets]
    decide
  · intro h
    have hmem := (hsites 4).mpr h
    rw [hoffsets] at hmem
    revert hmem
    decide

end Call
end StructuralRules
