import StructuralRules.Proofs.Checked.Text
import StructuralRules.Proofs.Source.Calls
import StructuralRules.Proofs.Source.Parts

/-!
# Line numbers

The line of a place is told in three ways: by its piece among the pieces between
line feeds, by a search among the offsets at which lines start, and by counting
line feeds piece by piece from the header of a body on. All three come to one more
than the number of line feeds in front of the place.
-/

set_option autoImplicit false

namespace StructuralRules

namespace Text

/-! ## Pieces between line feeds -/

theorem splitOn_last {l : Text} (hl : '\n' ∉ l) : l.splitOn '\n' = [l] := by
  rw [List.splitOn_eq_splitOnP, List.splitOnP_eq_singleton]
  intro c hc
  rw [beq_eq_false_iff_ne]
  rintro rfl
  exact hl hc

theorem splitOn_line {l : Text} (hl : '\n' ∉ l) (t : Text) :
    (l ++ '\n' :: t).splitOn '\n' = l :: t.splitOn '\n' := by
  have hlast := splitOn_last hl
  rw [List.splitOn_eq_splitOnP] at hlast ⊢
  rw [List.splitOnP_append_cons _ _ (by simp), hlast, List.singleton_append,
    List.splitOn_eq_splitOnP]

/-- The pieces are what stands between the line feeds, less an empty last one. -/
theorem pieces_eq_splitOn (t : Text) :
    pieces t = if (t.splitOn '\n').getLast? = some [] then (t.splitOn '\n').dropLast
      else t.splitOn '\n' := by
  induction t using line_induction with
  | nil => rfl
  | last l hl hne =>
    rw [pieces_last hl hne, splitOn_last hl]
    simp [hne]
  | line l t hl ih =>
    have hne : t.splitOn '\n' ≠ [] := List.splitOn_ne_nil '\n' t
    have hlast : (l :: t.splitOn '\n').getLast? = (t.splitOn '\n').getLast? := by
      obtain ⟨x, xs, hx⟩ := List.exists_cons_of_ne_nil hne
      rw [hx, List.getLast?_cons_cons]
    rw [pieces_line hl, splitOn_line hl, hlast, List.dropLast_cons_of_ne_nil hne, ih]
    split <;> rfl

/-! ## Line feeds among the bytes -/

/-- A line feed is one byte, and no other character has that byte. -/
theorem newline_mem_encode {c : Char} (h : '\n'.toUInt8 ∈ String.utf8EncodeChar c) : c = '\n' := by
  obtain ⟨hlt, heq⟩ := encode_eq_of_mem h (by decide)
  exact ((toUInt8_inj (by decide) hlt).mp heq).symm

theorem count_newline_toBytes (t : Text) : t.toBytes.count '\n'.toUInt8 = newlines t := by
  induction t with
  | nil => rfl
  | cons c t ih =>
    rw [toBytes_cons, List.count_append, ih, newlines, newlines]
    by_cases hc : c = '\n'
    · subst hc
      rw [List.count_cons_self, Nat.add_comm]
      rfl
    · rw [List.count_eq_zero.mpr fun h => hc (newline_mem_encode h), List.count_cons_of_ne hc,
        Nat.zero_add]

/-- Every byte of a text belongs to a character. -/
theorem exists_char_at {t : Text} {offset : Nat} (h : offset < byteLength t) :
    ∃ p c r k, t = p ++ c :: r ∧ offset = byteLength p + k ∧ k < c.utf8Size := by
  induction t generalizing offset with
  | nil => cases h
  | cons c t ih =>
    by_cases hfirst : offset < c.utf8Size
    · exact ⟨[], c, t, offset, rfl, by simp, hfirst⟩
    · rw [byteLength_cons] at h
      obtain ⟨p, d, r, k, rfl, hoffset, hk⟩ := @ih (offset - c.utf8Size) (by omega)
      exact ⟨c :: p, d, r, k, rfl, by rw [byteLength_cons]; omega, hk⟩

/-- Inside a character there is no line feed. -/
theorem count_newline_take {p r : Text} {c : Char} {k : Nat} (hk : k < c.utf8Size) :
    ((p ++ c :: r).toBytes.take (byteLength p + k)).count '\n'.toUInt8 = newlines p := by
  have htake : (p ++ c :: r).toBytes.take (byteLength p + k) =
      p.toBytes ++ (String.utf8EncodeChar c).take k := by
    rw [toBytes_append, toBytes_cons, ← length_toBytes, List.take_length_add_append,
      List.take_append_of_le_length (by rw [String.length_utf8EncodeChar]; omega)]
  have hinside : ((String.utf8EncodeChar c).take k).count '\n'.toUInt8 = 0 := by
    rw [List.count_eq_zero]
    intro hmem
    obtain rfl := newline_mem_encode (List.mem_of_mem_take hmem)
    have hsize : '\n'.utf8Size = 1 := rfl
    obtain rfl : k = 0 := by omega
    cases hmem
  rw [htake, List.count_append, count_newline_toBytes, hinside, Nat.add_zero]

end Text

open Text

namespace SourceFile

variable {f : SourceFile}

theorem lines_eq_splitOn (f : SourceFile) :
    f.lines = (if (f.text.splitOn '\n').getLast? = some [] then (f.text.splitOn '\n').dropLast
      else f.text.splitOn '\n').map (·.rdropWhile (· == '\r')) := by
  rw [lines, Text.lines, pieces_eq_splitOn]
  exact List.map_congr_left fun l _ => dropReturns_eq_rdropWhile l

theorem map_fst_numbered (f : SourceFile) : f.numbered.map (·.1) = List.range' 1 f.lineCount := by
  rw [numbered_eq_map, List.map_map]
  exact List.map_id _

theorem lineOfOffset_eq_count {offset : Nat} (h : offset < byteLength f.text) :
    f.lineOfOffset offset = 1 + (f.text.toBytes.take offset).count '\n'.toUInt8 := by
  obtain ⟨p, c, r, k, htext, rfl, hk⟩ := exists_char_at h
  rw [lineOfOffset_within htext hk, htext, count_newline_take hk, Nat.add_comm]

/-- The end of a text that does not end in a line feed is on the line of its last character. -/
theorem lineOfOffset_end {p : Text} {c : Char} (htext : f.text = p ++ [c]) (hc : c ≠ '\n') :
    f.lineOfOffset (byteLength f.text) = newlines p + 1 := by
  apply Nat.le_antisymm
  · obtain ⟨ls, last, rfl, hlast, hls⟩ := exists_ended p
    have hline : '\n' ∉ last ++ [c] := by
      simp only [List.mem_append, List.mem_singleton, not_or]
      exact ⟨hlast, hc.symm⟩
    have hcount : f.lineCount = ls.length + 1 := by
      rw [lineCount, lines, Text.lines, List.length_map, htext, List.append_assoc,
        pieces_ended_append hls, pieces_last hline (by simp), List.length_append,
        List.length_singleton]
    have hfeeds : newlines (ended ls ++ last) = ls.length := by
      have hended := newlines_ended hls
      rw [newlines] at hended
      rw [newlines, List.count_append, hended, List.count_eq_zero.mpr hlast, Nat.add_zero]
    rw [hfeeds, ← hcount]
    exact (hasLine_lineOfOffset (by rw [htext]; simp) _).le_count
  · rw [← lineOfOffset_byteLength htext, lineOfOffset_eq_countP, lineOfOffset_eq_countP, htext,
      byteLength_append]
    refine List.countP_mono_left fun start _ hstart => ?_
    rw [decide_eq_true_eq] at hstart ⊢
    omega

end SourceFile

namespace Body.Sits

variable {f : SourceFile} {b : Body} {before head inner behind : Text}

/-- Counting line feeds from the header on gives the line of every place in a body. -/
theorem lineOfOffset_add (h : b.Sits f.text before head inner behind) {p r : Text}
    (hcut : b.text = p ++ r) :
    f.lineOfOffset (b.header + byteLength p) = b.startLine + newlines p := by
  have hsum : newlines (before ++ p) + 1 = b.startLine + newlines p := by
    rw [h.startLine_eq, newlines, List.count_append]
    simp only [newlines]
    omega
  rw [h.header_eq, ← byteLength_append, ← hsum]
  have htext : f.text = (before ++ p) ++ (r ++ behind) := by
    rw [h.text_append, hcut]
    simp
  cases hrest : r ++ behind with
  | cons c rest => exact SourceFile.lineOfOffset_byteLength (htext.trans (by rw [hrest]))
  | nil =>
    -- The place is the end of the file, right behind the closing brace.
    obtain ⟨rfl, rfl⟩ := List.append_eq_nil_iff.mp hrest
    rw [List.append_nil, h.body_eq] at hcut
    subst hcut
    have hend : f.text = (before ++ (head ++ '{' :: inner)) ++ ['}'] := by
      rw [htext]
      simp
    have hline := SourceFile.lineOfOffset_end hend (by decide)
    rw [htext, List.append_nil, List.append_nil] at hline
    rw [hline]
    simp [newlines, List.count_append]

theorem lineOfOffset_header (h : b.Sits f.text before head inner behind) :
    f.lineOfOffset b.header = b.startLine :=
  h.lineOfOffset_add (p := []) rfl

theorem lineOfOffset_opening (h : b.Sits f.text before head inner behind) :
    f.lineOfOffset b.opening = b.openLine := by
  rw [h.opening_eq, ← h.header_eq, h.lineOfOffset_add h.body_eq, h.openLine_eq]

theorem lineOfOffset_closing (h : b.Sits f.text before head inner behind) :
    f.lineOfOffset (b.stop - 1) = b.endLine := by
  have hbrace : '{'.utf8Size = 1 := rfl
  have hstop : b.stop - 1 = b.header + byteLength (head ++ '{' :: inner) := by
    rw [h.stop_eq, h.header_eq, byteLength_append, byteLength_cons, hbrace]
    omega
  have hcut : b.text = (head ++ '{' :: inner) ++ ['}'] := by
    rw [h.body_eq]
    simp
  rw [hstop, h.lineOfOffset_add hcut, h.endLine_eq, newlines, List.count_append,
    List.count_cons_of_ne (by decide), Nat.add_assoc]
  rfl

end Body.Sits

/-- **All line numbers agree.** The lines, cut out between the offsets at which they start, are the
pieces between the line feeds, less an empty last one, without the carriage returns at their ends,
and they are numbered from one up. The line of a byte is one more than the number of line feeds
before it. A body has the lines of its header, its opening and its closing brace. -/
theorem SourceFile.line_numbers_agree (f : SourceFile) :
    Checked.numbered f = .ok f.numbered ∧
    f.numbered.map (·.1) = List.range' 1 f.lineCount ∧
    f.numbered.map (·.2) =
      (if (f.text.splitOn '\n').getLast? = some [] then (f.text.splitOn '\n').dropLast
        else f.text.splitOn '\n').map (·.rdropWhile (· == '\r')) ∧
    (∀ offset < f.text.toBytes.length,
      f.lineOfOffset offset = 1 + (f.text.toBytes.take offset).count '\n'.toUInt8 ∧
      1 ≤ f.lineOfOffset offset ∧ f.lineOfOffset offset ≤ f.lineCount) ∧
    ∀ (header : Regex) (b : Body),
      firstBody? f.text header = some b ∨ b ∈ bodies f.text header →
        b.startLine = f.lineOfOffset b.header ∧ b.openLine = f.lineOfOffset b.opening ∧
        b.endLine = f.lineOfOffset (b.stop - 1) := by
  refine ⟨Checked.numbered_eq f, f.map_fst_numbered, ?_, ?_, ?_⟩
  · rw [map_snd_numbered, lines_eq_splitOn]
  · intro offset hoffset
    rw [length_toBytes] at hoffset
    have hne : f.text ≠ [] := by
      intro h
      rw [h] at hoffset
      cases hoffset
    have hline := hasLine_lineOfOffset hne offset
    exact ⟨lineOfOffset_eq_count hoffset, hline.pos, hline.le_count⟩
  · intro header b hb
    obtain ⟨before, head, inner, behind, hsits⟩ :
        ∃ before head inner behind, b.Sits f.text before head inner behind := by
      rcases hb with hb | hb
      · exact firstBody?_sits hb
      · exact bodiesFrom_sits hb
    exact ⟨hsits.lineOfOffset_header.symm, hsits.lineOfOffset_opening.symm,
      hsits.lineOfOffset_closing.symm⟩

end StructuralRules
