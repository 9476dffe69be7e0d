import StructuralRules.Proofs.Source.MaskLayout
import StructuralRules.Source.Construct

/-!
# Where a body sits in its text

A body that was found splits the text into what stands before its header, the
header, what stands between the braces and what follows. Everything that is
said about its offsets and lines is read off that split.
-/

set_option autoImplicit false

namespace StructuralRules

open Text

/-- `b` is cut out of `text` behind `before`: a header, and `inner` between braces. -/
structure Body.Sits (b : Body) (text before head inner behind : Text) : Prop where
  text_eq : text = before ++ (head ++ '{' :: (inner ++ '}' :: behind))
  header_eq : b.header = byteLength before
  opening_eq : b.opening = byteLength before + byteLength head
  stop_eq : b.stop = byteLength before + byteLength head + byteLength inner + 2
  startLine_eq : b.startLine = newlines before + 1
  body_eq : b.text = head ++ '{' :: (inner ++ ['}'])

/-- The text is cut at two braces, in front of which and between which its masked form is as
given. -/
structure Text.Braced (t mhead minner head inner behind : Text) : Prop where
  text_eq : t = head ++ '{' :: (inner ++ '}' :: behind)
  head : Blanked mhead head
  inner : Blanked minner inner

namespace Text

/-- A closing bracket stands where counting stops. -/
theorem closeFrom_eq_some {opener closer : Char} {depth off stop : Nat} {t : Text}
    (h : closeFrom opener closer depth off t = some stop) :
    ∃ u v, t = u ++ closer :: v ∧ stop = off + byteLength u + closer.utf8Size := by
  induction t generalizing depth off with
  | nil => simp [closeFrom] at h
  | cons c t ih =>
    have later : ∀ {d}, closeFrom opener closer d (off + c.utf8Size) t = some stop →
        ∃ u v, c :: t = u ++ closer :: v ∧ stop = off + byteLength u + closer.utf8Size := by
      intro d hd
      obtain ⟨u, v, rfl, hstop⟩ := ih hd
      exact ⟨c :: u, v, rfl, by rw [hstop, byteLength_cons]; omega⟩
    rw [closeFrom] at h
    split_ifs at h with hopen hclose hdepth
    · exact later h
    · subst hclose
      exact ⟨[], t, rfl, by simpa using h.symm⟩
    · exact later h
    · exact later h

/-- The offsets of the opening brace and behind the closing one, for a header at `start`. -/
def bracesAt? (masked : Text) (start : Nat) : Option (Nat × Nat) := do
  let behind ← drop? masked start
  let opening := start + (← offsetOf? (· == '{') behind)
  let braced ← drop? masked opening
  let stop ← closeFrom '{' '}' 0 opening braced
  return (opening, stop)

/-- The masked text decides where the braces are, and the text is cut there. -/
theorem bodyAt?_eq_bind (text masked : Text) (start : Nat) :
    bodyAt? text masked start = (bracesAt? masked start).bind fun braces =>
      (take? text start).bind fun before => (slice? text start braces.2).bind fun body =>
        some ⟨start, braces.1, braces.2, newlines before + 1, body⟩ := by
  unfold bodyAt? bracesAt?
  simp only [Option.bind_eq_bind, Option.bind_assoc, Option.pure_def, Option.bind_some]

theorem bracesAt?_eq_some {m : Text} {start : Nat} {braces : Nat × Nat}
    (h : bracesAt? m start = some braces) :
    ∃ mb mhead minner mbehind, m = (mb ++ mhead) ++ '{' :: (minner ++ '}' :: mbehind) ∧
      start = byteLength mb ∧ braces.1 = byteLength (mb ++ mhead) ∧
      braces.2 = byteLength (mb ++ mhead) + byteLength minner + 2 := by
  simp only [bracesAt?, Option.bind_eq_bind, Option.bind_eq_some_iff] at h
  obtain ⟨rest, hrest, n, hn, braced, hbraced, stop, hstop, h⟩ := h
  obtain rfl := Option.some.inj h
  obtain ⟨mb, rfl, rfl⟩ := drop?_eq_some.mp hrest
  obtain ⟨mhead, c, mr, rfl, rfl, hc, -⟩ := offsetOf?_eq_some.mp hn
  obtain rfl : c = '{' := by simpa using hc
  have hopen : braced = '{' :: mr := by
    rw [← List.append_assoc, ← byteLength_append, drop?_append] at hbraced
    exact (Option.some.inj hbraced).symm
  rw [hopen, closeFrom, if_pos rfl] at hstop
  obtain ⟨minner, mbehind, rfl, hstop⟩ := closeFrom_eq_some hstop
  have hbrace : '{'.utf8Size = 1 := rfl
  have hclose : '}'.utf8Size = 1 := rfl
  refine ⟨mb, mhead, minner, mbehind, by simp, rfl, ?_, ?_⟩
  · exact (byteLength_append mb mhead).symm
  · show stop = _
    rw [byteLength_append]
    omega

/-- Braces of the masked text stand in the text itself. -/
theorem exists_braced {t mhead minner mbehind : Text}
    (h : t.masked = mhead ++ '{' :: (minner ++ '}' :: mbehind)) :
    ∃ head inner behind, t.Braced mhead minner head inner behind := by
  obtain ⟨head, rest, htext, hhead, hrest⟩ := (h ▸ blanked_masked t).split_at (by decide)
  obtain ⟨inner, behind, rfl, hinner, -⟩ := hrest.split_at (by decide)
  exact ⟨head, inner, behind, htext, hhead, hinner⟩

/-- A header that starts where the text can be cut has a body, if there are braces behind it. -/
theorem Braced.exists_body {t mb mhead minner head inner behind masked before rest : Text}
    {braces : Nat × Nat} (h : t.Braced (mb ++ mhead) minner head inner behind)
    (hbraces : bracesAt? masked (byteLength mb) = some braces)
    (hopening : braces.1 = byteLength (mb ++ mhead))
    (hstop : braces.2 = byteLength (mb ++ mhead) + byteLength minner + 2)
    (hrest : t = before ++ rest) (hlen : byteLength mb = byteLength before) :
    ∃ b top, bodyAt? t masked (byteLength mb) = some b ∧
      b.Sits t before top inner behind ∧ Blanked mb before ∧ Blanked mhead top := by
  have hhead := h.head.byteLength_eq
  have hinner := h.inner.byteLength_eq
  rw [byteLength_append] at hhead hopening hstop
  obtain ⟨top, rfl, -⟩ := exists_append_of_byteLength_le (hrest.symm.trans h.text_eq) (by omega)
  obtain ⟨mb', mtop, hsplit, hmb, hmtop⟩ := h.head.split_text
  obtain ⟨rfl, rfl⟩ := append_inj_of_byteLength hsplit (hlen.trans hmb.byteLength_eq.symm)
  have htop := hmtop.byteLength_eq
  have hbrace : '{'.utf8Size = 1 := rfl
  have hclose : '}'.utf8Size = 1 := rfl
  have htext : t = before ++ ((top ++ '{' :: (inner ++ ['}'])) ++ behind) := by
    rw [h.text_eq]
    simp
  have hlast : braces.2 = byteLength before + byteLength (top ++ '{' :: (inner ++ ['}'])) := by
    simp only [byteLength_append, byteLength_cons, byteLength_nil, hbrace, hclose]
    omega
  have hbody : bodyAt? t masked (byteLength mb) = some ⟨byteLength mb, braces.1, braces.2,
      newlines before + 1, top ++ '{' :: (inner ++ ['}'])⟩ := by
    rw [bodyAt?_eq_bind, hbraces, Option.bind_some, hlen, htext, take?_append, Option.bind_some,
      hlast, slice?_append, Option.bind_some]
  refine ⟨_, top, hbody, ⟨?_, hlen, ?_, ?_, rfl, rfl⟩, hmb, hmtop⟩
  · rw [htext]
    simp
  · dsimp only
    omega
  · dsimp only
    omega

theorem bodyAt?_sits {text : Text} {start : Nat} {b : Body}
    (h : bodyAt? text text.masked start = some b) :
    ∃ before head inner behind, b.Sits text before head inner behind := by
  have hcuts := h
  rw [bodyAt?_eq_bind] at hcuts
  obtain ⟨braces, hbraces, hcuts⟩ := Option.bind_eq_some_iff.mp hcuts
  obtain ⟨before, hbefore, -⟩ := Option.bind_eq_some_iff.mp hcuts
  obtain ⟨rest, hrest, hlen⟩ := take?_eq_some.mp hbefore
  obtain ⟨mb, mhead, minner, mbehind, hm, rfl, hopening, hstop⟩ := bracesAt?_eq_some hbraces
  obtain ⟨head, inner, behind, hbraced⟩ := exists_braced hm
  obtain ⟨b', top, hb', hsits, -⟩ := hbraced.exists_body hbraces hopening hstop hrest hlen.symm
  obtain rfl := Option.some.inj (h.symm.trans hb')
  exact ⟨before, top, inner, behind, hsits⟩

theorem bodyAt?_header {text masked : Text} {start : Nat} {b : Body}
    (h : bodyAt? text masked start = some b) : b.header = start := by
  simp only [bodyAt?, Option.bind_eq_bind, Option.bind_eq_some_iff] at h
  obtain ⟨_, _, _, _, _, _, _, _, _, _, _, _, hb⟩ := h
  rw [← Option.some.inj hb]

end Text

namespace Body.Sits

variable {b : Body} {text before head inner behind : Text}

theorem inner_eq (h : b.Sits text before head inner behind) : b.inner = inner := by
  have hbrace : byteLength ['{'] = 1 := rfl
  have hopen : b.opening - b.header + 1 = byteLength (head ++ ['{']) := by
    rw [h.opening_eq, h.header_eq, byteLength_append, hbrace]
    omega
  have hclose : b.stop - b.header - 1 = byteLength (head ++ ['{']) + byteLength inner := by
    rw [h.stop_eq, h.header_eq, byteLength_append, hbrace]
    omega
  have hcut : b.text = (head ++ ['{']) ++ (inner ++ ['}']) := by
    rw [h.body_eq, List.append_assoc, List.singleton_append]
  rw [Body.inner, hopen, hclose, hcut, slice_append]

theorem openLine_eq (h : b.Sits text before head inner behind) :
    b.openLine = b.startLine + newlines head := by
  have hopen : b.opening - b.header = byteLength ([] : Text) + byteLength head := by
    rw [h.opening_eq, h.header_eq, byteLength_nil]
    omega
  have hcut : b.text = [] ++ (head ++ '{' :: (inner ++ ['}'])) := h.body_eq
  have hslice : slice b.text 0 (b.opening - b.header) = head := by
    rw [hopen, hcut]
    exact slice_append [] head _
  rw [Body.openLine, hslice]

theorem endLine_eq (h : b.Sits text before head inner behind) :
    b.endLine = b.startLine + newlines head + newlines inner := by
  rw [Body.endLine, h.body_eq]
  simp [newlines, List.count_append]
  omega

/-- The closing brace is on a line of the text. -/
theorem endLine_le (h : b.Sits text before head inner behind) :
    b.endLine ≤ (pieces text).length := by
  have hlt := newlines_lt_length_pieces (before ++ (head ++ '{' :: inner)) '}' behind
  have htext : (before ++ (head ++ '{' :: inner)) ++ '}' :: behind = text := by
    rw [h.text_eq]
    simp
  rw [htext] at hlt
  rw [h.endLine_eq, h.startLine_eq]
  simp only [newlines, List.count_append, List.count_cons] at hlt ⊢
  simp at hlt
  omega

theorem startLine_le_openLine (h : b.Sits text before head inner behind) :
    b.startLine ≤ b.openLine := by
  rw [h.openLine_eq]
  omega

theorem openLine_add (h : b.Sits text before head inner behind) :
    b.openLine + newlines inner = b.endLine := by
  rw [h.openLine_eq, h.endLine_eq]

end Body.Sits

end StructuralRules
