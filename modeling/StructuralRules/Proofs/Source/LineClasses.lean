import Mathlib.Data.List.Induction
import StructuralRules.Proofs.Source.LexRun
import StructuralRules.Proofs.Text.Search

/-!
# Line classes and masking

Classifying reads a file line by line, masking reads it in one run. Both are in
a block comment at the same line starts, so the class of a line can be read off
the masking run, the line and the closest line before it that is not blank. On a
single line both agree on whether there is code at all.
-/

set_option autoImplicit false

namespace StructuralRules

open Text

/-! ## What is carried from line to line -/

namespace Markers

/-- What classifying carries past a line: whether a block comment is open, and the last line
that was not blank. -/
def carry (ms : Markers) (st : Bool × Option Text) (line : Text) : Bool × Option Text :=
  ((ms.classify line st.2 st.1).2, if (trim line).isEmpty then st.2 else some line)

/-- What is carried to the line behind `lines`. -/
def carried (ms : Markers) (lines : List Text) : Bool × Option Text :=
  lines.foldl ms.carry (false, none)

/-- Each line is classified with what the lines before it carried. -/
theorem classifyFrom_getElem? (ms : Markers) (st : Bool × Option Text) (lines : List Text)
    (n : Nat) :
    (ms.classifyFrom st.1 st.2 lines)[n]? = lines[n]?.map fun l =>
      let st' := (lines.take n).foldl ms.carry st
      (ms.classify l st'.2 st'.1).1 := by
  induction lines generalizing st n with
  | nil => simp [classifyFrom]
  | cons l lines ih =>
    rw [classifyFrom]
    cases n with
    | zero => rfl
    | succ n => exact ih (ms.carry st l) n

theorem classifyLines_getElem? (ms : Markers) (lines : List Text) (n : Nat) :
    (ms.classifyLines lines)[n]? = lines[n]?.map fun l =>
      (ms.classify l (ms.carried (lines.take n)).2 (ms.carried (lines.take n)).1).1 :=
  classifyFrom_getElem? ms (false, none) lines n

theorem length_classifyLines (ms : Markers) (lines : List Text) :
    (ms.classifyLines lines).length = lines.length := by
  have key : ∀ b p, (ms.classifyFrom b p lines).length = lines.length := by
    induction lines with
    | nil => intro b p; rfl
    | cons l lines ih => intro b p; rw [classifyFrom, List.length_cons, ih, List.length_cons]
  exact key false none

theorem foldl_carry_fst (ms : Markers) (st : Bool × Option Text) (lines : List Text) :
    (lines.foldl ms.carry st).1 =
      lines.foldl (fun b l => (Lex.scanLine l b).endsInBlock) st.1 := by
  induction lines generalizing st with
  | nil => rfl
  | cons l lines ih => rw [List.foldl_cons, ih, List.foldl_cons]; rfl

/-- The closest line before line `n` that is not blank. -/
def closestBefore? (lines : List Text) (n : Nat) : Option Text :=
  (lines.take n).reverse.find? fun l => !l.all isBlank

theorem carried_snd (ms : Markers) (lines : List Text) (n : Nat) :
    (ms.carried (lines.take n)).2 = closestBefore? lines n := by
  unfold carried closestBefore?
  generalize lines.take n = before
  induction before using List.reverseRecOn with
  | nil => rfl
  | append_singleton before l ih =>
    have hblank : (trim l).isEmpty = l.all isBlank := by
      rw [Bool.eq_iff_iff, List.isEmpty_iff, trim_eq_nil, List.all_eq_true]
    rw [List.foldl_concat, carry, List.reverse_concat, List.find?_cons, hblank, ih]
    cases l.all isBlank <;> rfl

theorem excuse_iff {ms : Markers} {line : Text} {previous : Option Text} :
    ms.excuse line previous = true ↔
      ∃ m ∈ ms, m.toList <:+: line ∨ ∃ prev, previous = some prev ∧ m.toList <:+: prev := by
  simp only [excuse, List.any_eq_true, Bool.or_eq_true, contains_iff, Option.any_eq_true]

end Markers

namespace LineClass

/-- What the class of a line says when a comment beats blankness and both beat an excuse. -/
def Decided (comment blank excused : Prop) : LineClass → Prop
  | .comment => comment
  | .blank => ¬ comment ∧ blank
  | .exceptionMarked => ¬ comment ∧ ¬ blank ∧ excused
  | .code => ¬ comment ∧ ¬ blank ∧ ¬ excused

theorem decided_classify (ms : Markers) (line : Text) (previous : Option Text) (inBlock : Bool) :
    Decided (inBlock = true ∨ ['/', '/'] <+: trim line ∨ ['/', '*'] <+: trim line)
      (∀ c ∈ line, isBlank c = true)
      (∃ m ∈ ms, m.toList <:+: line ∨ ∃ prev, previous = some prev ∧ m.toList <:+: prev)
      (ms.classify line previous inBlock).1 := by
  rw [← startsWithComment_iff, ← Markers.excuse_iff, ← trim_eq_nil, Markers.classify]
  dsimp only
  split_ifs with hblock hblank hcomment hexcuse
  · exact .inl hblock
  · have hnil : trim line = [] := List.isEmpty_iff.mp hblank
    refine ⟨?_, hnil⟩
    rw [hnil]
    simp [hblock, startsWithComment]
  · exact .inr hcomment
  · exact ⟨by simp [hblock, hcomment], fun h => hblank (List.isEmpty_iff.mpr h), hexcuse⟩
  · exact ⟨by simp [hblock, hcomment], fun h => hblank (List.isEmpty_iff.mpr h), hexcuse⟩

end LineClass

/-! ## The state at a line start -/

namespace SourceFile

/-- At the start of each line, masking is in a block comment just when classifying is. -/
theorem at?_lineStart (f : SourceFile) (ms : Markers) {n : Nat} {line : Text}
    (h : f.line? (n + 1) = some line) :
    ∃ start, (lineStarts f.text)[n]? = some start ∧
      Lex.at? f.text start = some (Lex.atLineStart (ms.carried (f.lines.take n)).1) := by
  have hl : ((pieces f.text).map dropReturns)[n]? = some line := h
  rw [List.getElem?_map, Option.map_eq_some_iff] at hl
  obtain ⟨piece, hpiece, -⟩ := hl
  obtain ⟨r, ht, -⟩ := pieces_split hpiece
  have hlt : n < (pieces f.text).length := (List.getElem?_eq_some_iff.mp hpiece).1
  refine ⟨_, lineStarts_getElem? hlt, ?_⟩
  have hls : ∀ l ∈ (pieces f.text).take n, '\n' ∉ l := fun l hl =>
    newline_not_mem_of_mem_pieces (List.mem_of_mem_take hl)
  have hstate := Lex.after_ended false hls (piece ++ r)
  have hcarried : (ms.carried (f.lines.take n)).1 = ((pieces f.text).take n).foldl
      (fun b l => (Lex.scanLine (dropReturns l) b).endsInBlock) false := by
    rw [Markers.carried, Markers.foldl_carry_fst, SourceFile.lines, Text.lines, ← List.map_take,
      List.foldl_map]
  have hat := Lex.at?_append (ended ((pieces f.text).take n)) (piece ++ r)
  rw [← ht] at hat
  rw [hat, hcarried, ← hstate]
  rfl

end SourceFile

/-! ## Code on a line -/

namespace Bytes

/-- Space, tab, line feed, form feed and carriage return. -/
def isAsciiBlank (b : UInt8) : Bool :=
  b == ' '.toUInt8 || b == '\t'.toUInt8 || b == '\n'.toUInt8 || b == '\x0c'.toUInt8 ||
    b == '\r'.toUInt8

end Bytes

namespace Text

theorem exists_byte_not_blank (c : Char) :
    (∃ b ∈ String.utf8EncodeChar c, Bytes.isAsciiBlank b = false) ↔ isAsciiBlank c = false := by
  by_cases hc : c.toNat < 128
  · have same : ∀ {x : Char}, x.toNat < 128 → (c.toUInt8 == x.toUInt8) = (c == x) := by
      intro x hx
      rw [Bool.eq_iff_iff, beq_iff_eq, beq_iff_eq, toUInt8_inj hc hx]
    have hblank : Bytes.isAsciiBlank c.toUInt8 = isAsciiBlank c := by
      rw [Bytes.isAsciiBlank, isAsciiBlank, same (by decide), same (by decide), same (by decide),
        same (by decide), same (by decide)]
    rw [encode_of_ascii hc]
    simp [hblank]
  · have hblank : isAsciiBlank c = false := by
      rw [isAsciiBlank]
      have ne : ∀ {x : Char}, x.toNat < 128 → (c == x) = false := by
        rintro x hx
        rw [beq_eq_false_iff_ne]
        rintro rfl
        exact hc hx
      rw [ne (by decide), ne (by decide), ne (by decide), ne (by decide), ne (by decide)]
      rfl
    refine ⟨fun _ => hblank, fun _ => ?_⟩
    obtain ⟨b, hb⟩ := List.exists_mem_of_ne_nil _ (String.utf8EncodeChar_ne_nil (c := c))
    refine ⟨b, hb, ?_⟩
    have hge := le_of_mem_encode hc hb
    rw [Bytes.isAsciiBlank]
    have ne : ∀ {x : UInt8}, x.toNat < 128 → (b == x) = false := by
      intro x hx
      rw [beq_eq_false_iff_ne]
      rintro rfl
      omega
    rw [ne (by decide), ne (by decide), ne (by decide), ne (by decide), ne (by decide)]
    rfl

theorem exists_byte_not_blank_toBytes (t : Text) :
    (∃ b ∈ t.toBytes, Bytes.isAsciiBlank b = false) ↔ ∃ c ∈ t, isAsciiBlank c = false := by
  simp only [toBytes, List.mem_flatMap]
  constructor
  · rintro ⟨b, ⟨c, hc, hb⟩, hblank⟩
    exact ⟨c, hc, (exists_byte_not_blank c).mp ⟨b, hb, hblank⟩⟩
  · rintro ⟨c, hc, hblank⟩
    obtain ⟨b, hb, hb'⟩ := (exists_byte_not_blank c).mpr hblank
    exact ⟨b, ⟨c, hc, hb⟩, hb'⟩

end Text

namespace Lex

/-- Whether the run is inside a literal, whose opening quote counted as code. -/
def inLiteral : Lex → Bool
  | .literal _ => true
  | .escaped _ => true
  | _ => false

theorem counts_iff {s : Lex} {c : Char} {ahead : Option Char} :
    countsAsCode s (s.next c ahead) c = true ↔
      s = .code ∧ s.shows (s.next c ahead) = true ∧ isAsciiBlank c = false := by
  by_cases hs : s = .code
  · subst hs
    simp only [countsAsCode, next]
    split_ifs <;> simp [shows]
  · simp [countsAsCode, hs]

/-- What is shown is code or the closing quote of a literal. -/
theorem eq_code_or_inLiteral_of_shows {s s' : Lex} (h : s.shows s' = true) :
    s = .code ∨ s.inLiteral = true := by
  cases s with
  | code => exact .inl rfl
  | literal q => exact .inr rfl
  | lineComment => cases h
  | blockComment => cases h
  | opening => cases h
  | closing => cases h
  | escaped q => cases h

/-- The opening quote of a literal counts as code. -/
theorem counts_of_next_inLiteral {s : Lex} {c : Char} {ahead : Option Char}
    (h : (s.next c ahead).inLiteral = true) :
    s.inLiteral = true ∨ countsAsCode s (s.next c ahead) c = true := by
  cases s with
  | code =>
    right
    rw [counts_iff]
    simp only [next] at h ⊢
    split_ifs at h ⊢ with _ _ hquote
    · cases h
    · cases h
    · rcases hquote with rfl | rfl <;> exact ⟨trivial, rfl, rfl⟩
    · cases h
  | literal q => exact .inl rfl
  | escaped q => exact .inl rfl
  | blockComment =>
    simp only [next] at h
    split_ifs at h <;> cases h
  | lineComment => cases h
  | opening => cases h
  | closing => cases h

/-- A line has code, seen already or still to come, just when masking shows something of it. -/
theorem scanFrom_hasCode (s : Lex) (seen : Bool) (hs : s.inLiteral = true → seen = true)
    {l : Text} (hl : '\n' ∉ l) :
    (scanFrom s seen l).hasCode = true ↔
      seen = true ∨ ∃ c ∈ maskedFrom s l, isAsciiBlank c = false := by
  induction l generalizing s seen with
  | nil => simp [scanFrom, maskedFrom]
  | cons c l ih =>
    have hc : c ≠ '\n' := fun h => hl (by simp [h])
    have hseen : (s.next c l.head?).inLiteral = true →
        (seen || countsAsCode s (s.next c l.head?) c) = true := by
      intro h
      rcases counts_of_next_inLiteral h with hlit | hcount
      · rw [hs hlit, Bool.true_or]
      · rw [hcount, Bool.or_true]
    have hshown : (∃ d ∈ (if s.shows (s.next c l.head?) then [c] else blanksFor c),
        isAsciiBlank d = false) ↔ s.shows (s.next c l.head?) = true ∧ isAsciiBlank c = false := by
      cases s.shows (s.next c l.head?) with
      | true => simp
      | false =>
        simp only [Bool.false_eq_true, if_false, false_and, iff_false]
        rintro ⟨d, hd, hblank⟩
        rw [mem_blanksFor hd] at hblank
        cases hblank
    rw [scanFrom, ih _ _ hseen fun h => hl (by simp [h]), maskedFrom_cons hc, Bool.or_eq_true,
      counts_iff, or_assoc]
    simp only [List.mem_append, or_and_right, exists_or, hshown]
    constructor
    · rintro (h | ⟨-, h⟩ | h)
      · exact .inl h
      · exact .inr (.inl h)
      · exact .inr (.inr h)
    · rintro (h | h | h)
      · exact .inl h
      · rcases eq_code_or_inLiteral_of_shows h.1 with hcode | hlit
        · exact .inr (.inl ⟨hcode, h⟩)
        · exact .inl (hs hlit)
      · exact .inr (.inr h)

end Lex

/-- **Classifying and masking agree.** At each line start both are in a block comment or both
are not. The class of the line follows from that, from how the line begins, and from the
markers on it and on the closest line before it that is not blank. A single line has code just
when masking leaves a byte of it that is no blank. -/
theorem SourceFile.classes_agree_with_mask (f : SourceFile) (ms : Markers) :
    (∀ (n : Nat) (line : Text), f.line? (n + 1) = some line →
      ∃ (start : Nat) (state : Lex) (cls : LineClass),
        (lineStarts f.text)[n]? = some start ∧ Lex.at? f.text start = some state ∧
        (∃ before rest out, f.text = before ++ rest ∧ byteLength before = start ∧
          f.text.masked = out ++ maskedFrom state rest ∧ byteLength out = start) ∧
        (f.classes ms)[n]? = some cls ∧
        cls = (ms.classify line (ms.carried (f.lines.take n)).2
          (ms.carried (f.lines.take n)).1).1 ∧
        ((ms.carried (f.lines.take n)).1 = true ↔ state = .blockComment) ∧
        cls.Decided
          (state = .blockComment ∨ ['/', '/'] <+: trim line ∨ ['/', '*'] <+: trim line)
          (∀ c ∈ line, isBlank c = true)
          (∃ m ∈ ms, m.toList <:+: line ∨
            ∃ prev, Markers.closestBefore? f.lines n = some prev ∧ m.toList <:+: prev)) ∧
    ∀ line : Text, '\n' ∉ line →
      ((Lex.scanLine line false).hasCode = true ↔
        ∃ b ∈ line.masked.toBytes, Bytes.isAsciiBlank b = false) := by
  constructor
  · intro n line hline
    obtain ⟨start, hstart, hat⟩ := f.at?_lineStart ms hline
    have hblock : (ms.carried (f.lines.take n)).1 = true ↔
        Lex.atLineStart (ms.carried (f.lines.take n)).1 = .blockComment := by
      cases (ms.carried (f.lines.take n)).1 <;> decide
    refine ⟨start, _, _, hstart, hat, Lex.masked_of_at? hat, ?_, rfl, hblock, ?_⟩
    · have hl : f.lines[n]? = some line := hline
      rw [SourceFile.classes, Markers.classifyLines_getElem?, hl, Option.map_some]
    · rw [← hblock, ← Markers.carried_snd ms]
      exact LineClass.decided_classify ms line _ _
  · intro line hl
    rw [exists_byte_not_blank_toBytes, Lex.scanLine, if_neg (by simp),
      Lex.scanFrom_hasCode .code false (fun h => by cases h) hl, Bool.false_eq_true, false_or]
    rfl

end StructuralRules
