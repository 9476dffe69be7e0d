import StructuralRules.Proofs.Source.ByteLexer

/-!
# Masking keeps the layout of a file

The buffer that the byte lexer fills is as long as the file, has its line feeds
in the same places, and holds each character whole or as spaces. It is therefore
text, namely the masked text, whose lines start where the lines of the file do.
-/

set_option autoImplicit false

namespace StructuralRules

namespace Bytes

/-- Wherever `bs` has a byte, `ms` has the same byte or a space. -/
def AgreesUpToBlanks (ms bs : Bytes) : Prop :=
  ∀ (i : Nat) (b : UInt8), bs[i]? = some b → ms[i]? = some b ∨ ms[i]? = some ' '.toUInt8

end Bytes

namespace Text.Blanked

variable {m t : Text}

theorem agreesUpToBlanks (h : Blanked m t) (extra : Text) :
    Bytes.AgreesUpToBlanks (m ++ extra).toBytes t.toBytes := by
  have hb := h.toBytes
  intro i b hi
  obtain ⟨hlen, hrel⟩ := List.forall₂_iff_get.mp hb
  obtain ⟨hlt, rfl⟩ := List.getElem?_eq_some_iff.mp hi
  have hlt' : i < m.toBytes.length := hlen ▸ hlt
  rw [toBytes_append, List.getElem?_append_left hlt', List.getElem?_eq_getElem hlt']
  rcases hrel i hlt' hlt with heq | ⟨hspace, -⟩
  · exact .inl (congrArg some heq)
  · exact .inr (congrArg some hspace)

theorem newline_offsets (h : Blanked m t) (i : Nat) :
    m.toBytes[i]? = some '\n'.toUInt8 ↔ t.toBytes[i]? = some '\n'.toUInt8 := by
  obtain ⟨hlen, hrel⟩ := List.forall₂_iff_get.mp h.toBytes
  by_cases hi : i < t.toBytes.length
  · have hi' : i < m.toBytes.length := hlen ▸ hi
    rw [List.getElem?_eq_getElem hi, List.getElem?_eq_getElem hi', Option.some_inj, Option.some_inj]
    rcases hrel i hi' hi with heq | ⟨hspace, hne⟩
    · exact iff_of_eq (congrArg (· = '\n'.toUInt8) heq)
    · constructor
      · intro h10
        exact absurd (hspace.symm.trans h10) (by decide)
      · intro h10
        exact absurd h10 hne
  · rw [List.getElem?_eq_none (by omega), List.getElem?_eq_none (by omega)]

/-- A character is whole in the copy, or all of it is spaces. -/
theorem char_whole {p r : Text} {c : Char} (h : Blanked m (p ++ c :: r)) :
    (m.toBytes.drop p.toBytes.length).take c.utf8Size = String.utf8EncodeChar c ∨
      (m.toBytes.drop p.toBytes.length).take c.utf8Size =
        List.replicate c.utf8Size ' '.toUInt8 := by
  obtain ⟨mp, mr, rfl, hp, hr⟩ := h.split_text
  have hlen : p.toBytes.length = mp.toBytes.length := by
    rw [length_toBytes, length_toBytes, hp.byteLength_eq]
  rw [toBytes_append, hlen, List.drop_left]
  cases hr with
  | keep _ hr =>
    left
    rw [toBytes_cons, ← String.length_utf8EncodeChar, List.take_left]
  | blank _ _ hr =>
    right
    rw [toBytes_append, toBytes_blanksFor]
    exact List.take_left' List.length_replicate

end Text.Blanked

namespace SourceFile

open Text

theorem lineStarts_masked (f : SourceFile) : lineStarts f.masked.text = lineStarts f.text :=
  (blanked_masked f.text).lineStarts_eq

@[simp] theorem lineCount_masked (f : SourceFile) : f.masked.lineCount = f.lineCount := by
  have h := (blanked_masked f.text).pieces.length_eq
  simpa [lineCount, SourceFile.lines, Text.lines, masked] using h

/-- The line of the masked file is a blanked copy of the line and possibly more. -/
theorem line?_masked {f : SourceFile} {n : Nat} {l : Text} (h : f.line? n = some l) :
    ∃ ml extra, f.masked.line? n = some (ml ++ extra) ∧ Blanked ml l := by
  cases n with
  | zero => simp [line?] at h
  | succ n =>
    have hl : ((pieces f.text).map dropReturns)[n]? = some l := h
    rw [List.getElem?_map, Option.map_eq_some_iff] at hl
    obtain ⟨piece, hpiece, rfl⟩ := hl
    obtain ⟨hlen, hrel⟩ := List.forall₂_iff_get.mp (blanked_masked f.text).pieces
    obtain ⟨hlt, rfl⟩ := List.getElem?_eq_some_iff.mp hpiece
    obtain ⟨ml, extra, hm, hb⟩ := (hrel n (hlen ▸ hlt) hlt).dropReturns
    refine ⟨ml, extra, ?_, hb⟩
    change ((pieces f.text.masked).map dropReturns)[n]? = _
    rw [List.getElem?_map, List.getElem?_eq_getElem (hlen ▸ hlt), Option.map_some]
    exact congrArg some hm

/-- **Masking keeps the layout of every file**, seen on the bytes that the byte lexer writes:
their number, the line feeds, every byte up to blanking, every character as a whole, and so the
text they are, the line starts and the lines. -/
theorem mask_keeps_layout (f : SourceFile) :
    let bytes := f.text.toBytes
    let out := ByteLex.mask bytes
    out.length = bytes.length ∧
    (∀ i : Nat, out[i]? = some '\n'.toUInt8 ↔ bytes[i]? = some '\n'.toUInt8) ∧
    out.AgreesUpToBlanks bytes ∧
    (∀ (p : Text) (c : Char) (r : Text), f.text = p ++ c :: r →
      (out.drop p.toBytes.length).take c.utf8Size = String.utf8EncodeChar c ∨
      (out.drop p.toBytes.length).take c.utf8Size = List.replicate c.utf8Size ' '.toUInt8) ∧
    out.toText? = some f.masked.text ∧
    lineStarts f.masked.text = lineStarts f.text ∧
    f.masked.lineCount = f.lineCount ∧
    ∀ n l, f.line? n = some l → ∃ m, f.masked.line? n = some m ∧
      l.toBytes.length ≤ m.toBytes.length ∧ Bytes.AgreesUpToBlanks m.toBytes l.toBytes := by
  have hmask : Blanked f.text.masked f.text := blanked_masked f.text
  simp only [ByteLex.mask_toBytes]
  refine ⟨?_, hmask.newline_offsets, ?_, ?_, ?_, f.lineStarts_masked, f.lineCount_masked, ?_⟩
  · rw [length_toBytes, length_toBytes, hmask.byteLength_eq]
  · simpa using hmask.agreesUpToBlanks []
  · intro p c r ht
    exact (ht ▸ hmask : Blanked f.text.masked (p ++ c :: r)).char_whole
  · exact Bytes.toText?_toBytes f.text.masked
  · intro n l hl
    obtain ⟨ml, extra, hm, hb⟩ := line?_masked hl
    refine ⟨ml ++ extra, hm, ?_, hb.agreesUpToBlanks extra⟩
    rw [length_toBytes, length_toBytes, byteLength_append, hb.byteLength_eq]
    omega

end SourceFile
end StructuralRules
