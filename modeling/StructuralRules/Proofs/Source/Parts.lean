import StructuralRules.Proofs.Source.Headers
import StructuralRules.Proofs.Source.LexRun

/-!
# Masking a part of a text

The lexer looks one character ahead, and it starts a part of a text in the state
in which the text before the part left it. A part is masked as the text masks it
when its first state is known and its last character needs no look ahead. The
text from a header through its closing brace is such a part. A header that starts
a line starts in code or in the tail of a block comment, and in no other state.
-/

set_option autoImplicit false

namespace StructuralRules

open Text

namespace Lex

/-- What follows the character makes no difference to the lexer. -/
def isCalm (c : Char) : Bool :=
  c != '/' && c != '*' && c != '\\'

theorem next_of_isCalm {c : Char} (hc : isCalm c = true) (s : Lex) (ahead ahead' : Option Char) :
    s.next c ahead = s.next c ahead' := by
  simp only [isCalm, Bool.and_eq_true, bne_iff_ne] at hc
  obtain ⟨⟨hslash, hstar⟩, hescape⟩ := hc
  cases s with
  | code => simp [next, hslash]
  | blockComment => simp [next, hstar]
  | literal q => simp [next, hescape]
  | lineComment => rfl
  | opening => rfl
  | closing => rfl
  | escaped q => rfl

/-- Masking is cut behind such a character. -/
theorem maskedFrom_append_calm (s : Lex) (p : Text) {c : Char} (hc : isCalm c = true) (r : Text) :
    maskedFrom s ((p ++ [c]) ++ r) =
      maskedFrom s (p ++ [c]) ++ maskedFrom (s.after (p ++ [c]) r) r := by
  induction p generalizing s with
  | nil =>
    by_cases hn : c = '\n'
    · subst hn
      rfl
    · have hnext := next_of_isCalm hc s r.head? none
      rw [List.nil_append, List.singleton_append, maskedFrom_cons hn, maskedFrom_cons hn, after,
        after_nil, List.nil_append, step_of_ne hn, List.head?_nil, ← hnext, maskedFrom,
        List.append_nil]
  | cons d p ih =>
    have hahead : (p ++ [c] ++ r).head? = (p ++ [c]).head? := by cases p <;> rfl
    by_cases hn : d = '\n'
    · subst hn
      exact congrArg ('\n' :: ·) (ih s.afterNewline)
    · rw [List.cons_append, List.cons_append, maskedFrom_cons hn, maskedFrom_cons hn, hahead,
        ih, after, hahead, step_of_ne hn, List.append_assoc]

/-- A line starts in code or inside a block comment. -/
theorem after_ended_cases {ls : List Text} (hls : ∀ l ∈ ls, '\n' ∉ l) (r : Text) :
    Lex.code.after (ended ls) r = .code ∨ Lex.code.after (ended ls) r = .blockComment := by
  have hstate := after_ended false hls r
  change Lex.code.after (ended ls) r = _ at hstate
  rw [hstate]
  cases ls.foldl (fun b l => (scanLine (dropReturns l) b).endsInBlock) false with
  | true => exact Or.inr rfl
  | false => exact Or.inl rfl

end Lex

namespace Body

variable {b : Body} {t before head inner behind : Text}

theorem Sits.text_append (h : b.Sits t before head inner behind) :
    t = before ++ (b.text ++ behind) := by
  rw [h.text_eq, h.body_eq]
  simp

theorem Sits.stop_eq_add (h : b.Sits t before head inner behind) :
    b.stop = byteLength before + byteLength b.text := by
  have hbraces : byteLength ['{'] = 1 ∧ byteLength ['}'] = 1 := ⟨rfl, rfl⟩
  have hcut : b.text = head ++ (['{'] ++ (inner ++ ['}'])) := by
    rw [h.body_eq]
    simp
  rw [h.stop_eq, hcut, byteLength_append, byteLength_append, byteLength_append, hbraces.1,
    hbraces.2]
  omega

/-- Masking the whole text masks a body from the state in which it comes to the header. -/
theorem Sits.slice?_masked (h : b.Sits t before head inner behind) :
    slice? t.masked b.header b.stop =
      some (maskedFrom (Lex.code.after before (b.text ++ behind)) b.text) := by
  generalize hstate : Lex.code.after before (b.text ++ behind) = state
  obtain ⟨mbefore, hmasked, hblank⟩ := Lex.maskedFrom_append .code before (b.text ++ behind)
  rw [hstate, ← h.text_append] at hmasked
  have hsplit : maskedFrom state (b.text ++ behind) =
      maskedFrom state b.text ++ maskedFrom (state.after b.text behind) behind := by
    have hbrace : b.text = (head ++ '{' :: inner) ++ ['}'] := by
      rw [h.body_eq]
      simp
    rw [hbrace]
    exact Lex.maskedFrom_append_calm state _ (by decide) behind
  have hlen := (blanked_maskedFrom state b.text).byteLength_eq
  rw [slice?_eq_some]
  refine ⟨mbefore, maskedFrom (state.after b.text behind) behind, ?_, ?_, ?_⟩
  · rw [← hsplit, ← hmasked]
    rfl
  · rw [h.header_eq, hblank.byteLength_eq]
  · rw [h.stop_eq_add, hblank.byteLength_eq, hlen]

/-- `b` starts a line of `t`, where the lexer is in state `state`, and masking `t` masks it
from that state. -/
structure ReadFrom (b : Body) (t : Text) (state : Lex) : Prop where
  starts_line : (lineStarts t)[b.startLine - 1]? = some b.header
  state_at : Lex.at? t b.header = some state
  state_cases : state = .code ∨ state = .blockComment
  slice?_masked : slice? t.masked b.header b.stop = some (maskedFrom state b.text)

theorem exists_readFrom {header : Regex} (hheader : header.StartsLine)
    (h : firstBody? t header = some b) : ∃ state, b.ReadFrom t state := by
  obtain ⟨s, hs, hb⟩ := List.exists_of_findSome?_eq_some h
  obtain ⟨ls, rest, htext, hls, hstart⟩ := (Regex.spansFrom_behind hs).exists_ended hheader
  obtain ⟨before, head, inner, behind, hsits⟩ := bodyAt?_sits hb
  have hlen : byteLength (ended ls) = byteLength before := by
    rw [← hstart, ← bodyAt?_header hb, hsits.header_eq]
  obtain ⟨rfl, rfl⟩ := append_inj_of_byteLength (htext.symm.trans hsits.text_append) hlen
  have hne : b.text ++ behind ≠ [] := by
    rw [hsits.body_eq]
    simp
  refine ⟨Lex.code.after (ended ls) (b.text ++ behind), ?_, ?_, Lex.after_ended_cases hls _,
    hsits.slice?_masked⟩
  · rw [hsits.startLine_eq, newlines_ended hls, Nat.add_sub_cancel, hsits.header_eq, htext]
    exact lineStarts_ended hls hne
  · rw [hsits.header_eq, htext]
    exact Lex.at?_append _ _

end Body
end StructuralRules
