import Mathlib.Data.List.Forall2
import StructuralRules.Proofs.Text.Bytes
import StructuralRules.Proofs.Text.Lines

/-!
# Blanked copies of a text

`Blanked m t` says that `m` is `t` with some characters replaced by as many
spaces as they have bytes, and no line feed among them. Masking gives a blanked
copy from any lexer state. Whatever is said here about blanked copies holds of
masked texts, of their parts and of their lines.
-/

set_option autoImplicit false

namespace StructuralRules.Text

/-- `m` is `t` with some characters, none of them a line feed, turned into spaces. -/
inductive Blanked : Text → Text → Prop where
  | nil : Blanked [] []
  | keep (c : Char) {m t : Text} : Blanked m t → Blanked (c :: m) (c :: t)
  | blank (c : Char) {m t : Text} : c ≠ '\n' → Blanked m t → Blanked (blanksFor c ++ m) (c :: t)

theorem maskedFrom_cons {c : Char} (hc : c ≠ '\n') (s : Lex) (t : Text) :
    maskedFrom s (c :: t) = (if s.shows (s.next c t.head?) then [c] else blanksFor c) ++
      maskedFrom (s.next c t.head?) t := by
  rw [maskedFrom, if_neg hc]

theorem Blanked.refl (t : Text) : Blanked t t := by
  induction t with
  | nil => exact .nil
  | cons c t ih => exact .keep c ih

theorem blanked_maskedFrom (s : Lex) (t : Text) : Blanked (maskedFrom s t) t := by
  induction t generalizing s with
  | nil => exact .nil
  | cons c t ih =>
    rw [maskedFrom]
    split
    · exact .keep c (ih _)
    case isFalse hc =>
      dsimp only
      split
      · exact .keep c (ih _)
      · exact .blank c hc (ih _)

theorem blanked_masked (t : Text) : Blanked t.masked t :=
  blanked_maskedFrom .code t

/-! ## The spaces for a character -/

theorem mem_blanksFor {c d : Char} (h : d ∈ blanksFor c) : d = ' ' :=
  List.eq_of_mem_replicate h

theorem byteLength_replicate_space (n : Nat) : byteLength (List.replicate n ' ') = n := by
  induction n with
  | zero => rfl
  | succ n ih =>
    have hs : ' '.utf8Size = 1 := rfl
    rw [List.replicate_succ, byteLength_cons, ih, hs, Nat.add_comm]

@[simp] theorem byteLength_blanksFor (c : Char) : byteLength (blanksFor c) = c.utf8Size :=
  byteLength_replicate_space _

@[simp] theorem toBytes_blanksFor (c : Char) :
    toBytes (blanksFor c) = List.replicate c.utf8Size 32 := by
  have key : ∀ n, toBytes (List.replicate n ' ') = List.replicate n 32 := by
    intro n
    induction n with
    | zero => rfl
    | succ n ih => rw [List.replicate_succ, toBytes_cons, ih, List.replicate_succ]; rfl
  exact key _

theorem dropReturns_spaces (n : Nat) (t : Text) :
    dropReturns (List.replicate n ' ' ++ t) = List.replicate n ' ' ++ dropReturns t := by
  induction n with
  | zero => rfl
  | succ n ih =>
    rw [List.replicate_succ, List.cons_append, dropReturns_cons_of_ne (by decide), ih,
      List.cons_append]

namespace Blanked

variable {m t : Text}

/-! ## Layout -/

theorem byteLength_eq (h : Blanked m t) : byteLength m = byteLength t := by
  induction h with
  | nil => rfl
  | keep c _ ih => rw [byteLength_cons, byteLength_cons, ih]
  | blank c _ _ ih => rw [byteLength_append, byteLength_blanksFor, byteLength_cons, ih]

theorem newlines_eq (h : Blanked m t) : newlines m = newlines t := by
  induction h with
  | nil => rfl
  | keep c _ ih => simpa [newlines, List.count_cons] using ih
  | blank c hc _ ih =>
    have h0 : (blanksFor c).count '\n' = 0 :=
      List.count_eq_zero.mpr fun h => absurd (mem_blanksFor h) (by decide)
    rw [newlines, List.count_append, h0, newlines, List.count_cons_of_ne hc, Nat.zero_add]
    exact ih

theorem eq_nil_iff (h : Blanked m t) : m = [] ↔ t = [] := by
  rw [← byteLength_eq_zero, h.byteLength_eq, byteLength_eq_zero]

theorem newline_mem_iff (h : Blanked m t) : '\n' ∈ m ↔ '\n' ∈ t := by
  have hn := h.newlines_eq
  simp only [newlines] at hn
  rw [← List.count_pos_iff, hn, List.count_pos_iff]

/-! ## Parts -/

theorem append {m m' t t' : Text} (h : Blanked m t) (h' : Blanked m' t') :
    Blanked (m ++ m') (t ++ t') := by
  induction h with
  | nil => exact h'
  | keep c _ ih => exact .keep c ih
  | blank c hc _ ih =>
    rw [List.append_assoc]
    exact .blank c hc ih

/-- A blanked copy of a concatenation is cut where the text is. -/
theorem split_text {p r : Text} (h : Blanked m (p ++ r)) :
    ∃ mp mr, m = mp ++ mr ∧ Blanked mp p ∧ Blanked mr r := by
  induction p generalizing m with
  | nil => exact ⟨[], m, rfl, .nil, h⟩
  | cons c p ih =>
    rw [List.cons_append] at h
    cases h with
    | keep _ h =>
      obtain ⟨mp, mr, rfl, hp, hr⟩ := ih h
      exact ⟨c :: mp, mr, rfl, .keep c hp, hr⟩
    | blank _ hc h =>
      obtain ⟨mp, mr, rfl, hp, hr⟩ := ih h
      exact ⟨blanksFor c ++ mp, mr, by rw [List.append_assoc], .blank c hc hp, hr⟩

/-- A character other than a space stands in the text itself, at the same offset. -/
theorem split_at {mp mr : Text} {c : Char} (h : Blanked (mp ++ c :: mr) t) (hc : c ≠ ' ') :
    ∃ p r, t = p ++ c :: r ∧ Blanked mp p ∧ Blanked mr r := by
  generalize hm : mp ++ c :: mr = m at h
  induction h generalizing mp with
  | nil => simp at hm
  | @keep d m t h ih =>
    cases mp with
    | nil =>
      obtain ⟨rfl, rfl⟩ : c = d ∧ mr = m := by simpa using hm
      exact ⟨[], t, rfl, .nil, h⟩
    | cons e mp =>
      obtain ⟨rfl, hm'⟩ : e = d ∧ mp ++ c :: mr = m := by simpa using hm
      obtain ⟨p, r, rfl, hp, hr⟩ := ih hm'
      exact ⟨e :: p, r, rfl, .keep e hp, hr⟩
  | @blank d m t hd h ih =>
    -- The character lies behind the spaces, because it is none of them.
    rcases List.append_eq_append_iff.mp hm with ⟨x, hx, hy⟩ | ⟨x, hx, hy⟩
    · cases x with
      | nil =>
        obtain rfl : c :: mr = m := by simpa using hy
        obtain ⟨p, r, rfl, hp, hr⟩ := ih (List.nil_append (c :: mr))
        refine ⟨d :: p, r, rfl, ?_, hr⟩
        have hmp : mp = blanksFor d := by simpa using hx.symm
        rw [hmp, ← List.append_nil (blanksFor d)]
        exact .blank d hd hp
      | cons e x =>
        obtain ⟨rfl, -⟩ : c = e ∧ mr = x ++ m := by simpa using hy
        exact absurd (mem_blanksFor (c := d) (by rw [hx]; simp)) hc
    · obtain ⟨p, r, rfl, hp, hr⟩ := ih hy.symm
      exact ⟨d :: p, r, rfl, hx ▸ .blank d hd hp, hr⟩

/-! ## Lines -/

theorem line {l rest : Text} (h : Blanked m (l ++ '\n' :: rest)) :
    ∃ ml mrest, m = ml ++ '\n' :: mrest ∧ Blanked ml l ∧ Blanked mrest rest := by
  obtain ⟨ml, mr, rfl, hl, hr⟩ := h.split_text
  cases hr with
  | keep _ hr => exact ⟨ml, _, rfl, hl, hr⟩
  | blank _ hc _ => exact absurd rfl hc

theorem pieces (h : Blanked m t) : List.Forall₂ Blanked (pieces m) (pieces t) := by
  induction t using line_induction generalizing m with
  | nil =>
    obtain rfl : m = [] := h.eq_nil_iff.mpr rfl
    exact .nil
  | last l hl hne =>
    have hm : '\n' ∉ m := fun hm => hl (h.newline_mem_iff.mp hm)
    rw [pieces_last hl hne, pieces_last hm fun h0 => hne (h.eq_nil_iff.mp h0)]
    exact .cons h .nil
  | line l t hl ih =>
    obtain ⟨ml, mt, rfl, hml, hmt⟩ := h.line
    have hm : '\n' ∉ ml := fun hm => hl (hml.newline_mem_iff.mp hm)
    rw [pieces_line hl, pieces_line hm]
    exact .cons hml (ih hmt)

theorem startsFrom_eq (h : Blanked m t) (off : Nat) : startsFrom off m = startsFrom off t := by
  induction t using line_induction generalizing m off with
  | nil =>
    obtain rfl : m = [] := h.eq_nil_iff.mpr rfl
    rfl
  | last l hl hne =>
    have hm : '\n' ∉ m := fun hm => hl (h.newline_mem_iff.mp hm)
    rw [startsFrom_of_not_mem hl, startsFrom_of_not_mem hm]
  | line l t hl ih =>
    obtain ⟨ml, mt, rfl, hml, hmt⟩ := h.line
    have hm : '\n' ∉ ml := fun hm => hl (hml.newline_mem_iff.mp hm)
    rw [startsFrom_line hl, startsFrom_line hm, hml.byteLength_eq, ih hmt]
    simp only [hmt.eq_nil_iff]

theorem lineStarts_eq (h : Blanked m t) : lineStarts m = lineStarts t := by
  rw [lineStarts, lineStarts, h.startsFrom_eq]

/-- Carriage returns that were blanked stay at the end of a line: the line of the copy is a
copy of the line and possibly more. -/
theorem dropReturns (h : Blanked m t) :
    ∃ ml extra, Text.dropReturns m = ml ++ extra ∧ Blanked ml (Text.dropReturns t) := by
  induction h with
  | nil => exact ⟨[], [], rfl, .nil⟩
  | @keep c m t _ ih =>
    obtain ⟨ml, extra, hm, hl⟩ := ih
    by_cases ht : Text.dropReturns t = []
    · by_cases hc : c = '\r'
      · refine ⟨[], Text.dropReturns (c :: m), rfl, ?_⟩
        rw [Text.dropReturns, ht, if_pos hc]
        exact .nil
      · refine ⟨c :: ml, extra, ?_, ?_⟩
        · rw [dropReturns_cons_of_ne hc, hm, List.cons_append]
        · rw [dropReturns_cons_of_ne hc]
          exact .keep c hl
    · have hne : Text.dropReturns m ≠ [] := by
        intro h0
        rw [hm, List.append_eq_nil_iff] at h0
        exact ht (hl.eq_nil_iff.mp h0.1)
      refine ⟨c :: ml, extra, ?_, ?_⟩
      · rw [dropReturns_cons_of_ne_nil hne, hm, List.cons_append]
      · rw [dropReturns_cons_of_ne_nil ht]
        exact .keep c hl
  | @blank c m t hc _ ih =>
    obtain ⟨ml, extra, hm, hl⟩ := ih
    have hspaces : Text.dropReturns (blanksFor c ++ m) = blanksFor c ++ ml ++ extra := by
      rw [blanksFor, dropReturns_spaces, hm, List.append_assoc]
    by_cases hreturn : Text.dropReturns t = [] ∧ c = '\r'
    · refine ⟨[], _, rfl, ?_⟩
      rw [Text.dropReturns, hreturn.1, if_pos hreturn.2]
      exact .nil
    · refine ⟨blanksFor c ++ ml, extra, hspaces, ?_⟩
      have hline : Text.dropReturns (c :: t) = c :: Text.dropReturns t := by
        by_cases ht : Text.dropReturns t = []
        · exact dropReturns_cons_of_ne (fun h => hreturn ⟨ht, h⟩) t
        · exact dropReturns_cons_of_ne_nil ht c
      rw [hline]
      exact .blank c hc hl

/-! ## Bytes -/

/-- Byte for byte, the copy has the byte of the text or a space, and never a space for a line
feed. -/
theorem toBytes (h : Blanked m t) :
    List.Forall₂ (fun b' b => b' = b ∨ b' = 32 ∧ b ≠ 10) m.toBytes t.toBytes := by
  induction h with
  | nil => exact .nil
  | keep c _ ih =>
    rw [toBytes_cons, toBytes_cons]
    exact List.rel_append (List.forall₂_same.mpr fun _ _ => .inl rfl) ih
  | blank c hc _ ih =>
    rw [toBytes_append, toBytes_blanksFor, toBytes_cons]
    refine List.rel_append (List.forall₂_iff_get.mpr ⟨by simp, ?_⟩) ih
    intro i h₁ h₂
    refine .inr ⟨by simp, fun h10 => hc ?_⟩
    have hmem : (10 : UInt8) ∈ String.utf8EncodeChar c := h10 ▸ List.get_mem _ _
    obtain ⟨hlt, heq⟩ := encode_eq_of_mem hmem (by decide)
    exact (toUInt8_inj hlt (by decide)).mp heq.symm

end Blanked

end StructuralRules.Text
