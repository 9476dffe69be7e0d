import StructuralRules.Proofs.Source.CommentSwap
import StructuralRules.Proofs.Source.LineClasses

/-!
# Masking a masked text

A second run over a masked text meets other characters around each one that was
kept: spaces stand where comments, escapes and the contents of literals were. It
is in code wherever the first run was in code or in a comment, and in a literal
wherever the first run was in that literal. So it keeps what the first run kept
and finds nothing more to blank.
-/

set_option autoImplicit false

namespace StructuralRules

open Text

namespace Lex

variable {s : Lex} {c q : Char} {ahead : Option Char}

/-- The state in the masked text where the state in the text is `s`. -/
def shadow : Lex → Lex
  | .literal q | .escaped q => .literal q
  | _ => .code

theorem Quoted.shadow (h : s.Quoted) : s.shadow.Quoted := by
  cases s <;> exact h

theorem afterNewline_shadow (s : Lex) : s.shadow.afterNewline = s.afterNewline.shadow := by
  cases s <;> rfl

/-! ## One character -/

/-- A character that is blanked leads from a state to one with the same shadow. -/
theorem shadow_next_of_hidden (h : s.shows (s.next c ahead) = false) :
    (s.next c ahead).shadow = s.shadow := by
  cases s with
  | code =>
    simp only [next] at h ⊢
    split_ifs at h ⊢
    · rfl
    · rfl
    · cases h
    · cases h
  | blockComment =>
    simp only [next]
    split_ifs <;> rfl
  | literal q =>
    simp only [next] at h ⊢
    split_ifs at h ⊢
    · rfl
    · cases h
    · rfl
  | lineComment => rfl
  | opening => rfl
  | closing => rfl
  | escaped q => rfl

/-- In code only a slash has to look ahead. -/
theorem next_code_of_no_opener (hslash : ¬ (c = '/' ∧ ahead = some '/'))
    (hstar : ¬ (c = '/' ∧ ahead = some '*')) :
    next .code c ahead = if c = '"' ∨ c = '\'' then .literal c else .code := by
  rw [next, if_neg hslash, if_neg hstar]

/-- A character that is kept is kept by the second run too, whether the character behind it
was kept or blanked. -/
theorem next_shadow_of_shown (hs : s.Quoted) (h : s.shows (s.next c ahead) = true)
    {ahead' : Option Char} (hahead : ahead' = ahead ∨ ahead' = some ' ') :
    s.shadow.next c ahead' = (s.next c ahead).shadow ∧
      s.shadow.shows (s.next c ahead).shadow = true := by
  cases s with
  | code =>
    have hslash : ¬ (c = '/' ∧ ahead = some '/') := by
      rintro ⟨rfl, rfl⟩
      cases h
    have hstar : ¬ (c = '/' ∧ ahead = some '*') := by
      rintro ⟨rfl, rfl⟩
      cases h
    have hsame : next .code c ahead' = next .code c ahead := by
      rcases hahead with rfl | rfl
      · rfl
      · rw [next_code_of_no_opener hslash hstar, next_code_of_no_opener (by simp) (by simp)]
    change next .code c ahead' = _ ∧ shows .code _ = true
    rw [hsame, next_code_of_no_opener hslash hstar]
    split <;> exact ⟨rfl, rfl⟩
  | literal q =>
    have hclose : c = q ∧ next (.literal q) c ahead = .code := by
      simp only [next] at h ⊢
      split_ifs at h ⊢ with _ hq
      · cases h
      · exact ⟨hq, rfl⟩
      · cases h
    obtain ⟨rfl, hcode⟩ := hclose
    have hescape : c ≠ '\\' := by
      rintro rfl
      rcases hs with hq | hq <;> exact absurd hq (by decide)
    rw [hcode]
    change next (.literal c) c ahead' = .code ∧ shows (.literal c) .code = true
    exact ⟨by simp [next, hescape], rfl⟩
  | lineComment => cases h
  | blockComment => simp [shows] at h
  | opening => cases h
  | closing => cases h
  | escaped q => cases h

theorem next_shadow_space (hs : s.Quoted) (ahead : Option Char) :
    s.shadow.next ' ' ahead = s.shadow := by
  have hliteral : ∀ q, q = '"' ∨ q = '\'' → next (.literal q) ' ' ahead = .literal q := by
    rintro q (rfl | rfl) <;> rfl
  cases s with
  | literal q => exact hliteral q hs
  | escaped q => exact hliteral q hs
  | code => rfl
  | lineComment => rfl
  | blockComment => rfl
  | opening => rfl
  | closing => rfl

/-! ## Spaces -/

theorem after_spaces (hs : s.Quoted) (n : Nat) (r : Text) :
    s.shadow.after (List.replicate n ' ') r = s.shadow := by
  induction n with
  | zero => rfl
  | succ n ih =>
    rw [List.replicate_succ, after, step_of_ne (by decide), next_shadow_space hs, ih]

theorem maskedFrom_spaces (hs : s.Quoted) (n : Nat) (t : Text) :
    maskedFrom s.shadow (List.replicate n ' ' ++ t) =
      List.replicate n ' ' ++ maskedFrom s.shadow t := by
  have hspace : (if s.shadow.shows s.shadow then [' '] else blanksFor ' ') = [' '] := by
    split <;> rfl
  induction n with
  | zero => rfl
  | succ n ih =>
    rw [List.replicate_succ, List.cons_append, maskedFrom_cons (by decide), next_shadow_space hs,
      hspace, ih]
    rfl

/-! ## The second run -/

/-- The first character of a masked text is that of the text, or a space. -/
theorem head?_maskedFrom (s : Lex) (t : Text) :
    (maskedFrom s t).head? = t.head? ∨ (maskedFrom s t).head? = some ' ' := by
  generalize hm : maskedFrom s t = m
  have hblank : Blanked m t := hm ▸ blanked_maskedFrom s t
  cases hblank with
  | nil => exact .inl rfl
  | keep c _ => exact .inl rfl
  | @blank c m t _ _ =>
    have hpos := c.utf8Size_pos
    obtain ⟨n, hn⟩ : ∃ n, c.utf8Size = n + 1 := ⟨c.utf8Size - 1, by omega⟩
    rw [blanksFor, hn]
    exact .inr rfl

/-- What masking leaves of one character: the second run leaves it as it is and comes to the
shadow of the state to which the first run came. -/
theorem second_step (hs : s.Quoted) (hc : c ≠ '\n') (t : Text) :
    ∃ out, maskedFrom s (c :: t) = out ++ maskedFrom (s.next c t.head?) t ∧
      byteLength out = c.utf8Size ∧
      s.shadow.after out (maskedFrom (s.next c t.head?) t) = (s.next c t.head?).shadow ∧
      maskedFrom s.shadow (out ++ maskedFrom (s.next c t.head?) t) =
        out ++ maskedFrom (s.next c t.head?).shadow (maskedFrom (s.next c t.head?) t) := by
  rw [maskedFrom_cons hc]
  cases hshows : s.shows (s.next c t.head?) with
  | true =>
    obtain ⟨hnext, hkeep⟩ :=
      next_shadow_of_shown hs hshows (head?_maskedFrom (s.next c t.head?) t)
    refine ⟨[c], rfl, rfl, ?_, ?_⟩
    · rw [after, after_nil, step_of_ne hc, List.nil_append, hnext]
    · rw [List.singleton_append, maskedFrom_cons hc, hnext, if_pos hkeep, List.singleton_append]
  | false =>
    have hshadow := shadow_next_of_hidden hshows
    refine ⟨blanksFor c, rfl, byteLength_blanksFor c, ?_, ?_⟩
    · rw [blanksFor, after_spaces hs, hshadow]
    · rw [blanksFor, maskedFrom_spaces hs, hshadow]

theorem maskedFrom_maskedFrom (hs : s.Quoted) (t : Text) :
    maskedFrom s.shadow (maskedFrom s t) = maskedFrom s t := by
  induction t generalizing s with
  | nil => rfl
  | cons c t ih =>
    by_cases hc : c = '\n'
    · have hline : s.afterNewline.Quoted := by cases s <;> exact trivial
      subst hc
      rw [maskedFrom, if_pos rfl, maskedFrom, if_pos rfl, afterNewline_shadow, ih hline]
    · obtain ⟨out, hout, -, -, hsecond⟩ := second_step hs hc t
      rw [hout, hsecond, ih (hs.next c t.head?)]

/-- **Run in step.** Where the first run comes to `r`, the second run has come to the masked
form of `r`, in the shadow of the state of the first run. -/
theorem after_masked (hs : s.Quoted) (p r : Text) :
    ∃ mp, maskedFrom s (p ++ r) = mp ++ maskedFrom (s.after p r) r ∧
      byteLength mp = byteLength p ∧
      s.shadow.after mp (maskedFrom (s.after p r) r) = (s.after p r).shadow := by
  induction p generalizing s with
  | nil => exact ⟨[], rfl, rfl, rfl⟩
  | cons c p ih =>
    by_cases hc : c = '\n'
    · have hline : s.afterNewline.Quoted := by cases s <;> exact trivial
      subst hc
      obtain ⟨mp, hmp, hlen, hafter⟩ := ih hline
      refine ⟨'\n' :: mp, ?_, ?_, ?_⟩
      · rw [List.cons_append, maskedFrom, if_pos rfl, hmp]
        rfl
      · rw [byteLength_cons, byteLength_cons, hlen]
      · rw [after, step, if_pos rfl, afterNewline_shadow]
        exact hafter
    · obtain ⟨out, hout, hsize, hstep, -⟩ := second_step hs hc (p ++ r)
      obtain ⟨mp, hmp, hlen, hafter⟩ := ih (hs.next c (p ++ r).head?)
      rw [hmp] at hout hstep
      refine ⟨out ++ mp, ?_, ?_, ?_⟩
      · rw [List.cons_append, hout, after, step_of_ne hc, List.append_assoc]
      · rw [byteLength_append, byteLength_cons, hsize, hlen]
      · rw [after, step_of_ne hc, after_append, hstep]
        exact hafter

/-! ## Literals -/

/-- A literal opened by `q`, in which the run is in state `s`, goes on with `inside` and no
further: it is open all the way, and `rest` starts with the closing quote or ends the line. -/
structure Holds (s : Lex) (q : Char) (inside rest : Text) : Prop where
  one_line : '\n' ∉ inside
  stays_open : ∀ x y, inside = x ++ y → (s.after x (y ++ rest)).inLiteral = true
  at_end : s.after inside rest = .literal q
  ends : rest.head? = some q ∨ rest.head? = some '\n' ∨ rest = []

namespace Holds

variable {inside rest : Text}

theorem nil (h : rest.head? = some q ∨ rest.head? = some '\n' ∨ rest = []) :
    Holds (.literal q) q [] rest where
  one_line := by simp
  stays_open x y hxy := by
    obtain ⟨rfl, rfl⟩ := List.append_eq_nil_iff.mp hxy.symm
    rfl
  at_end := rfl
  ends := h

theorem cons (hs : s.inLiteral = true) (hc : c ≠ '\n')
    (h : Holds (s.next c (inside ++ rest).head?) q inside rest) :
    Holds s q (c :: inside) rest where
  one_line := by
    rw [List.mem_cons, not_or]
    exact ⟨hc.symm, h.one_line⟩
  stays_open x y hxy := by
    cases x with
    | nil => exact hs
    | cons d x =>
      rw [List.cons_append] at hxy
      obtain ⟨rfl, rfl⟩ := List.cons.inj hxy
      have hopen := h.stays_open x y rfl
      rwa [List.append_assoc, ← step_of_ne hc] at hopen
  at_end := by
    rw [after, step_of_ne hc]
    exact h.at_end
  ends := h.ends

end Holds

/-- What a literal holds is blanked as far as the literal goes. -/
theorem exists_holds (hs : s = .literal q ∨ s = .escaped q) {r : Text}
    (hescaped : s = .escaped q → r.head?.isSome ∧ r.head? ≠ some '\n') :
    ∃ inside rest, r = inside ++ rest ∧ Holds s q inside rest ∧
      maskedFrom s r = List.replicate (byteLength inside) ' ' ++ maskedFrom (.literal q) rest := by
  induction r generalizing s with
  | nil =>
    obtain rfl : s = .literal q := by
      rcases hs with rfl | rfl
      · rfl
      · exact absurd (hescaped rfl).1 (by simp)
    exact ⟨[], [], rfl, .nil (.inr (.inr rfl)), rfl⟩
  | cons c t ih =>
    -- A character that does not end the literal is blanked, and the literal goes on behind it.
    have more : c ≠ '\n' → s.inLiteral = true → s.shows (s.next c t.head?) = false →
        (s.next c t.head? = .literal q ∨ s.next c t.head? = .escaped q) →
        (s.next c t.head? = .escaped q → t.head?.isSome ∧ t.head? ≠ some '\n') →
        ∃ inside rest, c :: t = inside ++ rest ∧ Holds s q inside rest ∧
          maskedFrom s (c :: t) =
            List.replicate (byteLength inside) ' ' ++ maskedFrom (.literal q) rest := by
      intro hc hlit hhidden hnext hesc
      obtain ⟨inside, rest, rfl, hholds, hmasked⟩ := ih hnext hesc
      refine ⟨c :: inside, rest, rfl, .cons hlit hc hholds, ?_⟩
      rw [maskedFrom_cons hc, hhidden, hmasked, byteLength_cons, ← List.replicate_append_replicate,
        List.append_assoc]
      rfl
    by_cases hc : c = '\n'
    · obtain rfl : s = .literal q := by
        rcases hs with rfl | rfl
        · rfl
        · exact absurd (hescaped rfl).2 (by simp [hc])
      exact ⟨[], c :: t, rfl, .nil (.inr (.inl (by rw [hc]; rfl))), rfl⟩
    rcases hs with rfl | rfl
    · by_cases hbackslash : c = '\\' ∧ t.head?.isSome ∧ t.head? ≠ some '\n'
      · have hnext : next (.literal q) c t.head? = .escaped q := by rw [next, if_pos hbackslash]
        exact more hc rfl (by rw [hnext]; rfl) (.inr hnext) fun _ => hbackslash.2
      by_cases hclose : c = q
      · exact ⟨[], c :: t, rfl, .nil (.inl (by rw [hclose]; rfl)), rfl⟩
      · have hnext : next (.literal q) c t.head? = .literal q := by
          rw [next, if_neg hbackslash, if_neg hclose]
        exact more hc rfl (by rw [hnext]; rfl) (.inl hnext) fun h => by rw [hnext] at h; cases h
    · exact more hc rfl rfl (.inl rfl) fun h => by cases h

end Lex

namespace Text

theorem masked_masked (t : Text) : t.masked.masked = t.masked :=
  Lex.maskedFrom_maskedFrom (s := .code) trivial t

/-- Along a masked text the lexer is in code or in a literal, and nothing is escaped. -/
theorem after_shadow {t a b : Text} (h : t.masked = a ++ b) :
    Lex.code.after a b = (Lex.code.after a b).shadow := by
  obtain ⟨mp, hmp, hlen, hafter⟩ := Lex.after_masked (s := .code) trivial a b
  have hfixed : (a ++ b).masked = a ++ b := by rw [← h, masked_masked]
  obtain ⟨rfl, hrest⟩ := append_inj_of_byteLength (hmp.symm.trans hfixed) hlen
  rw [hrest] at hafter
  exact hafter

/-- No two characters of a masked text open a comment. -/
theorem no_opener_in_masked {t a b : Text} {c : Char} (hc : c = '/' ∨ c = '*') :
    t.masked ≠ a ++ '/' :: c :: b := by
  intro h
  have hfixed : (a ++ '/' :: c :: b).masked = a ++ '/' :: c :: b := by rw [← h, masked_masked]
  obtain ⟨hcode, hbehind⟩ := code_around_shown hfixed rfl (by decide)
  rw [Lex.after_append, List.singleton_append, hcode] at hbehind
  rcases hc with rfl | rfl <;> cases hbehind

/-- The end of a literal stays visible. -/
theorem head?_maskedFrom_literal {q : Char} {rest : Text} (hq : q = '"' ∨ q = '\'')
    (h : rest.head? = some q ∨ rest.head? = some '\n' ∨ rest = []) :
    (maskedFrom (.literal q) rest).head? = rest.head? := by
  rcases h with h | h | rfl
  · obtain ⟨rest, rfl⟩ := List.head?_eq_some_iff.mp h
    rcases hq with rfl | rfl <;> rfl
  · obtain ⟨rest, rfl⟩ := List.head?_eq_some_iff.mp h
    rfl
  · rfl

/-- Behind an opening quote the masked text has spaces up to the closing quote or the end of
the line. -/
theorem masked_literal {p r : Text} {q : Char} (hcode : Lex.code.after p (q :: r) = .code)
    (hq : q = '"' ∨ q = '\'') :
    ∃ inside rest mp mrest, r = inside ++ rest ∧ Lex.Holds (.literal q) q inside rest ∧
      (p ++ q :: r).masked = mp ++ q :: (List.replicate (byteLength inside) ' ' ++ mrest) ∧
      byteLength mp = byteLength p ∧ mrest.head? = rest.head? := by
  obtain ⟨mp, hmp, hblank⟩ := Lex.maskedFrom_append .code p (q :: r)
  have hopen : maskedFrom .code (q :: r) = q :: maskedFrom (.literal q) r := by
    rcases hq with rfl | rfl <;> rfl
  obtain ⟨inside, rest, rfl, hholds, hinside⟩ :=
    Lex.exists_holds (s := .literal q) (q := q) (r := r) (.inl rfl) fun h => by cases h
  refine ⟨inside, rest, mp, _, rfl, hholds, ?_, hblank.byteLength_eq,
    head?_maskedFrom_literal hq hholds.ends⟩
  rw [masked, hmp, hcode, hopen, hinside]

/-- **A masked text has nothing left to mask.** Masking it again, as text or byte by byte,
changes nothing. No two of its characters open a comment, and the lexer is in code or in a literal
all along it: in a literal just where it is in that literal in the text itself. Behind an opening
quote it has one space for each byte up to the closing quote or the end of the line. -/
theorem nothing_left_to_mask (t : Text) :
    t.masked.masked = t.masked ∧
    ByteLex.mask (ByteLex.mask t.toBytes) = ByteLex.mask t.toBytes ∧
    ¬ ['/', '/'] <:+: t.masked ∧ ¬ ['/', '*'] <:+: t.masked ∧
    (∀ a b, t.masked = a ++ b →
      Lex.code.after a b = .code ∨ ∃ q, Lex.code.after a b = .literal q) ∧
    (∀ p r, t = p ++ r → ∃ mp mr, t.masked = mp ++ mr ∧ byteLength mp = byteLength p ∧
      Lex.code.after mp mr = (Lex.code.after p r).shadow) ∧
    ∀ p q r, t = p ++ q :: r → Lex.code.after p (q :: r) = .code → q = '"' ∨ q = '\'' →
      ∃ inside rest mp mrest, r = inside ++ rest ∧ Lex.Holds (.literal q) q inside rest ∧
        t.masked = mp ++ q :: (List.replicate (byteLength inside) ' ' ++ mrest) ∧
        byteLength mp = byteLength p ∧ mrest.head? = rest.head? := by
  refine ⟨masked_masked t, ?_, ?_, ?_, ?_, ?_, ?_⟩
  · rw [ByteLex.mask_toBytes, ByteLex.mask_toBytes, masked_masked]
  · rintro ⟨a, b, h⟩
    exact no_opener_in_masked (t := t) (a := a) (b := b) (.inl rfl) (by rw [← h]; simp)
  · rintro ⟨a, b, h⟩
    exact no_opener_in_masked (t := t) (a := a) (b := b) (.inr rfl) (by rw [← h]; simp)
  · intro a b h
    rw [after_shadow h]
    cases Lex.code.after a b with
    | literal q => exact .inr ⟨q, rfl⟩
    | escaped q => exact .inr ⟨q, rfl⟩
    | code => exact .inl rfl
    | lineComment => exact .inl rfl
    | blockComment => exact .inl rfl
    | opening => exact .inl rfl
    | closing => exact .inl rfl
  · rintro p r rfl
    obtain ⟨mp, hmp, hlen, hafter⟩ := Lex.after_masked (s := .code) trivial p r
    exact ⟨mp, _, hmp, hlen, hafter⟩
  · rintro p q r rfl hcode hq
    exact masked_literal hcode hq

/-- Slashes that only a comment keeps apart are not brought together, and a quote inside a comment
opens nothing. -/
example : masked "a /*\"*/ / b; s = \"//\"; // c".toList =
    "a       / b; s = \"  \";     ".toList := by decide +kernel

end Text
end StructuralRules
