import StructuralRules.Proofs.Source.Blanking

/-!
# The states of the lexer along a text

`Lex.after s p r` is the state in which the run over `p ++ r`, begun in state
`s`, comes to the rest `r`. At a line start the state is code or a block
comment, and it is the one to which reading the lines one by one, without their
ends, leads: a line end hides from the lexer nothing that it looks for.
-/

set_option autoImplicit false

namespace StructuralRules

namespace Lex

open Text

/-- The state behind `c` in a run over a whole text. -/
def step (s : Lex) (c : Char) (ahead : Option Char) : Lex :=
  if c = '\n' then s.afterNewline else s.next c ahead

/-- The state behind `p` in a run over `p ++ r`. -/
def after (s : Lex) : Text → Text → Lex
  | [], _ => s
  | c :: p, r => (s.step c (p ++ r).head?).after p r

/-- The state in which masking a text comes to byte `offset`. -/
def at? (t : Text) (offset : Nat) : Option Lex := do
  let p ← take? t offset
  let r ← drop? t offset
  return Lex.code.after p r

theorem at?_append (p r : Text) : at? (p ++ r) (byteLength p) = some (Lex.code.after p r) := by
  simp [at?]

@[simp] theorem after_nil (s : Lex) (r : Text) : s.after [] r = s := rfl

theorem after_append (s : Lex) (p q r : Text) :
    s.after (p ++ q) r = (s.after p (q ++ r)).after q r := by
  induction p generalizing s with
  | nil => rfl
  | cons c p ih => rw [List.cons_append, after, after, ih, List.append_assoc]

/-- Masking goes on behind `p` in the state that `after` gives. -/
theorem maskedFrom_append (s : Lex) (p r : Text) :
    ∃ mp, maskedFrom s (p ++ r) = mp ++ maskedFrom (s.after p r) r ∧ Blanked mp p := by
  induction p generalizing s with
  | nil => exact ⟨[], rfl, .nil⟩
  | cons c p ih =>
    obtain ⟨mp, hm, hb⟩ := ih (s.step c (p ++ r).head?)
    rw [List.cons_append, maskedFrom, after]
    by_cases hc : c = '\n'
    · rw [if_pos hc]
      rw [step, if_pos hc] at hm ⊢
      exact ⟨c :: mp, by rw [hm, List.cons_append], .keep c hb⟩
    · rw [if_neg hc]
      rw [step, if_neg hc] at hm ⊢
      dsimp only
      split
      · exact ⟨c :: mp, by rw [hm]; rfl, .keep c hb⟩
      · exact ⟨blanksFor c ++ mp, by rw [hm, List.append_assoc], .blank c hc hb⟩

/-- Masking is in the state that `at?` gives when it comes to the offset. -/
theorem masked_of_at? {t : Text} {offset : Nat} {s : Lex} (h : at? t offset = some s) :
    ∃ before rest out, t = before ++ rest ∧ byteLength before = offset ∧
      t.masked = out ++ maskedFrom s rest ∧ byteLength out = offset := by
  obtain ⟨before, hbefore, h⟩ := Option.bind_eq_some_iff.mp h
  obtain ⟨rest, hrest, h⟩ := Option.bind_eq_some_iff.mp h
  obtain ⟨rest', rfl, rfl⟩ := take?_eq_some.mp hbefore
  obtain rfl : rest' = rest := by rwa [drop?_append, Option.some.injEq] at hrest
  obtain rfl := Option.some.inj h
  obtain ⟨out, hout, hblank⟩ := maskedFrom_append .code before rest'
  exact ⟨before, rest', out, rfl, rfl, hout, hblank.byteLength_eq⟩

/-! ## Block comments -/

theorem step_of_ne {c : Char} (hc : c ≠ '\n') (s : Lex) (ahead : Option Char) :
    s.step c ahead = s.next c ahead :=
  if_neg hc

/-- The star of an opener is seen before it is read. -/
theorem ahead_of_next_eq_opening {s : Lex} {c : Char} {ahead : Option Char}
    (h : s.next c ahead = .opening) : ahead = some '*' := by
  cases s with
  | code =>
    simp only [next] at h
    split_ifs at h with _ hstar
    exact hstar.2
  | blockComment =>
    simp only [next] at h
    split_ifs at h
  | literal q =>
    simp only [next] at h
    split_ifs at h
  | lineComment => cases h
  | opening => cases h
  | closing => cases h
  | escaped q => cases h

/-- A character ahead that can end no opener and no closer decides nothing about blocks. -/
theorem next_block_iff (s : Lex) (c : Char) {ahead : Option Char} (hslash : ahead ≠ some '/')
    (hstar : ahead ≠ some '*') :
    s.next c ahead = .blockComment ↔ s.next c none = .blockComment := by
  cases s with
  | literal q =>
    simp only [next]
    split_ifs <;> simp_all
  | code => simp [next, hslash, hstar]
  | lineComment => rfl
  | blockComment => simp [next, hslash]
  | opening => rfl
  | closing => rfl
  | escaped q => rfl

theorem after_block_iff (s : Lex) {l r : Text} (hl : '\n' ∉ l) (hslash : r.head? ≠ some '/')
    (hstar : r.head? ≠ some '*') :
    s.after l r = .blockComment ↔ s.after l [] = .blockComment := by
  induction l generalizing s with
  | nil => rfl
  | cons c l ih =>
    have hc : c ≠ '\n' := fun h => hl (by simp [h])
    rw [after, after, step_of_ne hc, step_of_ne hc]
    cases l with
    | nil => exact next_block_iff s c hslash hstar
    | cons d l => exact ih (s.next c (some d)) fun h => hl (by simp [h])

theorem after_ne_opening {s : Lex} (hs : s ≠ .opening) {l r : Text} (hl : '\n' ∉ l)
    (hstar : r.head? ≠ some '*') : s.after l r ≠ .opening := by
  rcases List.eq_nil_or_concat l with rfl | ⟨l, c, rfl⟩
  · exact hs
  · have hc : c ≠ '\n' := fun h => hl (by simp [h])
    rw [List.concat_eq_append, after_append, after, after_nil, step_of_ne hc, List.nil_append]
    exact fun h => hstar (ahead_of_next_eq_opening h)

/-- Carriage returns before a line feed do not end a block comment and open none. -/
theorem after_returns_block_iff {s : Lex} (hs : s ≠ .opening) (k : Nat) (r : Text) :
    s.after (List.replicate k '\r') ('\n' :: r) = .blockComment ↔ s = .blockComment := by
  induction k generalizing s with
  | zero => rfl
  | succ k ih =>
    have hhead : (List.replicate k '\r' ++ '\n' :: r).head? ≠ some '*' := by
      cases k <;> simp [List.replicate_succ]
    rw [List.replicate_succ, after, step_of_ne (by decide),
      ih fun h => hhead (ahead_of_next_eq_opening h)]
    cases s with
    | blockComment => simp [next]
    | opening => exact absurd rfl hs
    | code => simp [next]
    | lineComment => simp [next]
    | closing => simp [next]
    | literal q =>
      simp only [next]
      split_ifs <;> simp
    | escaped q => simp [next]

/-- A line ends inside a block comment whether it is read with its end or without. -/
theorem after_line_block_iff {s : Lex} (hs : s ≠ .opening) {l : Text} (hl : '\n' ∉ l) (r : Text) :
    s.after l ('\n' :: r) = .blockComment ↔ s.after (dropReturns l) [] = .blockComment := by
  obtain ⟨k, hk⟩ := exists_dropReturns l
  have hl' := newline_not_mem_dropReturns hl
  have hhead : ∀ x : Char, x ≠ '\r' → x ≠ '\n' →
      (List.replicate k '\r' ++ '\n' :: r).head? ≠ some x := by
    intro x hr hn
    cases k <;> simp [List.replicate_succ, hr.symm, hn.symm]
  have hstar := hhead '*' (by decide) (by decide)
  have hslash := hhead '/' (by decide) (by decide)
  calc s.after l ('\n' :: r) = .blockComment
      ↔ (s.after (dropReturns l) (List.replicate k '\r' ++ '\n' :: r)).after
          (List.replicate k '\r') ('\n' :: r) = .blockComment := by
        rw [← after_append, ← hk]
    _ ↔ s.after (dropReturns l) (List.replicate k '\r' ++ '\n' :: r) = .blockComment :=
        after_returns_block_iff (after_ne_opening hs hl' hstar) k r
    _ ↔ s.after (dropReturns l) [] = .blockComment := after_block_iff s hl' hslash hstar

/-! ## Line by line -/

theorem afterNewline_of_ne {s : Lex} (h : s ≠ .blockComment) : s.afterNewline = .code := by
  unfold afterNewline
  split
  · exact absurd rfl h
  · rfl

/-- The state at a line start. -/
def atLineStart (inBlock : Bool) : Lex :=
  if inBlock then .blockComment else .code

theorem scanFrom_endsInBlock (s : Lex) (seen : Bool) {l : Text} (hl : '\n' ∉ l) :
    (scanFrom s seen l).endsInBlock = decide (s.after l [] = .blockComment) := by
  induction l generalizing s seen with
  | nil => rfl
  | cons c l ih =>
    have hc : c ≠ '\n' := fun h => hl (by simp [h])
    rw [scanFrom, ih _ _ fun h => hl (by simp [h]), after, step_of_ne hc, List.append_nil]

/-- Reading a line leads to the next line start, with its end or without. -/
theorem after_line (inBlock : Bool) {l : Text} (hl : '\n' ∉ l) (r : Text) :
    (atLineStart inBlock).after (l ++ ['\n']) r =
      atLineStart (scanLine (dropReturns l) inBlock).endsInBlock := by
  have hl' := newline_not_mem_dropReturns hl
  have hs : atLineStart inBlock ≠ .opening := by cases inBlock <;> decide
  have hiff := after_line_block_iff hs hl r
  rw [after_append, List.singleton_append, after, after_nil, step, if_pos rfl, scanLine,
    scanFrom_endsInBlock _ _ hl']
  change _ = atLineStart (decide ((atLineStart inBlock).after (dropReturns l) [] = .blockComment))
  by_cases h : (atLineStart inBlock).after (dropReturns l) [] = .blockComment
  · rw [hiff.mpr h, decide_eq_true h]
    rfl
  · rw [decide_eq_false h, afterNewline_of_ne fun h' => h (hiff.mp h')]
    rfl

/-- **At every line start** the run over the whole text is where reading the earlier lines one
by one leads. -/
theorem after_ended (inBlock : Bool) {ls : List Text} (hls : ∀ l ∈ ls, '\n' ∉ l) (r : Text) :
    (atLineStart inBlock).after (ended ls) r =
      atLineStart (ls.foldl (fun b l => (scanLine (dropReturns l) b).endsInBlock) inBlock) := by
  induction ls generalizing inBlock with
  | nil => rfl
  | cons l ls ih =>
    have hended : ended (l :: ls) = (l ++ ['\n']) ++ ended ls := by simp
    rw [hended, after_append, after_line inBlock (hls l (by simp)),
      ih _ fun l' hl' => hls l' (by simp [hl']), List.foldl_cons]

end Lex

end StructuralRules
