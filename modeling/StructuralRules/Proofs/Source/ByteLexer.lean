import StructuralRules.Proofs.Source.Blanking

/-!
# Masking byte by byte

The lexer over bytes takes one or two bytes at a time, and an escape takes the
first byte of the character behind the backslash only. Over the bytes of a text
it gives the bytes of the masked text: a longer character is passed over byte by
byte without a change of state, so it is kept or blanked as a whole.
-/

set_option autoImplicit false

namespace StructuralRules

/-- Where the byte lexer stands before a token. -/
inductive ByteLex where
  | code
  | lineComment
  | blockComment
  /-- Inside a literal opened by `quote`. -/
  | literal (quote : UInt8)
  deriving DecidableEq, Repr

namespace ByteLex

open Text

/-- The state behind the token that byte `b` starts, and the number of its bytes. -/
def step (s : ByteLex) (b : UInt8) (ahead : Option UInt8) : ByteLex × Nat :=
  match s with
  | .code =>
      if b = '/'.toUInt8 ∧ ahead = some '/'.toUInt8 then (.lineComment, 2)
      else if b = '/'.toUInt8 ∧ ahead = some '*'.toUInt8 then (.blockComment, 2)
      else if b = '"'.toUInt8 ∨ b = '\''.toUInt8 then (.literal b, 1)
      else (.code, 1)
  | .lineComment => (.lineComment, 1)
  | .blockComment =>
      if b = '*'.toUInt8 ∧ ahead = some '/'.toUInt8 then (.code, 2) else (.blockComment, 1)
  | .literal q =>
      if b = '\\'.toUInt8 ∧ ahead.isSome ∧ ahead ≠ some '\n'.toUInt8 then (.literal q, 2)
      else if b = q then (.code, 1)
      else (.literal q, 1)

/-- The bytes of a token are kept when it is code or a quote of a literal. -/
def keeps : ByteLex → ByteLex → Bool
  | .code, .code => true
  | .code, .literal _ => true
  | .literal _, .code => true
  | _, _ => false

/-- A line feed ends everything but a block comment. -/
def afterNewline : ByteLex → ByteLex
  | .blockComment => .blockComment
  | _ => .code

/-- A token takes one byte, or two when there is a second one. -/
theorem step_takes (s : ByteLex) (b : UInt8) (ahead : Option UInt8) :
    (s.step b ahead).2 = 1 ∨ (s.step b ahead).2 = 2 ∧ ahead.isSome = true := by
  cases s with
  | code =>
    rw [step]
    split_ifs with h1 h2
    · exact .inr ⟨rfl, by rw [h1.2]; rfl⟩
    · exact .inr ⟨rfl, by rw [h2.2]; rfl⟩
    · exact .inl rfl
    · exact .inl rfl
  | lineComment => exact .inl rfl
  | blockComment =>
    rw [step]
    split_ifs with h
    · exact .inr ⟨rfl, by rw [h.2]; rfl⟩
    · exact .inl rfl
  | literal q =>
    rw [step]
    split_ifs with h
    · exact .inr ⟨rfl, h.2.1⟩
    · exact .inl rfl
    · exact .inl rfl

theorem step_pos (s : ByteLex) (b : UInt8) (ahead : Option UInt8) : 1 ≤ (s.step b ahead).2 := by
  have h := step_takes s b ahead
  omega

/-- The masked bytes behind a place where the lexer is in state `s`. -/
def maskFrom (s : ByteLex) : Bytes → Bytes
  | [] => []
  | b :: bs =>
      if b = '\n'.toUInt8 then b :: maskFrom s.afterNewline bs
      else
        let next := s.step b bs.head?
        ((b :: bs).take next.2).map
            (fun x => if s.keeps next.1 || x == '\n'.toUInt8 then x else ' '.toUInt8) ++
          maskFrom next.1 ((b :: bs).drop next.2)
termination_by bs => bs.length
decreasing_by
  · simp
  · have h := step_pos s b bs.head?
    simp only [List.length_drop, List.length_cons]
    omega

/-- The masked bytes of a file. -/
def mask (bs : Bytes) : Bytes :=
  maskFrom .code bs

/-! ## Single tokens -/

variable {s s' : ByteLex} {b : UInt8}

theorem maskFrom_newline (s : ByteLex) (bs : Bytes) :
    maskFrom s ('\n'.toUInt8 :: bs) = '\n'.toUInt8 :: maskFrom s.afterNewline bs := by
  rw [maskFrom, if_pos rfl]

theorem maskFrom_one {bs : Bytes} (hb : b ≠ '\n'.toUInt8) (h : s.step b bs.head? = (s', 1)) :
    maskFrom s (b :: bs) = (if s.keeps s' then b else ' '.toUInt8) :: maskFrom s' bs := by
  rw [maskFrom, if_neg hb]
  simp [h, hb]

/-- A token of two bytes is never kept. -/
theorem maskFrom_two {b' : UInt8} {bs : Bytes} (hb : b ≠ '\n'.toUInt8) (hb' : b' ≠ '\n'.toUInt8)
    (h : s.step b (some b') = (s', 2)) (hk : s.keeps s' = false) :
    maskFrom s (b :: b' :: bs) = ' '.toUInt8 :: ' '.toUInt8 :: maskFrom s' bs := by
  rw [maskFrom, if_neg hb]
  simp [h, hk, hb, hb']

/-- Bytes of longer characters change no state. -/
theorem step_long (s : ByteLex) (hs : ∀ q, s = .literal q → q.toNat < 128)
    (hb : 128 ≤ b.toNat) (ahead : Option UInt8) : s.step b ahead = (s, 1) := by
  have ne : ∀ {x : UInt8}, x.toNat < 128 → b ≠ x := by
    rintro x hx rfl
    omega
  cases s with
  | code => simp [step, ne (x := '/'.toUInt8) (by decide), ne (x := '"'.toUInt8) (by decide),
      ne (x := '\''.toUInt8) (by decide)]
  | lineComment => rfl
  | blockComment => simp [step, ne (x := '*'.toUInt8) (by decide)]
  | literal q => simp [step, ne (x := '\\'.toUInt8) (by decide), ne (hs q rfl)]

theorem maskFrom_long (s : ByteLex) (hs : ∀ q, s = .literal q → q.toNat < 128) {long : Bytes}
    (hl : ∀ b ∈ long, 128 ≤ b.toNat) (bs : Bytes) :
    maskFrom s (long ++ bs) =
      (if s.keeps s then long else List.replicate long.length ' '.toUInt8) ++ maskFrom s bs := by
  induction long with
  | nil => simp
  | cons b long ih =>
    have hb : 128 ≤ b.toNat := hl b (by simp)
    have hnl : b ≠ '\n'.toUInt8 := by
      rintro rfl
      exact absurd hb (by decide)
    rw [List.cons_append, maskFrom_one hnl (step_long s hs hb _),
      ih fun x hx => hl x (by simp [hx])]
    split <;> simp [List.replicate_succ]

/-! ## In step with the lexer over characters -/

/-- Between two tokens both lexers are in states of the same name. -/
inductive Settled : ByteLex → Lex → Prop where
  | code : Settled .code .code
  | lineComment : Settled .lineComment .lineComment
  | blockComment : Settled .blockComment .blockComment
  | literal (q : Char) : q = '"' ∨ q = '\'' → Settled (.literal q.toUInt8) (.literal q)

namespace Settled

variable {l : Lex}

theorem afterNewline (h : Settled s l) : Settled s.afterNewline l.afterNewline := by
  cases h <;> constructor

theorem quote_lt (h : Settled s l) (q : UInt8) (hq : s = .literal q) : q.toNat < 128 := by
  cases h with
  | code => cases hq
  | lineComment => cases hq
  | blockComment => cases hq
  | literal q' hq' =>
    cases hq
    rcases hq' with rfl | rfl <;> decide

/-- A longer character changes no state, and is kept by both lexers or by none. -/
theorem next_long (h : Settled s l) {c : Char} (hc : ¬ c.toNat < 128) (ahead : Option Char) :
    l.next c ahead = l ∧ l.shows l = s.keeps s := by
  have ne : ∀ {x : Char}, x.toNat < 128 → c ≠ x := by
    rintro x hx rfl
    exact hc hx
  cases h with
  | code => simp [Lex.next, ne (x := '/') (by decide), ne (x := '"') (by decide),
      ne (x := '\'') (by decide), Lex.shows, keeps]
  | lineComment => exact ⟨rfl, rfl⟩
  | blockComment => simp [Lex.next, ne (x := '*') (by decide), Lex.shows, keeps]
  | literal q hq =>
    have hcq : c ≠ q := by rcases hq with rfl | rfl <;> exact ne (by decide)
    simp [Lex.next, ne (x := '\\') (by decide), hcq, Lex.shows, keeps]

/-- What both lexers do with an ASCII character `c` before `t`: one step each, or one token of
two bytes against two steps. -/
def Together (s : ByteLex) (l : Lex) (c : Char) (t : Text) : Prop :=
  (∃ s', s.step c.toUInt8 t.toBytes.head? = (s', 1) ∧ Settled s' (l.next c t.head?) ∧
    s.keeps s' = l.shows (l.next c t.head?)) ∨
  ∃ s' mid l' a t', t = a :: t' ∧ a ≠ '\n' ∧ s.step c.toUInt8 t.toBytes.head? = (s', 2) ∧
    s.keeps s' = false ∧ l.next c t.head? = mid ∧ l.shows mid = false ∧
    mid.next a t'.head? = l' ∧ mid.shows l' = false ∧ Settled s' l' ∧
    (a.toNat < 128 ∨ s'.keeps s' = false)

theorem together (h : Settled s l) {c : Char} (hc : c.toNat < 128) (t : Text) :
    Together s l c t := by
  have same : ∀ {x : Char}, x.toNat < 128 → (c.toUInt8 = x.toUInt8 ↔ c = x) :=
    fun hx => toUInt8_inj hc hx
  have ahead : ∀ {x : Char}, x.toNat < 128 →
      (t.toBytes.head? = some x.toUInt8 ↔ t.head? = some x) := fun hx => head?_toBytes hx
  cases h with
  | code =>
    by_cases h1 : c = '/' ∧ t.head? = some '/'
    · obtain ⟨rfl, ht⟩ := h1
      obtain ⟨t', rfl⟩ := List.head?_eq_some_iff.mp ht
      exact .inr ⟨.lineComment, .lineComment, .lineComment, '/', t', rfl, by decide, rfl, rfl, rfl,
        rfl, rfl, rfl, .lineComment, .inl (by decide)⟩
    by_cases h2 : c = '/' ∧ t.head? = some '*'
    · obtain ⟨rfl, ht⟩ := h2
      obtain ⟨t', rfl⟩ := List.head?_eq_some_iff.mp ht
      exact .inr ⟨.blockComment, .opening, .blockComment, '*', t', rfl, by decide, rfl, rfl, rfl,
        rfl, rfl, rfl, .blockComment, .inl (by decide)⟩
    by_cases h3 : c = '"' ∨ c = '\''
    · refine .inl ⟨.literal c.toUInt8, ?_, ?_, ?_⟩
      · simp [step, same, ahead, h1, h2, h3]
      · simp [Lex.next, h1, h2, h3, Settled.literal]
      · simp [Lex.next, h1, h2, h3, keeps, Lex.shows]
    · refine .inl ⟨.code, ?_, ?_, ?_⟩
      · simp [step, same, ahead, h1, h2, h3]
      · simp [Lex.next, h1, h2, h3, Settled.code]
      · simp [Lex.next, h1, h2, h3, keeps, Lex.shows]
  | lineComment => exact .inl ⟨.lineComment, rfl, .lineComment, rfl⟩
  | blockComment =>
    by_cases h1 : c = '*' ∧ t.head? = some '/'
    · obtain ⟨rfl, ht⟩ := h1
      obtain ⟨t', rfl⟩ := List.head?_eq_some_iff.mp ht
      exact .inr ⟨.code, .closing, .code, '/', t', rfl, by decide, rfl, rfl, rfl, rfl, rfl, rfl,
        .code, .inl (by decide)⟩
    · refine .inl ⟨.blockComment, ?_, ?_, ?_⟩
      · simp [step, same, ahead, h1]
      · rw [Lex.next, if_neg h1]
        exact .blockComment
      · rw [Lex.next, if_neg h1]
        rfl
  | literal q hq =>
    have hq128 : q.toNat < 128 := by rcases hq with rfl | rfl <;> decide
    have hsome : t.toBytes.head?.isSome = t.head?.isSome := by
      rw [Bool.eq_iff_iff, List.isSome_head?, List.isSome_head?, ne_eq, toBytes_eq_nil]
    by_cases h1 : c = '\\' ∧ t.head?.isSome ∧ t.head? ≠ some '\n'
    · have hnext : Lex.next (.literal q) c t.head? = .escaped q := by rw [Lex.next, if_pos h1]
      have hstep : (ByteLex.literal q.toUInt8).step c.toUInt8 t.toBytes.head? =
          (.literal q.toUInt8, 2) := by
        rw [step, if_pos ⟨by rw [h1.1], by rw [hsome]; exact h1.2.1,
          fun h => h1.2.2 ((ahead (by decide)).mp h)⟩]
      obtain ⟨a, ha⟩ := Option.isSome_iff_exists.mp h1.2.1
      obtain ⟨t', rfl⟩ := List.head?_eq_some_iff.mp ha
      have hnl : a ≠ '\n' := fun h => h1.2.2 (by rw [h]; rfl)
      exact .inr ⟨_, _, .literal q, a, t', rfl, hnl, hstep, rfl, hnext, rfl, rfl, rfl,
        .literal q hq, .inr rfl⟩
    · have hescape : ¬ (c.toUInt8 = '\\'.toUInt8 ∧ t.toBytes.head?.isSome = true ∧
          t.toBytes.head? ≠ some '\n'.toUInt8) := by
        rw [same (by decide), hsome, ne_eq, ahead (by decide)]
        exact h1
      by_cases h2 : c = q
      · refine .inl ⟨.code, ?_, ?_, ?_⟩
        · rw [step, if_neg hescape, if_pos (by rw [h2])]
        · rw [Lex.next, if_neg h1, if_pos h2]
          exact .code
        · rw [Lex.next, if_neg h1, if_pos h2]
          rfl
      · refine .inl ⟨.literal q.toUInt8, ?_, ?_, ?_⟩
        · rw [step, if_neg hescape, if_neg (by rw [same hq128]; exact h2)]
        · rw [Lex.next, if_neg h1, if_neg h2]
          exact .literal q hq
        · rw [Lex.next, if_neg h1, if_neg h2]
          rfl

end Settled

/-- The bytes that stand for one character in the masked text. -/
theorem toBytes_shown (shown : Bool) (c : Char) :
    toBytes (if shown then [c] else blanksFor c) =
      if shown then String.utf8EncodeChar c else List.replicate c.utf8Size ' '.toUInt8 := by
  cases shown with
  | false => exact toBytes_blanksFor c
  | true => exact List.append_nil _

/-- The first byte of a character, and the bytes behind it: none, or such of 128 and more. -/
theorem encode_eq_cons (a : Char) : ∃ b rest, String.utf8EncodeChar a = b :: rest ∧
    (a ≠ '\n' → b ≠ '\n'.toUInt8) ∧ (∀ x ∈ rest, 128 ≤ x.toNat) ∧
    (a.toNat < 128 → rest = []) := by
  by_cases ha : a.toNat < 128
  · refine ⟨a.toUInt8, [], encode_of_ascii ha, ?_, by simp, fun _ => rfl⟩
    intro hnl h
    exact hnl ((toUInt8_inj ha (by decide)).mp h)
  · cases he : String.utf8EncodeChar a with
    | nil => exact absurd he String.utf8EncodeChar_ne_nil
    | cons b rest =>
      have hge : ∀ x ∈ b :: rest, 128 ≤ x.toNat := fun x hx => le_of_mem_encode ha (he ▸ hx)
      refine ⟨b, rest, rfl, ?_, fun x hx => hge x (by simp [hx]), fun h => absurd h ha⟩
      rintro - rfl
      exact absurd (hge _ List.mem_cons_self) (by decide)

/-- **The byte lexer masks the bytes of a text to the bytes of the masked text.** -/
theorem maskFrom_toBytes {l : Lex} (h : Settled s l) (t : Text) :
    maskFrom s t.toBytes = (maskedFrom l t).toBytes := by
  obtain ⟨n, hn⟩ : ∃ n, t.length ≤ n := ⟨_, Nat.le_refl _⟩
  -- A token may take two characters, so the induction is on a bound of the length.
  induction n generalizing s l t with
  | zero =>
    obtain rfl : t = [] := List.length_eq_zero_iff.mp (by omega)
    rw [toBytes_nil, maskFrom]
    rfl
  | succ n ih =>
    cases t with
    | nil =>
      rw [toBytes_nil, maskFrom]
      rfl
    | cons c t =>
      have ht : t.length ≤ n := by simpa using hn
      by_cases hnl : c = '\n'
      · subst hnl
        have henc : String.utf8EncodeChar '\n' = ['\n'.toUInt8] := rfl
        rw [toBytes_cons, henc, List.singleton_append, maskFrom_newline, ih h.afterNewline t ht,
          maskedFrom, if_pos rfl, toBytes_cons, henc, List.singleton_append]
      rw [maskedFrom_cons hnl, toBytes_append, toBytes_shown, toBytes_cons]
      by_cases hc : c.toNat < 128
      case neg =>
        obtain ⟨hnext, hshow⟩ := h.next_long hc t.head?
        rw [maskFrom_long s h.quote_lt (fun b hb => le_of_mem_encode hc hb), hnext, hshow,
          ih h t ht, String.length_utf8EncodeChar]
      case pos =>
        have hcnl : c.toUInt8 ≠ '\n'.toUInt8 := fun h => hnl ((toUInt8_inj hc (by decide)).mp h)
        rw [encode_of_ascii hc, List.singleton_append, utf8Size_eq_one.mpr hc]
        rcases h.together hc t with ⟨s', hstep, hs', hkeep⟩ |
          ⟨s', mid, l', a, t', rfl, ha, hstep, hkeep, rfl, hshow, rfl, hshow', hs', hlong⟩
        · rw [maskFrom_one hcnl hstep, ih hs' t ht, hkeep]
          split <;> rfl
        · obtain ⟨b, rest, he, hb, hge, hrest⟩ := encode_eq_cons a
          have hsize : a.utf8Size = rest.length + 1 := by
            rw [← String.length_utf8EncodeChar, he, List.length_cons]
          have hblank : (if s'.keeps s' then rest else List.replicate rest.length ' '.toUInt8) =
              List.replicate rest.length ' '.toUInt8 := by
            rcases hlong with hlt | hk
            · rw [hrest hlt]
              split <;> rfl
            · rw [hk]
              rfl
          rw [toBytes_cons, he, List.cons_append, List.head?_cons] at hstep
          rw [toBytes_cons, he, List.cons_append, maskFrom_two hcnl (hb ha) hstep hkeep,
            maskFrom_long s' hs'.quote_lt hge, hblank, ih hs' t' (by simp at ht; omega), hshow,
            maskedFrom_cons ha, toBytes_append, toBytes_shown, hshow', hsize]
          simp [List.replicate_succ]

/-- Masking the bytes of a text gives the bytes of the masked text. -/
theorem mask_toBytes (t : Text) : mask t.toBytes = t.masked.toBytes :=
  maskFrom_toBytes .code t

end ByteLex
end StructuralRules
