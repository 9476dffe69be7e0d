import StructuralRules.Proofs.Source.Comments
import StructuralRules.Proofs.Source.Headers

/-!
# Bodies in texts that differ inside one comment

A brace of the masked text stands before the comment or behind it, and the lexer
reads code there. So the comment is no part of what two braces enclose, or all of
it is, and in either case both texts have the same code between them. Headers
start where both texts are cut: the same bodies are found, on the same lines and
with the same code inside.
-/

set_option autoImplicit false

namespace StructuralRules

open Text

/-! ## Characters that are shown -/

namespace Lex

/-- A literal has been opened by a quote. -/
def Quoted : Lex → Prop
  | .literal q | .escaped q => q = '"' ∨ q = '\''
  | _ => True

theorem Quoted.next {s : Lex} (h : s.Quoted) (c : Char) (ahead : Option Char) :
    (s.next c ahead).Quoted := by
  cases s with
  | code =>
    simp only [Lex.next]
    split_ifs with _ _ hquote
    · exact trivial
    · exact trivial
    · exact hquote
    · exact trivial
  | blockComment =>
    simp only [Lex.next]
    split_ifs <;> exact trivial
  | literal q =>
    simp only [Lex.next]
    split_ifs
    · exact h
    · exact trivial
    · exact h
  | escaped q => exact h
  | lineComment => exact trivial
  | opening => exact trivial
  | closing => exact trivial

theorem Quoted.after {s : Lex} (h : s.Quoted) (p r : Text) : (s.after p r).Quoted := by
  induction p generalizing s with
  | nil => exact h
  | cons c p ih =>
    apply ih
    unfold step
    split
    · unfold afterNewline
      split <;> exact trivial
    · exact h.next c _

/-- What is shown and is no quote is code. -/
theorem code_of_shows {s : Lex} (hs : s.Quoted) {c : Char} {ahead : Option Char}
    (hc : c ≠ '"' ∧ c ≠ '\'') (h : s.shows (s.next c ahead) = true) :
    s = .code ∧ s.next c ahead = .code := by
  cases s with
  | code =>
    refine ⟨rfl, ?_⟩
    simp only [next] at h ⊢
    split_ifs at h ⊢ with _ _ hquote
    · cases h
    · cases h
    · rcases hquote with rfl | rfl
      · exact absurd rfl hc.1
      · exact absurd rfl hc.2
    · rfl
  | literal q =>
    simp only [next] at h
    split_ifs at h with _ hq
    · cases h
    · subst hq
      rcases hs with rfl | rfl
      · exact absurd rfl hc.1
      · exact absurd rfl hc.2
    · cases h
  | lineComment => cases h
  | blockComment => simp [shows] at h
  | opening => cases h
  | closing => cases h
  | escaped q => cases h

end Lex

namespace Text

/-- In front of a character that masking shows, and behind it, the lexer reads code. -/
theorem code_around_shown {p q mp mq : Text} {c : Char} (hm : (p ++ c :: q).masked = mp ++ c :: mq)
    (hlen : byteLength mp = byteLength p) (hc : c ∉ [' ', '\n', '"', '\'']) :
    Lex.code.after p (c :: q) = .code ∧ Lex.code.after (p ++ [c]) q = .code := by
  simp only [List.mem_cons, List.not_mem_nil, or_false, not_or] at hc
  obtain ⟨hspace, hnewline, hquotes⟩ := hc
  obtain ⟨mp', hmp', hb⟩ := Lex.maskedFrom_append .code p (c :: q)
  have hsame : mp' ++ maskedFrom (Lex.code.after p (c :: q)) (c :: q) = mp ++ c :: mq :=
    hmp'.symm.trans hm
  obtain ⟨-, hrest⟩ := append_inj_of_byteLength hsame (hb.byteLength_eq.trans hlen.symm)
  have hcode : Lex.code.Quoted := trivial
  have hquoted := hcode.after p (c :: q)
  rw [maskedFrom_cons hnewline] at hrest
  split at hrest
  case isTrue hshows =>
    rw [Lex.after_append, List.singleton_append, Lex.after, Lex.after_nil, Lex.step_of_ne hnewline]
    exact Lex.code_of_shows hquoted hquotes hshows
  case isFalse =>
    -- A blanked character leaves a space.
    obtain ⟨n, hn⟩ : ∃ n, c.utf8Size = n + 1 := ⟨c.utf8Size - 1, by have := c.utf8Size_pos; omega⟩
    rw [blanksFor, hn, List.replicate_succ, List.cons_append] at hrest
    exact absurd (List.cons.inj hrest).1.symm hspace

theorem code_after_shown {p q mp mq : Text} {c : Char} (hm : (p ++ c :: q).masked = mp ++ c :: mq)
    (hlen : byteLength mp = byteLength p) (hc : c ∉ [' ', '\n', '"', '\'']) :
    Lex.code.after (p ++ [c]) q = .code :=
  (code_around_shown hm hlen hc).2

/-- A character that is not in the middle part stands before it or behind it. -/
theorem split_around {a m b u v : Text} {c : Char} (h : a ++ (m ++ b) = u ++ c :: v)
    (hc : c ∉ m) :
    (∃ a', a = u ++ c :: a' ∧ v = a' ++ (m ++ b)) ∨
      ∃ b', b = b' ++ c :: v ∧ u = a ++ (m ++ b') := by
  rcases List.append_eq_append_iff.mp h with ⟨x, rfl, hx⟩ | ⟨x, hx, hy⟩
  · rcases List.append_eq_append_iff.mp hx with ⟨y, rfl, hy⟩ | ⟨y, rfl, hy⟩
    · exact Or.inr ⟨y, hy, rfl⟩
    · cases y with
      | nil => exact Or.inr ⟨[], by simpa using hy.symm, by simp⟩
      | cons d y =>
        obtain ⟨rfl, -⟩ := List.cons.inj hy
        exact absurd (by simp) hc
  · cases x with
    | nil =>
      have hmb : m ++ b = c :: v := by simpa using hy.symm
      cases m with
      | nil => exact Or.inr ⟨[], by simpa using hmb, by simpa using hx.symm⟩
      | cons d m =>
        obtain ⟨rfl, -⟩ := List.cons.inj hmb
        exact absurd List.mem_cons_self hc
    | cons d x =>
      obtain ⟨rfl, rfl⟩ := List.cons.inj hy
      exact Or.inl ⟨x, hx, rfl⟩

end Text

/-! ## Braces -/

namespace CommentKind

variable {k : CommentKind} {before inside inside' behind : Text}

theorem blanked_opener (k : CommentKind) : Blanked [' ', ' '] k.opener := by
  cases k
  · exact .blank '/' (by decide) (.blank '/' (by decide) .nil)
  · exact .blank '/' (by decide) (.blank '*' (by decide) .nil)

/-- The masked form of everything up to a place behind the comment. -/
theorem blanked_through {mp w r : Text} (hbefore : Blanked mp before) (hr : Blanked w r) :
    Blanked (mp ++ (' ' :: ' ' :: (hush inside ++ w))) (k.within before inside r) :=
  hbefore.append (k.blanked_opener.append ((blanked_hush inside).append hr))

/-- Behind a character that is shown the lexer starts afresh. -/
theorem opens_behind_shown {p u mp mq : Text} {c : Char}
    (hopens : Lex.code.after (p ++ c :: u) k.opener = .code)
    (hm : (k.within (p ++ c :: u) inside behind).masked = mp ++ c :: mq)
    (hlen : byteLength mp = byteLength p) (hc : c ∉ [' ', '\n', '"', '\'']) :
    Lex.code.after u k.opener = .code := by
  have hcut : k.within (p ++ c :: u) inside behind = p ++ c :: k.within u inside behind := by
    simp [within]
  have hcode := code_after_shown (hcut ▸ hm) hlen hc
  have hsplit : p ++ c :: u = (p ++ [c]) ++ u := by simp
  have hahead := k.head?_append_opener u (inside ++ behind)
  rw [hsplit, Lex.after_append, ← Lex.after_congr _ _ hahead] at hopens
  exact (congrArg (Lex.after · u k.opener) hcode).symm.trans hopens

namespace Swaps

variable {mhead minner mbehind : Text}

/-- **Between two braces both texts have the same code.** -/
theorem braces (h : k.Swaps before inside inside' behind)
    (hm : (k.within before inside behind).masked = mhead ++ '{' :: (minner ++ '}' :: mbehind)) :
    ∃ head inner rest head' inner' rest',
      (k.within before inside behind).Braced mhead minner head inner rest ∧
      (k.within before inside' behind).Braced mhead minner head' inner' rest' ∧
      SameCode inner inner' := by
  obtain ⟨mp, hmp, hmasked⟩ := h.toStands.masked_eq
  have hmr : Blanked (maskedFrom k.state behind) behind := blanked_maskedFrom k.state behind
  generalize maskedFrom k.state behind = mr at hmr hmasked
  have hcomment : ∀ c, c ≠ ' ' → c ≠ '\n' → c ∉ ' ' :: ' ' :: hush inside := by
    intro c hspace hnewline hmem
    simp only [List.mem_cons] at hmem
    rcases hmem with rfl | rfl | hmem
    · exact hspace rfl
    · exact hspace rfl
    · rcases mem_hush hmem with rfl | ⟨rfl, -⟩
      · exact hspace rfl
      · exact hnewline rfl
  have hsplit := hm
  rw [hmasked _ h.encloses, ← List.cons_append, ← List.cons_append] at hsplit
  rcases split_around hsplit (hcomment '{' (by decide) (by decide)) with
    ⟨v, rfl, hv⟩ | ⟨w, rfl, rfl⟩
  · -- The opening brace stands before the comment.
    obtain ⟨p, u, rfl, hp, hu⟩ := hmp.split_at (by decide)
    rcases split_around hv.symm (hcomment '}' (by decide) (by decide)) with
      ⟨v', rfl, -⟩ | ⟨w, rfl, rfl⟩
    · obtain ⟨i, u', rfl, hi, -⟩ := hu.split_at (by decide)
      exact ⟨p, i, k.within u' inside behind, p, i, k.within u' inside' behind,
        ⟨by simp [within], hp, hi⟩, ⟨by simp [within], hp, hi⟩, .refl i⟩
    · obtain ⟨r, q, rfl, hr, -⟩ := hmr.split_at (by decide)
      have hcode : Lex.code.after u k.opener = .code :=
        opens_behind_shown h.opens hm hp.byteLength_eq (by decide)
      have hbrace : '}' ∉ k.closer := by cases k <;> decide
      have hinner : k.Swaps u inside inside' r :=
        ⟨⟨hcode, h.encloses.cut hbrace⟩, h.encloses'.cut hbrace, h.hush_eq⟩
      refine ⟨p, k.within u inside r, q, p, k.within u inside' r, q,
        ⟨by simp [within], hp, blanked_through hu hr⟩, ⟨by simp [within], hp, ?_⟩,
        hinner.sameCode⟩
      rw [h.hush_eq]
      exact blanked_through hu hr
  · -- It stands behind the comment, and so does what it encloses.
    obtain ⟨r, r', rfl, hr, hr'⟩ := hmr.split_at (by decide)
    obtain ⟨i, q, rfl, hi, -⟩ := hr'.split_at (by decide)
    refine ⟨k.within before inside r, i, q, k.within before inside' r, i, q,
      ⟨by simp [within], blanked_through hmp hr, hi⟩,
      ⟨by simp [within], ?_, hi⟩, .refl i⟩
    rw [h.hush_eq]
    exact blanked_through hmp hr

end Swaps
end CommentKind

/-! ## Bodies -/

/-- The bodies are on the same lines and have the same code inside. -/
structure Body.Alike (b b' : Body) : Prop where
  stop_eq : b.stop = b'.stop
  startLine_eq : b.startLine = b'.startLine
  openLine_eq : b.openLine = b'.openLine
  endLine_eq : b.endLine = b'.endLine
  inner : SameCode b.inner b'.inner

namespace CommentKind.Swaps

variable {k : CommentKind} {before inside inside' behind : Text}

/-- Where both texts can be cut, both have a body or none has one. -/
theorem bodyAt?_alike (h : k.Swaps before inside inside' behind) {start : Nat}
    (hcut : (k.within before inside behind).IsCut start)
    (hcut' : (k.within before inside' behind).IsCut start) :
    Option.Rel Body.Alike
      (bodyAt? (k.within before inside behind) (k.within before inside behind).masked start)
      (bodyAt? (k.within before inside' behind) (k.within before inside' behind).masked start) := by
  rw [← h.sameCode.masked_eq]
  cases hbraces : bracesAt? (k.within before inside behind).masked start with
  | none =>
    rw [bodyAt?_eq_bind, bodyAt?_eq_bind, hbraces]
    exact .none
  | some braces =>
    obtain ⟨mb, mhead, minner, mbehind, hm, rfl, hopening, hstop⟩ := bracesAt?_eq_some hbraces
    obtain ⟨head, inner, rest, head', inner', rest', hbraced, hbraced', hinner⟩ := h.braces hm
    obtain ⟨pre, _, hrest, hlen⟩ := hcut
    obtain ⟨pre', _, hrest', hlen'⟩ := hcut'
    obtain ⟨b, top, hb, hsits, hpre, htop⟩ :=
      hbraced.exists_body hbraces hopening hstop hrest hlen
    obtain ⟨b', top', hb', hsits', hpre', htop'⟩ :=
      hbraced'.exists_body hbraces hopening hstop hrest' hlen'
    have hprelines := hpre.newlines_eq.symm.trans hpre'.newlines_eq
    have htoplines := htop.newlines_eq.symm.trans htop'.newlines_eq
    have hinnerlines := hbraced.inner.newlines_eq.symm.trans hbraced'.inner.newlines_eq
    have hpresize := hpre.byteLength_eq.symm.trans hpre'.byteLength_eq
    have htopsize := htop.byteLength_eq.symm.trans htop'.byteLength_eq
    have hinnersize := hbraced.inner.byteLength_eq.symm.trans hbraced'.inner.byteLength_eq
    rw [hb, hb']
    refine .some ⟨?_, ?_, ?_, ?_, ?_⟩
    · rw [hsits.stop_eq, hsits'.stop_eq, hpresize, htopsize, hinnersize]
    · rw [hsits.startLine_eq, hsits'.startLine_eq, hprelines]
    · rw [hsits.openLine_eq, hsits'.openLine_eq, hsits.startLine_eq, hsits'.startLine_eq,
        hprelines, htoplines]
    · rw [hsits.endLine_eq, hsits'.endLine_eq, hsits.startLine_eq, hsits'.startLine_eq,
        hprelines, htoplines, hinnerlines]
    · rw [hsits.inner_eq, hsits'.inner_eq]
      exact hinner

end CommentKind.Swaps

/-! ## Searches for bodies -/

section Related

variable {α β : Type} {R : β → β → Prop}

theorem findSome?_rel {g g' : α → Option β} {l : List α}
    (h : ∀ a ∈ l, Option.Rel R (g a) (g' a)) :
    Option.Rel R (l.findSome? g) (l.findSome? g') := by
  induction l with
  | nil => exact .none
  | cons a l ih =>
    have hrest := ih fun b hb => h b (List.mem_cons_of_mem a hb)
    have ha := h a List.mem_cons_self
    rw [List.findSome?_cons, List.findSome?_cons]
    cases hg : g a with
    | none =>
      cases hg' : g' a with
      | none => exact hrest
      | some b' =>
        rw [hg, hg'] at ha
        cases ha
    | some b =>
      cases hg' : g' a with
      | none =>
        rw [hg, hg'] at ha
        cases ha
      | some b' =>
        rw [hg, hg'] at ha
        exact ha

theorem find?_rel {p : β → Bool} (hp : ∀ b b', R b b' → p b = p b') {l l' : List β}
    (h : List.Forall₂ R l l') : Option.Rel R (l.find? p) (l'.find? p) := by
  induction h with
  | nil => exact .none
  | @cons b b' l l' hb _ ih =>
    rw [List.find?_cons, List.find?_cons, ← hp b b' hb]
    cases p b with
    | true => exact .some hb
    | false => exact ih

theorem toList_rel {o o' : Option β} (h : Option.Rel R o o') :
    List.Forall₂ R o.toList o'.toList := by
  cases h with
  | none => exact .nil
  | some h => exact .cons h .nil

theorem map_eq_of_rel {γ : Type} {o o' : Option β} {g g' : β → γ} (h : Option.Rel R o o')
    (hg : ∀ b b', R b b' → g b = g' b') : o.map g = o'.map g' := by
  cases h with
  | none => rfl
  | @some b b' h => rw [Option.map_some, Option.map_some, hg b b' h]

theorem or_rel {o o' x x' : Option β} (h : Option.Rel R o o') (hx : Option.Rel R x x') :
    Option.Rel R (o.or x) (o'.or x') := by
  cases h with
  | none => exact hx
  | some h => exact .some h

end Related

theorem Text.cursorAfter_eq {o o' : Option Body} (h : Option.Rel Body.Alike o o') (s : Span) :
    cursorAfter o s = cursorAfter o' s := by
  cases h with
  | none => rfl
  | some h => exact h.stop_eq

theorem Text.bodiesFrom_alike {t t' m : Text} {header : Regex}
    (h : ∀ cursor s, header.findAt? m cursor = some s →
      Option.Rel Body.Alike (bodyAt? t m s.start) (bodyAt? t' m s.start)) (cursor : Nat) :
    List.Forall₂ Body.Alike (bodiesFrom t m header cursor) (bodiesFrom t' m header cursor) := by
  fun_induction bodiesFrom t m header cursor with
  | case1 cursor hnone =>
    rw [bodiesFrom.eq_def t' m header cursor, hnone]
    exact .nil
  | case2 cursor s hs hnext ih =>
    rw [bodiesFrom.eq_def t' m header cursor, hs]
    dsimp only
    rw [← cursorAfter_eq (h cursor s hs) s, if_pos hnext]
    exact List.rel_append (toList_rel (h cursor s hs)) ih
  | case3 cursor s hs hnext =>
    rw [bodiesFrom.eq_def t' m header cursor, hs]
    dsimp only
    rw [← cursorAfter_eq (h cursor s hs) s, if_neg hnext]
    exact toList_rel (h cursor s hs)

namespace CommentKind.Swaps

variable {k : CommentKind} {before inside inside' behind : Text}

theorem firstBody?_alike (h : k.Swaps before inside inside' behind) {header : Regex}
    (hheader : header.StartsVisibly) :
    Option.Rel Body.Alike (firstBody? (k.within before inside behind) header)
      (firstBody? (k.within before inside' behind) header) := by
  unfold firstBody?
  dsimp only
  have hmasked := h.sameCode.masked_eq
  have hspans : header.spans (k.within before inside' behind).masked =
      header.spans (k.within before inside behind).masked := by rw [hmasked]
  rw [hspans]
  refine findSome?_rel fun s hs => ?_
  have hfound := Regex.spansFrom_behind hs
  exact h.bodyAt?_alike (hfound.isCut hheader) ((hmasked ▸ hfound).isCut hheader)

theorem bodies_alike (h : k.Swaps before inside inside' behind) {header : Regex}
    (hheader : header.StartsVisibly) :
    List.Forall₂ Body.Alike (bodies (k.within before inside behind) header)
      (bodies (k.within before inside' behind) header) := by
  unfold bodies
  have hmasked := h.sameCode.masked_eq
  rw [← hmasked]
  refine bodiesFrom_alike (fun cursor s hs => ?_) 0
  have hfound := Regex.findFrom_behind hs
  have halike := h.bodyAt?_alike (hfound.isCut hheader) ((hmasked ▸ hfound).isCut hheader)
  rwa [← hmasked] at halike

/-- The struct or enum with a name is found on the same lines. -/
theorem body?_alike (h : k.Swaps before inside inside' behind) (a : Aggregate) (name : String) :
    Option.Rel Body.Alike (a.body? (k.within before inside behind) name)
      (a.body? (k.within before inside' behind) name) := by
  unfold Aggregate.body?
  dsimp only
  rw [← h.sameCode.masked_eq]
  refine or_rel (h.firstBody?_alike (a.taggedHeader_startsVisibly name)) ?_
  refine find?_rel (fun b b' hb => ?_) (h.bodies_alike a.typedefHeader_startsVisibly)
  rw [hb.stop_eq]

end CommentKind.Swaps
end StructuralRules
