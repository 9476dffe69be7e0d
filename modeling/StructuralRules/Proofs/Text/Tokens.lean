import StructuralRules.Proofs.Text.Cut
import StructuralRules.Proofs.Text.Search

/-!
# Whole identifiers

A token is a run of identifier characters that cannot be made longer. `tokens`
lists what is left of a text when it is split at all other characters, and that
is just the tokens that stand in it. Where a part of a text is cut out between
characters that belong to no identifier, its tokens are those of the text.
-/

set_option autoImplicit false

namespace StructuralRules.Text

/-- No identifier that stands before `t` goes on in it. -/
def StartsApart (t : Text) : Prop :=
  ∀ c, t.head? = some c → isIdentChar c = false

/-- No identifier that stands behind `t` starts in it. -/
def EndsApart (t : Text) : Prop :=
  ∀ c, t.getLast? = some c → isIdentChar c = false

/-- `w` is a whole identifier between `before` and `behind`. -/
structure IsToken (before w behind : Text) : Prop where
  ne_nil : w ≠ []
  ident : ∀ c ∈ w, isIdentChar c = true
  before_apart : EndsApart before
  behind_apart : StartsApart behind

/-- `w` stands as a whole identifier at byte `off` of `t`. -/
def TokenAt (t : Text) (off : Nat) (w : Text) : Prop :=
  ∃ before behind, t = before ++ (w ++ behind) ∧ off = byteLength before ∧
    IsToken before w behind

section Apart

variable {t : Text} {c : Char}

theorem endsApart_nil : EndsApart [] := by
  intro d hd
  cases hd

theorem endsApart_concat (hc : isIdentChar c = false) (t : Text) : EndsApart (t ++ [c]) := by
  intro d hd
  rw [List.getLast?_concat, Option.some.injEq] at hd
  rwa [← hd]

theorem startsApart_nil : StartsApart [] := by
  intro d hd
  cases hd

theorem startsApart_cons (hc : isIdentChar c = false) (t : Text) : StartsApart (c :: t) := by
  intro d hd
  rw [List.head?_cons, Option.some.injEq] at hd
  rwa [← hd]

theorem EndsApart.cases (h : EndsApart t) :
    t = [] ∨ ∃ u c, t = u ++ [c] ∧ isIdentChar c = false := by
  rcases List.eq_nil_or_concat t with rfl | ⟨u, c, rfl⟩
  · exact Or.inl rfl
  · rw [List.concat_eq_append] at h ⊢
    exact Or.inr ⟨u, c, rfl, h c List.getLast?_concat⟩

theorem StartsApart.cases (h : StartsApart t) :
    t = [] ∨ ∃ c u, t = c :: u ∧ isIdentChar c = false := by
  cases t with
  | nil => exact Or.inl rfl
  | cons c u => exact Or.inr ⟨c, u, rfl, h c rfl⟩

end Apart

/-! ## Tokens of a text -/

/-- Tokens do not reach across a character that belongs to no identifier. -/
theorem tokens_append {c : Char} (hc : isIdentChar c = false) (u v : Text) :
    tokens (u ++ c :: v) = tokens u ++ tokens v := by
  have hsplit := splitBy_append (p := (!isIdentChar ·)) (c := c) (by simp [hc]) u v
  rw [tokens, hsplit, List.filter_append, tokens, tokens]

theorem tokens_of_ident {w : Text} (h : ∀ c ∈ w, isIdentChar c = true) :
    tokens w = if w = [] then [] else [w] := by
  have hsplit := splitBy_of_none (p := (!isIdentChar ·)) (t := w) fun c hc => by simp [h c hc]
  rw [tokens, hsplit]
  cases w <;> rfl

theorem tokens_cons {c : Char} (hc : isIdentChar c = false) (v : Text) :
    tokens (c :: v) = tokens v :=
  tokens_append hc [] v

theorem tokens_append_of_none {v : Text} (h : ∀ c ∈ v, isIdentChar c = false) (u : Text) :
    tokens (u ++ v) = tokens u := by
  induction v generalizing u with
  | nil => rw [List.append_nil]
  | cons c v ih =>
    have hrest := ih (fun d hd => h d (List.mem_cons_of_mem c hd)) (u ++ [c])
    rw [List.append_assoc, List.singleton_append] at hrest
    rw [hrest, tokens_append (h c List.mem_cons_self)]
    exact List.append_nil _

theorem tokens_append_of_none_left {u : Text} (h : ∀ c ∈ u, isIdentChar c = false) (v : Text) :
    tokens (u ++ v) = tokens v := by
  induction u with
  | nil => rfl
  | cons c u ih =>
    rw [List.cons_append, tokens_cons (h c List.mem_cons_self)]
    exact ih fun d hd => h d (List.mem_cons_of_mem c hd)

theorem toNat_of_isIdentChar {c : Char} (h : isIdentChar c = true) :
    48 ≤ c.toNat ∧ c.toNat ≤ 122 := by
  have hkinds : (((c.isUpper || c.isLower) || c.isDigit) || c == '_') = true := h
  simp only [Bool.or_eq_true, beq_iff_eq] at hkinds
  rcases hkinds with ((hupper | hlower) | hdigit) | rfl
  · have hrange : 65 ≤ c.toNat ∧ c.toNat ≤ 90 := of_decide_eq_true hupper
    omega
  · obtain ⟨hlow, hhigh⟩ := Bool.and_eq_true_iff.mp hlower
    have hlow : 97 ≤ c.toNat := of_decide_eq_true hlow
    have hhigh : c.toNat ≤ 122 := of_decide_eq_true hhigh
    omega
  · obtain ⟨hlow, hhigh⟩ := Bool.and_eq_true_iff.mp hdigit
    have hlow : 48 ≤ c.toNat := of_decide_eq_true hlow
    have hhigh : c.toNat ≤ 57 := of_decide_eq_true hhigh
    omega
  · decide

theorem isIdentChar_of_isIdentifier {n : Text} (h : isIdentifier n = true) {c : Char} (hc : c ∈ n) :
    isIdentChar c = true := by
  cases n with
  | nil => cases hc
  | cons d n =>
    obtain ⟨hfirst, hrest⟩ := Bool.and_eq_true_iff.mp h
    obtain rfl | hc := List.mem_cons.mp hc
    · rw [isIdentChar, Char.isAlphanum, Bool.or_right_comm, hfirst, Bool.true_or]
    · exact List.all_eq_true.mp hrest c hc

theorem isIdentChar_of_isBlank {c : Char} (h : isBlank c = true) : isIdentChar c = false := by
  by_contra hident
  have hrange := toNat_of_isIdentChar (Bool.not_eq_false _ ▸ hident)
  simp only [isBlank, Bool.or_eq_true, Bool.and_eq_true, decide_eq_true_eq, beq_iff_eq] at h
  omega

theorem tokens_trim (t : Text) : tokens (trim t) = tokens t := by
  obtain ⟨r, hr, hblank⟩ := exists_trimEnd (trimStart t)
  have hstart : tokens (trimStart t) = tokens t := by
    have hfront := tokens_append_of_none_left (u := t.takeWhile isBlank)
      (fun c hc => isIdentChar_of_isBlank (List.mem_takeWhile_imp hc)) (trimStart t)
    rw [trimStart, List.takeWhile_append_dropWhile] at hfront
    exact hfront.symm
  rw [← hstart, hr, trim]
  exact (tokens_append_of_none (fun c hc => isIdentChar_of_isBlank (hblank c hc)) _).symm

/-- **Splitting finds the whole identifiers and nothing else.** -/
theorem mem_tokens_iff {t w : Text} :
    w ∈ tokens t ↔ ∃ before behind, t = before ++ (w ++ behind) ∧ IsToken before w behind := by
  constructor
  · intro hw
    -- The text is cut at its last character that belongs to no identifier.
    induction hn : t.length using Nat.strong_induction_on generalizing t with
    | _ n ih =>
      rcases last_split (!isIdentChar ·) t with hall | ⟨u, c, v, rfl, hc, hv⟩
      · have hident : ∀ c ∈ t, isIdentChar c = true := fun c hc => by simpa using hall c hc
        rw [tokens_of_ident hident] at hw
        split_ifs at hw with hnil
        · cases hw
        · obtain rfl := List.mem_singleton.mp hw
          exact ⟨[], [], by simp, hnil, hident, endsApart_nil, startsApart_nil⟩
      · have hc : isIdentChar c = false := by simpa using hc
        have hident : ∀ x ∈ v, isIdentChar x = true := fun x hx => by simpa using hv x hx
        rw [tokens_append hc, List.mem_append] at hw
        rcases hw with hw | hw
        · have hlt : u.length < n := by
            rw [← hn, List.length_append, List.length_cons]
            omega
          obtain ⟨before, behind, rfl, htoken⟩ := ih u.length hlt hw rfl
          refine ⟨before, behind ++ c :: v, by simp, htoken.ne_nil, htoken.ident,
            htoken.before_apart, ?_⟩
          rcases htoken.behind_apart.cases with rfl | ⟨d, r, rfl, hd⟩
          · exact startsApart_cons hc v
          · exact startsApart_cons hd _
        · rw [tokens_of_ident hident] at hw
          split_ifs at hw with hnil
          · cases hw
          · obtain rfl := List.mem_singleton.mp hw
            exact ⟨u ++ [c], [], by simp, hnil, hident, endsApart_concat hc u, startsApart_nil⟩
  · rintro ⟨before, behind, rfl, htoken⟩
    have hself : w ∈ tokens w := by
      rw [tokens_of_ident htoken.ident, if_neg htoken.ne_nil]
      exact List.mem_singleton_self w
    have hbehind : w ∈ tokens (w ++ behind) := by
      rcases htoken.behind_apart.cases with rfl | ⟨c, r, rfl, hc⟩
      · rwa [List.append_nil]
      · rw [tokens_append hc]
        exact List.mem_append_left _ hself
    rcases htoken.before_apart.cases with rfl | ⟨u, c, rfl, hc⟩
    · exact hbehind
    · rw [List.append_assoc, List.singleton_append, tokens_append hc]
      exact List.mem_append_right _ hbehind

/-! ## Tokens of a part -/

theorem EndsApart.append {u v : Text} (hu : EndsApart u) (hv : EndsApart v) :
    EndsApart (u ++ v) := by
  rcases hv.cases with rfl | ⟨r, c, rfl, hc⟩
  · rwa [List.append_nil]
  · rw [← List.append_assoc]
    exact endsApart_concat hc _

theorem EndsApart.of_append {u v : Text} (h : EndsApart (u ++ v)) : EndsApart v := by
  intro c hc
  apply h
  rw [List.getLast?_append, hc]
  rfl

theorem StartsApart.append {u v : Text} (hu : StartsApart u) (hv : StartsApart v) :
    StartsApart (u ++ v) := by
  rcases hu.cases with rfl | ⟨c, r, rfl, hc⟩
  · exact hv
  · exact startsApart_cons hc _

theorem StartsApart.of_append {u v : Text} (h : StartsApart (u ++ v)) : StartsApart u := by
  intro c hc
  apply h
  rw [List.head?_append, hc]
  rfl

/-- The tokens of a part that is cut out between other characters are those of the text that
stand in the part. -/
theorem mem_tokens_part_iff {before part behind w : Text} (hbefore : EndsApart before)
    (hbehind : StartsApart behind) :
    w ∈ tokens part ↔ ∃ off, TokenAt (before ++ (part ++ behind)) off w ∧
      byteLength before ≤ off ∧ off + byteLength w ≤ byteLength before + byteLength part := by
  rw [mem_tokens_iff]
  constructor
  · rintro ⟨x, y, rfl, htoken⟩
    refine ⟨byteLength (before ++ x), ⟨before ++ x, y ++ behind, ?_, rfl, ?_⟩, ?_, ?_⟩
    · simp
    · exact ⟨htoken.ne_nil, htoken.ident, hbefore.append htoken.before_apart,
        htoken.behind_apart.append hbehind⟩
    · rw [byteLength_append]
      omega
    · simp only [byteLength_append]
      omega
  · rintro ⟨off, ⟨x, y, htext, rfl, htoken⟩, hfirst, hlast⟩
    obtain ⟨x', rfl, hrest⟩ := exists_append_of_byteLength_le htext hfirst
    rw [← List.append_assoc] at hrest
    obtain ⟨y', rfl, rfl⟩ := exists_append_of_byteLength_le hrest.symm (by
      rw [byteLength_append] at hlast ⊢
      omega)
    refine ⟨x', y', by simp, htoken.ne_nil, htoken.ident, htoken.before_apart.of_append,
      htoken.behind_apart.of_append⟩

end StructuralRules.Text
