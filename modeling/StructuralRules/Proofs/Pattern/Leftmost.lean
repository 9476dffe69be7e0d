import StructuralRules.Proofs.Pattern.Spans

/-!
# The leftmost match from an offset on

A search goes along the text and stops at the first place with a match, so it
finds the leftmost one that its cursor has not passed. Where no match is empty,
the matches that do not overlap are found one after the other, each from the end
of the one before it.
-/

set_option autoImplicit false

namespace StructuralRules.Regex

open Text

/-! ## Matches -/

/-- `s` is the match of `r` where it starts in `t`, which stands behind `before` at offset
`off`. -/
def MatchFrom (r : Regex) (before : Option Char) (off : Nat) (t : Text) (s : Span) : Prop :=
  ∃ p q n, t = p ++ q ∧ r.matchSize? (p.getLast?.or before) q = some n ∧
    s = ⟨off + byteLength p, off + byteLength p + n⟩

/-- `s` is the match of `r` where it starts in `t`. -/
def MatchAt (r : Regex) (t : Text) (s : Span) : Prop :=
  r.MatchFrom none 0 t s

/-- `s` is the leftmost match of `r` in `t` that starts at `cursor` or later. -/
structure FirstFrom (r : Regex) (t : Text) (cursor : Nat) (s : Span) : Prop where
  found : r.MatchAt t s
  reached : cursor ≤ s.start
  leftmost : ∀ s', r.MatchAt t s' → cursor ≤ s'.start → s.start ≤ s'.start

section Matches

variable {r : Regex} {before : Option Char} {off cursor : Nat} {t : Text} {s s' : Span}

theorem MatchFrom.start_le (h : r.MatchFrom before off t s) : off ≤ s.start := by
  obtain ⟨p, q, n, -, -, rfl⟩ := h
  exact Nat.le_add_right off _

/-- A match starts at the front of the text or behind its first character. -/
theorem matchFrom_cons {c : Char} : r.MatchFrom before off (c :: t) s ↔
    (∃ n, r.matchSize? before (c :: t) = some n ∧ s = ⟨off, off + n⟩) ∨
      r.MatchFrom (some c) (off + c.utf8Size) t s := by
  constructor
  · intro ⟨p, q, n, ht, hmatch, hs⟩
    cases p with
    | nil =>
      obtain rfl : c :: t = q := ht
      exact Or.inl ⟨n, hmatch, hs⟩
    | cons d p =>
      obtain ⟨rfl, rfl⟩ := List.cons.inj ht
      rw [getLast?_cons_or] at hmatch
      rw [byteLength_cons, ← Nat.add_assoc] at hs
      exact Or.inr ⟨p, q, n, rfl, hmatch, hs⟩
  · rintro (⟨n, hmatch, rfl⟩ | ⟨p, q, n, rfl, hmatch, rfl⟩)
    · exact ⟨[], c :: t, n, rfl, hmatch, rfl⟩
    · refine ⟨c :: p, q, n, rfl, ?_, ?_⟩
      · rwa [getLast?_cons_or]
      · rw [byteLength_cons, Nat.add_assoc]

theorem matchFrom_nil : r.MatchFrom before off [] s ↔
    ∃ n, r.matchSize? before [] = some n ∧ s = ⟨off, off + n⟩ := by
  constructor
  · intro ⟨p, q, n, ht, hmatch, hs⟩
    obtain ⟨rfl, rfl⟩ := List.append_eq_nil_iff.mp ht.symm
    exact ⟨n, hmatch, hs⟩
  · rintro ⟨n, hmatch, rfl⟩
    exact ⟨[], [], n, rfl, hmatch, rfl⟩

/-- At one place there is one match. -/
theorem MatchAt.eq_of_start_eq (h : r.MatchAt t s) (h' : r.MatchAt t s')
    (hstart : s.start = s'.start) : s = s' := by
  obtain ⟨p, q, n, rfl, hn, rfl⟩ := h
  obtain ⟨p', q', n', ht, hn', rfl⟩ := h'
  obtain ⟨rfl, rfl⟩ := append_inj_of_byteLength ht (Nat.add_left_cancel hstart)
  rw [Option.some.inj (hn.symm.trans hn')]

theorem FirstFrom.unique (h : r.FirstFrom t cursor s) (h' : r.FirstFrom t cursor s') : s = s' :=
  h.found.eq_of_start_eq h'.found
    (Nat.le_antisymm (h.leftmost s' h'.found h'.reached) (h'.leftmost s h.found h.reached))

/-- What is matched is a part of the text that is read where it stands. -/
theorem MatchAt.reads (h : r.MatchAt t s) :
    ∃ p v q, s.Delimits t p v q ∧ Reads r p.getLast? v q := by
  obtain ⟨p, q, n, rfl, hmatch, rfl⟩ := h
  obtain ⟨v, rest, rfl, rfl, hreads⟩ := reads_of_matchSize? hmatch
  rw [Option.or_none] at hreads
  exact ⟨p, v, rest, ⟨rfl, Nat.zero_add _, by rw [Nat.zero_add]⟩, hreads⟩

/-- Where a part of the text is read there is a match, though not always of that part. -/
theorem exists_matchAt {p v q : Text} (h : Reads r p.getLast? v q) :
    ∃ n, r.MatchAt (p ++ (v ++ q)) ⟨byteLength p, byteLength p + n⟩ := by
  obtain ⟨n, hn⟩ := matchSize?_of_reads h
  refine ⟨n, p, v ++ q, n, rfl, ?_, by rw [Nat.zero_add]⟩
  rwa [Option.or_none]

theorem MatchAt.start_le (h : r.MatchAt t s) : s.start ≤ byteLength t := by
  obtain ⟨p, q, n, rfl, -, rfl⟩ := h
  rw [byteLength_append, Nat.zero_add]
  exact Nat.le_add_right _ _

theorem MatchAt.foundFrom (h : r.MatchAt t s) : r.FoundFrom 0 t s := by
  obtain ⟨p, q, n, rfl, hmatch, rfl⟩ := h
  exact ⟨p, q, _, n, rfl, hmatch, rfl, rfl⟩

/-- A match of a sequence with one character at its end holds that character. -/
theorem MatchAt.start_lt_of_endsWith {c : Char} (hr : EndsWith c r) (h : r.MatchAt t s) :
    s.start < s.stop := by
  obtain ⟨before, m, behind, hs⟩ := h.foundFrom.delimits_endsWith hr
  have hpos := c.utf8Size_pos
  rw [hs.start_eq, hs.stop_eq, byteLength_append, byteLength_cons]
  omega

end Matches

/-! ## Searches -/

section Searches

variable {r : Regex} {before : Option Char} {off cursor : Nat} {t : Text} {s : Span}

theorem spanAt?_eq_some_iff : r.spanAt? cursor before off t = some s ↔
    cursor ≤ off ∧ ∃ n, r.matchSize? before t = some n ∧ s = ⟨off, off + n⟩ := by
  rw [spanAt?]
  split_ifs with hcursor
  · rw [Option.map_eq_some_iff]
    simp only [hcursor, true_and, eq_comm]
  · simp [hcursor]

/-- A search finds the leftmost match that its cursor has not passed, or there is none. -/
theorem findFrom_exact (r : Regex) (cursor : Nat) (before : Option Char) (off : Nat) (t : Text) :
    (∀ s, r.findFrom cursor before off t = some s →
      r.MatchFrom before off t s ∧ cursor ≤ s.start ∧
        ∀ s', r.MatchFrom before off t s' → cursor ≤ s'.start → s.start ≤ s'.start) ∧
    (r.findFrom cursor before off t = none →
      ∀ s, r.MatchFrom before off t s → s.start < cursor) := by
  induction t generalizing before off with
  | nil =>
    rw [findFrom]
    constructor
    · intro s hs
      obtain ⟨hcursor, n, hn, rfl⟩ := spanAt?_eq_some_iff.mp hs
      exact ⟨matchFrom_nil.mpr ⟨n, hn, rfl⟩, hcursor, fun s' hs' _ => hs'.start_le⟩
    · intro hnone s hs
      obtain ⟨n, hn, rfl⟩ := matchFrom_nil.mp hs
      by_contra hcursor
      rw [spanAt?_eq_some_iff.mpr ⟨Nat.le_of_not_lt hcursor, n, hn, rfl⟩] at hnone
      cases hnone
  | cons c t ih =>
    obtain ⟨hfound, hmissed⟩ := ih (some c) (off + c.utf8Size)
    have hpos := c.utf8Size_pos
    rw [findFrom]
    split
    · next s hs =>
      obtain ⟨hcursor, n, hn, rfl⟩ := spanAt?_eq_some_iff.mp hs
      constructor
      · intro s' hs'
        obtain rfl := Option.some.inj hs'
        exact ⟨matchFrom_cons.mpr (Or.inl ⟨n, hn, rfl⟩), hcursor, fun s' hs' _ => hs'.start_le⟩
      · intro hnone
        cases hnone
    · next hnone =>
      -- No match in front of `c` that the cursor has not passed: any other one is behind it.
      have hfront : ∀ {s}, r.MatchFrom before off (c :: t) s → cursor ≤ s.start →
          r.MatchFrom (some c) (off + c.utf8Size) t s := by
        intro s hs hcursor
        obtain ⟨n, hn, rfl⟩ | hs := matchFrom_cons.mp hs
        · rw [spanAt?_eq_some_iff.mpr ⟨hcursor, n, hn, rfl⟩] at hnone
          cases hnone
        · exact hs
      constructor
      · intro s hs
        obtain ⟨hmatch, hcursor, hleft⟩ := hfound s hs
        refine ⟨matchFrom_cons.mpr (Or.inr hmatch), hcursor, ?_⟩
        intro s' hs' hcursor'
        exact hleft s' (hfront hs' hcursor') hcursor'
      · intro hend s hs
        by_contra hcursor
        exact hcursor (hmissed hend s (hfront hs (Nat.le_of_not_lt hcursor)))

/-- **A search finds the leftmost match that starts at its cursor or later.** -/
theorem findAt?_eq_some_iff : r.findAt? t cursor = some s ↔ r.FirstFrom t cursor s := by
  obtain ⟨hfound, hmissed⟩ := findFrom_exact r cursor none 0 t
  constructor
  · intro h
    obtain ⟨hmatch, hcursor, hleft⟩ := hfound s h
    exact ⟨hmatch, hcursor, hleft⟩
  · intro h
    cases hs : r.findAt? t cursor with
    | none =>
      have hlt := hmissed hs s h.found
      have hle := h.reached
      omega
    | some s' =>
      obtain ⟨hmatch, hcursor, hleft⟩ := hfound s' hs
      exact congrArg some (FirstFrom.unique ⟨hmatch, hcursor, hleft⟩ h)

theorem findAt?_eq_none_iff :
    r.findAt? t cursor = none ↔ ∀ s, r.MatchAt t s → s.start < cursor := by
  constructor
  · exact (findFrom_exact r cursor none 0 t).2
  · intro h
    rw [Option.eq_none_iff_forall_ne_some]
    intro s hs
    have hfirst := findAt?_eq_some_iff.mp hs
    have hlt := h s hfirst.found
    have hle := hfirst.reached
    omega

theorem spansFrom_matchFrom {last : Option Nat}
    (h : s ∈ r.spansFrom cursor last before off t) : r.MatchFrom before off t s := by
  induction t generalizing cursor last before off with
  | nil =>
    have hs := (Option.filter_eq_some_iff.mp (Option.mem_toList.mp h)).1
    exact matchFrom_nil.mpr (spanAt?_eq_some_iff.mp hs).2
  | cons c t ih =>
    rw [spansFrom] at h
    split at h
    · next s' hs' =>
      obtain rfl | h := List.mem_cons.mp h
      · have hs := (Option.filter_eq_some_iff.mp hs').1
        exact matchFrom_cons.mpr (Or.inl (spanAt?_eq_some_iff.mp hs).2)
      · exact matchFrom_cons.mpr (Or.inr (ih h))
    · exact matchFrom_cons.mpr (Or.inr (ih h))

theorem matchAt_of_mem_spans (h : s ∈ r.spans t) : r.MatchAt t s :=
  spansFrom_matchFrom h

/-- A match that is not empty is not passed over. -/
theorem filter_passesOver {last : Option Nat} (h : s.start < s.stop) :
    (some s).filter (!passesOver last ·) = some s := by
  rw [Option.filter_some, if_pos]
  simp [passesOver]
  omega

/-- In front of its cursor a search takes no match. -/
theorem spansFrom_of_lt {last : Option Nat} {c : Char} (h : off < cursor) :
    r.spansFrom cursor last before off (c :: t) =
      r.spansFrom cursor last (some c) (off + c.utf8Size) t := by
  rw [spansFrom, spanAt?, if_neg (by omega)]
  rfl

/-- Where no match is empty, the matches that do not overlap are found one after the other. -/
theorem spansFrom_eq {last : Option Nat}
    (hread : ∀ s, r.MatchFrom before off t s → s.start < s.stop) :
    r.spansFrom cursor last before off t =
      match r.findFrom cursor before off t with
      | none => []
      | some s => s :: r.spansFrom s.stop (some s.stop) before off t := by
  induction t generalizing cursor last before off with
  | nil =>
    rw [spansFrom, findFrom]
    cases hs : r.spanAt? cursor before off [] with
    | none => rfl
    | some s =>
      have hlt := hread s (matchFrom_nil.mpr (spanAt?_eq_some_iff.mp hs).2)
      have hstart := spanAt?_start hs
      have hbehind : r.spanAt? s.stop before off [] = none := by
        rw [spanAt?, if_neg (by omega)]
      rw [filter_passesOver hlt]
      dsimp only
      rw [spansFrom, hbehind]
      rfl
  | cons c t ih =>
    rw [findFrom]
    cases hs : r.spanAt? cursor before off (c :: t) with
    | some s =>
      have hlt := hread s (matchFrom_cons.mpr (Or.inl (spanAt?_eq_some_iff.mp hs).2))
      have hstart := spanAt?_start hs
      dsimp only
      rw [spansFrom, hs, filter_passesOver hlt, spansFrom_of_lt (by omega)]
    | none =>
      have hrest : ∀ s, r.MatchFrom (some c) (off + c.utf8Size) t s → s.start < s.stop :=
        fun s h => hread s (matchFrom_cons.mpr (Or.inr h))
      rw [spansFrom, hs, Option.filter_none]
      dsimp only
      rw [ih hrest]
      cases hfound : r.findFrom cursor (some c) (off + c.utf8Size) t with
      | none => rfl
      | some s =>
        have hmatch := ((findFrom_exact r cursor (some c) (off + c.utf8Size) t).1 s hfound).1
        have hlt := hrest s hmatch
        have hle := hmatch.start_le
        have hpos := c.utf8Size_pos
        dsimp only
        rw [spansFrom_of_lt (c := c) (by omega)]

end Searches
end StructuralRules.Regex
