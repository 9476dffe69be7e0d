import StructuralRules.Proofs.Checked.Body

/-!
# Where headers start

Headers are looked for in the masked text, and the text itself is cut where they
start. A blanked character may be longer than one of its spaces, so not every
offset of the masked text cuts the text. A header starts at a line start or on a
character that was not blanked, and there the text is cut too.
-/

set_option autoImplicit false

namespace StructuralRules

open Text

namespace Regex

variable {r : Regex} {before : Option Char} {t : Text} {s : Span} {cursor off : Nat}

/-- A match begins with a move: it accepts, or it reads the first character. -/
theorem exists_move_of_matchSize? {n : Nat} (h : r.matchSize? before t = some n) :
    ∃ m ∈ r.moves before t.head?, m = .accept ∨
      ∃ c rest k r', t = c :: rest ∧ m = .read k r' ∧ k.contains c = true := by
  obtain ⟨u, rest, rfl, -, hreads⟩ := reads_of_matchSize? h
  cases hreads with
  | accept hmove => exact ⟨_, hmove, Or.inl rfl⟩
  | read hmove hk => exact ⟨_, hmove, Or.inr ⟨_, _, _, _, rfl, rfl, hk⟩⟩

/-- `s` starts at a match of `r` in `t`, which stands behind `before` at offset `off`. -/
def FoundBehind (r : Regex) (before : Option Char) (off : Nat) (t : Text) (s : Span) : Prop :=
  ∃ p q n, t = p ++ q ∧ r.matchSize? (p.getLast?.or before) q = some n ∧
    s.start = off + byteLength p

theorem FoundBehind.cons {c : Char} (h : r.FoundBehind (some c) (off + c.utf8Size) t s) :
    r.FoundBehind before off (c :: t) s := by
  obtain ⟨p, q, n, rfl, hmatch, hstart⟩ := h
  refine ⟨c :: p, q, n, rfl, ?_, ?_⟩
  · have hlast : ((c :: p).getLast?).or before = p.getLast?.or (some c) := by
      cases p with
      | nil => rfl
      | cons d p => simp [List.getLast?_cons]
    rw [hlast]
    exact hmatch
  · rw [hstart, byteLength_cons]
    omega

theorem spanAt?_behind (h : r.spanAt? cursor before off t = some s) :
    r.FoundBehind before off t s := by
  rw [spanAt?] at h
  split_ifs at h
  obtain ⟨n, hn, rfl⟩ := Option.map_eq_some_iff.mp h
  exact ⟨[], t, n, rfl, hn, rfl⟩

theorem findFrom_behind (h : r.findFrom cursor before off t = some s) :
    r.FoundBehind before off t s := by
  induction t generalizing before off with
  | nil => exact spanAt?_behind h
  | cons c t ih =>
    rw [findFrom] at h
    split at h
    · next s' hs' =>
      obtain rfl := Option.some.inj h
      exact spanAt?_behind hs'
    · exact (ih h).cons

theorem spansFrom_behind {last : Option Nat} (h : s ∈ r.spansFrom cursor last before off t) :
    r.FoundBehind before off t s := by
  induction t generalizing cursor last before off with
  | nil => exact spanAt?_behind (Option.filter_eq_some_iff.mp (Option.mem_toList.mp h)).1
  | cons c t ih =>
    rw [spansFrom] at h
    split at h
    · next s' hs' =>
      rcases List.mem_cons.mp h with rfl | h
      · exact spanAt?_behind (Option.filter_eq_some_iff.mp hs').1
      · exact (ih h).cons
    · exact (ih h).cons

/-- Every match starts at a line start or on something other than a space. -/
def StartsVisibly (r : Regex) : Prop :=
  ∀ before t n, r.matchSize? before t = some n →
    before = none ∨ before = some '\n' ∨ ∃ c rest, t = c :: rest ∧ c ≠ ' '

/-- The text is cut where such a match starts in its masked form. -/
theorem FoundBehind.isCut (hr : r.StartsVisibly) (h : r.FoundBehind none 0 t.masked s) :
    t.IsCut s.start := by
  obtain ⟨p, q, n, hmasked, hmatch, hstart⟩ := h
  have hblank : Blanked (p ++ q) t := hmasked ▸ blanked_masked t
  rw [Option.or_none] at hmatch
  rw [Nat.zero_add] at hstart
  rcases hr _ _ _ hmatch with hnone | hnewline | ⟨c, rest, rfl, hc⟩
  · obtain rfl : p = [] := List.getLast?_eq_none_iff.mp hnone
    exact ⟨[], t, rfl, hstart⟩
  · obtain ⟨p, rfl⟩ := List.getLast?_eq_some_iff.mp hnewline
    rw [List.append_assoc, List.singleton_append] at hblank
    obtain ⟨u, v, rfl, hu, -⟩ := hblank.split_at (by decide)
    refine ⟨u ++ ['\n'], v, by simp, ?_⟩
    rw [hstart, byteLength_append, byteLength_append, hu.byteLength_eq]
  · obtain ⟨u, v, rfl, hu, -⟩ := hblank.split_at hc
    exact ⟨u, c :: v, rfl, by rw [hstart, hu.byteLength_eq]⟩

/-- Every match starts at a line start. -/
def StartsLine (r : Regex) : Prop :=
  ∀ before t n, r.matchSize? before t = some n → before = none ∨ before = some '\n'

/-- Where such a match starts in the masked form of a text, lines of the text have ended. -/
theorem FoundBehind.exists_ended (hr : r.StartsLine) (h : r.FoundBehind none 0 t.masked s) :
    ∃ ls rest, t = ended ls ++ rest ∧ (∀ l ∈ ls, '\n' ∉ l) ∧ s.start = byteLength (ended ls) := by
  obtain ⟨p, q, n, hmasked, hmatch, hstart⟩ := h
  have hblank : Blanked (p ++ q) t := hmasked ▸ blanked_masked t
  rw [Option.or_none] at hmatch
  rw [Nat.zero_add] at hstart
  rcases hr _ _ _ hmatch with hnone | hnewline
  · obtain rfl : p = [] := List.getLast?_eq_none_iff.mp hnone
    exact ⟨[], t, rfl, by simp, hstart⟩
  · obtain ⟨p, rfl⟩ := List.getLast?_eq_some_iff.mp hnewline
    rw [List.append_assoc, List.singleton_append] at hblank
    obtain ⟨u, v, rfl, hu, -⟩ := hblank.split_at (by decide)
    obtain ⟨ls, last, rfl, hlast, hls⟩ := Text.exists_ended u
    have hended : ended (ls ++ [last]) = ended ls ++ last ++ ['\n'] := by simp [ended]
    refine ⟨ls ++ [last], v, by rw [hended]; simp, ?_, ?_⟩
    · intro l hl
      rcases List.mem_append.mp hl with hl | hl
      · exact hls l hl
      · rwa [List.mem_singleton.mp hl]
    · rw [hstart, hended, byteLength_append, hu.byteLength_eq, byteLength_append (ended ls ++ last)]

/-! ## Headers -/

theorem startsLine_anchor (r : Regex) : (Regex.cat (.anchor .lineStart) r).StartsLine := by
  intro before t n h
  obtain ⟨m, hm, -⟩ := exists_move_of_matchSize? h
  have hstart : Anchor.lineStart.holds before t.head? = true := by
    rcases mem_moves_cat.mp hm with ⟨hanchor, -⟩ | ⟨k, r', hanchor, -⟩
    · exact (mem_moves_anchor.mp hanchor).2
    · exact (mem_moves_anchor.mp hanchor).2
  rcases Bool.or_eq_true_iff.mp hstart with hnone | hnewline
  · exact Or.inl (Option.isNone_iff_eq_none.mp hnone)
  · exact Or.inr (eq_of_beq hnewline)

theorem startsVisibly_lineStart (r : Regex) : (Regex.cat (.anchor .lineStart) r).StartsVisibly := by
  intro before t n h
  rcases startsLine_anchor r before t n h with hnone | hnewline
  · exact Or.inl hnone
  · exact Or.inr (Or.inl hnewline)

/-- A word is read from its first character. -/
theorem move_of_literal {c : Char} {w : Text} {after : Option Char} {m : Move}
    (hm : m ∈ (literal (c :: w)).moves before after) : ∃ r', m = .read (.single c) r' := by
  cases w with
  | nil => exact ⟨_, List.mem_singleton.mp hm⟩
  | cons d w => exact ⟨_, List.mem_singleton.mp hm⟩

theorem startsVisibly_word {c : Char} (hc : c ≠ ' ') (a : Anchor) (w : Text) (r : Regex) :
    (Regex.cat (.anchor a) (.cat (.literal (c :: w)) r)).StartsVisibly := by
  intro before t n h
  obtain ⟨m, hm, hfirst⟩ := exists_move_of_matchSize? h
  obtain ⟨r', rfl⟩ : ∃ r', m = .read (.single c) r' := by
    rcases mem_moves_cat.mp hm with ⟨-, hm⟩ | ⟨k, r', hanchor, -⟩
    · rcases mem_moves_cat.mp hm with ⟨hword, -⟩ | ⟨k, r', hword, rfl⟩
      · obtain ⟨r', hread⟩ := move_of_literal hword
        cases hread
      · obtain ⟨r'', hread⟩ := move_of_literal hword
        obtain ⟨rfl, rfl⟩ := Move.read.inj hread
        exact ⟨_, rfl⟩
    · cases (mem_moves_anchor.mp hanchor).1
  rcases hfirst with haccept | ⟨d, rest, k, r'', rfl, hread, hk⟩
  · cases haccept
  · obtain ⟨rfl, rfl⟩ := Move.read.inj hread
    obtain rfl := CharSet.eq_of_contains_single hk
    exact Or.inr (Or.inr ⟨d, rest, rfl, hc⟩)

end Regex

theorem FunctionDef.header_startsLine (name : String) : (header name).StartsLine :=
  Regex.startsLine_anchor _

theorem FunctionDef.header_startsVisibly (name : String) : (header name).StartsVisibly :=
  Regex.startsVisibly_lineStart _

theorem Aggregate.taggedHeader_startsVisibly (k : Aggregate) (name : String) :
    (k.taggedHeader name).StartsVisibly := by
  cases k
  · exact Regex.startsVisibly_word (c := 's') (by decide) _ _ _
  · exact Regex.startsVisibly_word (c := 'e') (by decide) _ _ _

theorem Aggregate.typedefHeader_startsVisibly (k : Aggregate) : k.typedefHeader.StartsVisibly :=
  Regex.startsVisibly_word (c := 't') (by decide) _ _ _

end StructuralRules
